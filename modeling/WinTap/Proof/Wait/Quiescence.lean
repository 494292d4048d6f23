import WinTap.Proof.Wait.Completion
import WinTap.Proof.Wait.Effects

/-!
# No wait is left behind

Ownership already says that a request nobody is working on is either completed or published, and that
the record is not left in a state some party has to leave. Two facts are missing, and they are about the
word and the work item: the word is always one of the seven states, and a scheduled record has its work
item queued, or a claim about to queue it, or a worker about to look.
-/

namespace WinTap

open Machine

variable {e : Env} {choice : Choice}
variable {s s' : WaitWorld} {c c' : Core} {r : Request} {t : ThreadId} {m m' : Ledger} {th th' : WaitThread}

/-- The word is in one of the states. -/
def Coded (word : Word) : Prop := ∃ state : RecordState, waitRecordState word = state.code

theorem Shift.coded {source target : BitVec 8} (h : Shift source target) :
    ∃ state : RecordState, target = state.code := by
  rcases h with ⟨-, h | h⟩ | ⟨-, h | h⟩ | ⟨-, h | h⟩
  · exact ⟨.teardown, h⟩
  · exact ⟨.cancelled, h⟩
  · exact ⟨.unmarking, h⟩
  · exact ⟨.cancelled, h⟩
  · exact ⟨.unmarking, h⟩
  · exact ⟨.cancelled, h⟩

theorem Effect.coded (h : Effect t m th m') (hm : Coded m.word) : Coded m'.word := by
  cases h with
  | «begin» => exact ⟨.registering, waitRecordState_word _ _ _⟩
  | pend => exact ⟨.pending, waitRecordState_shifted _ _⟩
  | shift target hshift =>
    obtain ⟨state, rfl⟩ := hshift.coded
    exact ⟨state, waitRecordState_shifted _ _⟩
  | claim => exact ⟨.scheduled, waitRecordState_word _ _ _⟩
  | retire => exact ⟨.free, waitRecordState_word _ _ _⟩
  | _ => all_goals exact hm

theorem Effect.scheduled (h : Effect t m th m') (hm' : waitRecordState m'.word = waitScheduled) :
    waitRecordState m.word = waitScheduled
      ∨ (waitRecordState m.word = waitPending ∧ ∃ bits, th.exchanging = some (m.word, bits)) := by
  cases h with
  | «begin» | retire =>
    all_goals
      rw [waitRecordState_word] at hm'
      exact absurd hm' (by decide)
  | pend =>
    rw [waitRecordState_shifted] at hm'
    exact absurd hm' (by decide)
  | shift target hshift =>
    rw [waitRecordState_shifted] at hm'
    subst hm'
    rcases hshift with ⟨-, h | h⟩ | ⟨-, h | h⟩ | ⟨-, h | h⟩ <;> exact absurd h (by decide)
  | claim bits hbits hstate => exact hstate.symm.imp id fun h => ⟨h, bits, hbits⟩
  | _ => all_goals exact .inl hm'

theorem Effect.workQueued (h : Effect t m th m') (hm : m.workQueued = true) : m'.workQueued = true := by
  cases h <;> first | exact hm | rfl

/-- The thread is about to queue the work item, or about to look for a scheduled wait. -/
def WaitThread.attends : WaitThread → Bool
  | .register _ _ (.claim _ .enqueue) | .claim _ _ .enqueue | .worker (.take _) => true
  | _ => false

theorem claimWait_attends {condition : Mask} {expected : Option Request} {pc : ClaimPc} {bits : Mask}
    (hpending : waitRecordState c.waitState = waitPending) (hexchange : pc.exchanging = some (c.waitState, bits)) :
    (claimWaitForPassiveCompletion e c t condition expected pc).2 = .run .enqueue := by
  cases pc with
  | exchange observed satisfied =>
    obtain ⟨rfl, -⟩ := Prod.mk.inj (Option.some.inj hexchange)
    simp [claimWaitForPassiveCompletion, hpending]
  | _ => all_goals simp [ClaimPc.exchanging] at hexchange

theorem advanceThread_schedules (hpc : th.PcOk) (hok : StageOk c.view th.stage)
    (hstep : advanceThread e c t choice th = some (c', th'))
    (hscheduled : waitRecordState c'.waitState = waitScheduled) :
    waitRecordState c.waitState = waitScheduled ∨ th'.attends = true := by
  rcases (advanceThread_effect hpc hok hstep).scheduled hscheduled with hold | ⟨hpending, bits, hexchange⟩
  · exact .inl hold
  right
  unfold WaitThread.exchanging at hexchange
  split at hexchange
  · obtain ⟨-, rfl⟩ := Prod.mk.inj (Option.some.inj hstep)
    simp only [handleWaitForChange, call, claimWait_attends hpending hexchange]
    rfl
  · obtain ⟨-, rfl⟩ := Prod.mk.inj (Option.some.inj hstep)
    simp only [claimWait_attends hpending hexchange]
    rfl
  · simp at hexchange

/-- A thread that attends to a scheduled record still does after its step, or has queued the work item. -/
theorem advanceThread_attends (hpc : th.PcOk) (hstep : advanceThread e c t choice th = some (c', th'))
    (hattends : th.attends = true) (hscheduled : waitRecordState c.waitState = waitScheduled)
    (hscheduled' : waitRecordState c'.waitState = waitScheduled) : th'.attends = true ∨ c'.workQueued = true := by
  unfold WaitThread.attends at hattends
  split at hattends
  · obtain ⟨rfl, -⟩ := Prod.mk.inj (Option.some.inj hstep)
    exact .inr rfl
  · obtain ⟨rfl, -⟩ := Prod.mk.inj (Option.some.inj hstep)
    exact .inr rfl
  · rename_i pc
    obtain ⟨rfl, rfl⟩ := Prod.mk.inj (Option.some.inj hstep)
    rcases transitionWaitRecord_cases c waitScheduled waitUnmarking pc hpc with
      ⟨pc', -, heq⟩ | ⟨hstate, -⟩ | ⟨-, heq⟩
    · simp only [workerRound, heq, call_run]
      exact .inl rfl
    · exact absurd hscheduled hstate
    · simp only [workerRound, heq, call_ret, waitRecordState_shifted] at hscheduled'
      exact absurd hscheduled' (by decide)
  · simp at hattends

/-! ### The word and the work item along a run -/

structure RecordInv (s : WaitWorld) : Prop where
  coded : Coded s.core.waitState
  attended : waitRecordState s.core.waitState = waitScheduled →
    s.core.workQueued = true ∨ ∃ t, (s.thr t).attends = true

/-- A step that leaves the word and the queued work item alone, and takes up an idle thread at most. -/
theorem RecordInv.start {x : WaitThread} (h : RecordInv s) (hword : s'.core.waitState = s.core.waitState)
    (hqueued : s.core.workQueued = true → s'.core.workQueued = true ∨ x.attends = true)
    (hidle : s.thr t = .idle) (hthr : s'.thr = Function.update s.thr t x) : RecordInv s' where
  coded := hword ▸ h.coded
  attended hscheduled := by
    rw [hthr]
    rcases h.attended (hword ▸ hscheduled) with hwork | hthread
    · exact (hqueued hwork).imp id exists_update_self
    · exact .inr (exists_update hthread fun hattends => by simp [hidle, WaitThread.attends] at hattends)

theorem RecordInv.step (h : RecordInv s) (hinv : WaitInv s) {a : WaitAction}
    (hstep : stepWait s a = some s') : RecordInv s' := by
  cases stepWait_cases hstep with
  | environment | owe => exact ⟨h.coded, h.attended⟩
  | queueWork => exact ⟨h.coded, fun _ => .inl rfl⟩
  | start lock hidle hstart =>
    cases hstart with
    | work => exact h.start rfl (fun _ => .inr rfl) hidle rfl
    | _ => exact h.start rfl .inl hidle rfl
  | @advance t choice c th hth =>
    have heffect := advanceThread_effect (hinv.pcs t) (hinv.own.stage t) hth
    refine ⟨heffect.coded h.coded, fun hscheduled => ?_⟩
    rcases advanceThread_schedules (hinv.pcs t) (hinv.own.stage t) hth hscheduled with hold | hattends
    · rcases h.attended hold with hwork | hthread
      · exact .inl (heffect.workQueued hwork)
      · by_cases hmine : (s.thr t).attends = true
        · rcases advanceThread_attends (hinv.pcs t) hth hmine hold hscheduled with hkept | hwork
          · exact .inr (exists_update_self hkept)
          · exact .inl hwork
        · exact .inr (exists_update hthread fun hattends => absurd hattends hmine)
    · exact .inr (exists_update_self hattends)

theorem WaitReach.record (h : WaitReach s) : RecordInv s := by
  refine Reach.invariant (fun s hinit => ?_) (fun _ _ _ hr hrec _ hstep => ?_) h
  · obtain ⟨hcore, -⟩ := hinit
    have hfree : waitRecordState s.core.waitState = waitFree := by
      rw [hcore]
      exact waitRecordState_word _ _ _
    exact ⟨⟨.free, hfree⟩, fun hscheduled => absurd (hfree.symm.trans hscheduled) (by decide)⟩
  · exact hrec.step (WaitReach.inv hr) hstep

/-! ### Nothing in progress -/

/-- No path is in progress, the framework owes no cancellation callback and the work item is not
queued. -/
structure Quiescent (s : WaitWorld) : Prop where
  idle : ∀ t, s.thr t = .idle
  owed : ∀ r, s.core.cancel r ≠ .owed
  work : s.core.workQueued = false

variable (hinv : WaitInv s) (hquiet : Quiescent s)
include hinv hquiet

theorem Quiescent.not_called (hslot : s.core.waitRequest = some r)
    (hhandoff : s.core.waitCancelHandoff ≠ .cancelArrived) (hstate : s.core.view.state ≠ .cancelled) :
    s.core.cancel r ≠ .called := by
  intro hcalled
  rcases hinv.own.called r hslot hcalled hhandoff hstate with ⟨t, ht⟩ | ⟨t, ht⟩
  all_goals
    rw [hquiet.idle t] at ht
    simp [WaitThread.stage, Stage.undecided, Stage.retiring] at ht

/-- With nobody at work a request is completed or published. -/
theorem Quiescent.answered (hseen : s.core.cancel r ≠ .absent) :
    s.core.completions r = 1 ∨ s.core.waitRequest = some r := by
  rcases hinv.own.answered r hseen with hdone | ⟨t, ht⟩ | ⟨hslot, -⟩
  · exact .inl hdone
  · rw [hquiet.idle t] at ht
    simp [WaitThread.stage, Stage.duty] at ht
  · exact .inr hslot

/-- With nobody at work the record is free, or it is pending with a marked request. -/
theorem Quiescent.state (hrec : RecordInv s) : s.core.view.state = .free
    ∨ (s.core.view.state = .pending ∧ ∃ r, s.core.waitRequest = some r ∧ s.core.cancel r = .marked
      ∧ s.core.completions r = 0) := by
  have hnobody : ¬ ∃ t, (s.thr t).stage.owns = true := by
    rintro ⟨t, ht⟩
    rw [hquiet.idle t] at ht
    simp [WaitThread.stage, Stage.owns] at ht
  have hscheduled : s.core.view.state ≠ .scheduled := by
    intro hstate
    rcases hrec.attended (code_of_view_state hstate (by simp)) with hwork | ⟨t, ht⟩
    · simp [hquiet.work] at hwork
    · rw [hquiet.idle t] at ht
      simp [WaitThread.attends] at ht
  cases hstate : s.core.view.state with
  | free => exact .inl rfl
  | registering => exact absurd (hinv.own.owned (.inl hstate)) hnobody
  | pending =>
    obtain ⟨r, hslot, hhandoff, hcancel, hopen, -⟩ := hinv.own.view.published (.inl hstate)
    refine .inr ⟨rfl, r, hslot, ?_, hopen⟩
    rcases hcancel with hmarked | howed | hcalled
    · exact hmarked
    · exact absurd howed (hquiet.owed r)
    · refine absurd hcalled (hquiet.not_called hinv hslot ?_ (by simp [hstate]))
      simp [show s.core.waitCancelHandoff = .none from hhandoff]
  | scheduled => exact absurd hstate hscheduled
  | unmarking =>
    rcases hinv.own.handed hstate with howner | ⟨hhandoff, r, hslot, hcancel, -⟩
    · exact absurd howner hnobody
    · rcases hcancel with howed | hcalled
      · exact absurd howed (hquiet.owed r)
      · refine absurd hcalled (hquiet.not_called hinv hslot ?_ (by simp [hstate]))
        simp [show s.core.waitCancelHandoff = .unmarkCancelled from hhandoff]
  | teardown => exact absurd (hinv.own.owned (.inr (.inl hstate))) hnobody
  | cancelled => exact absurd (hinv.own.owned (.inr (.inr hstate))) hnobody

omit hinv hquiet

/-- Once nothing is in progress, the record is `WAIT_FREE`, nothing is published and every request was
completed, or it is `WAIT_PENDING` and publishes the one marked request that was not completed. So
`begin_wait_record` refuses the next request only when a wait is pending; and a registration that did
begin finds the slot empty, in any state. -/
theorem wait_never_left_behind (h : WaitReach s) :
    (Quiescent s →
      (waitRecordState s.core.waitState = waitFree ∧ s.core.waitRequest = none
        ∧ ∀ r, s.core.cancel r ≠ .absent → s.core.completions r = 1)
      ∨ (waitRecordState s.core.waitState = waitPending ∧ ∃ r, s.core.waitRequest = some r
        ∧ s.core.cancel r = .marked ∧ s.core.completions r = 0
        ∧ ∀ q, q ≠ r → s.core.cancel q ≠ .absent → s.core.completions q = 1))
    ∧ (Quiescent s → ∀ e t r input choice,
      (handleWaitForChange e s.core t r input choice (.begin .load)).2
        = .run (.complete statusDeviceBusy) → waitRecordState s.core.waitState = waitPending)
    ∧ (∀ t r input, s.thr t = .register r input .publish → s.core.waitRequest = none) := by
  have hinv := h.inv
  have hrec := h.record
  have hfree : s.core.view.state = .free → waitRecordState s.core.waitState = waitFree := by
    intro hstate
    obtain ⟨state, hcode⟩ := hrec.coded
    rw [view_state hcode] at hstate
    rw [hcode, hstate]
    rfl
  refine ⟨fun hquiet => ?_, fun hquiet e t r input choice hbusy => ?_, fun t r input hpublish => ?_⟩
  · rcases hquiet.state hinv hrec with hstate | ⟨hstate, r, hslot, hmarked, hopen⟩
    · have hnone : s.core.waitRequest = none := (hinv.own.view.free hstate).1
      refine .inl ⟨hfree hstate, hnone, fun r hseen => ?_⟩
      exact (hquiet.answered hinv hseen).resolve_right (by simp [hnone])
    · refine .inr ⟨code_of_view_state hstate (by simp), r, hslot, hmarked, hopen, fun q hq hseen => ?_⟩
      exact (hquiet.answered hinv hseen).resolve_right (by simpa [hslot] using hq.symm)
  · rcases hquiet.state hinv hrec with hstate | ⟨hstate, -⟩
    · simp [handleWaitForChange, beginWaitRecord, call, hfree hstate] at hbusy
    · exact code_of_view_state hstate (by simp)
  · have hok := hinv.own.stage t
    rw [hpublish] at hok
    exact hok.2.1

/-- Request 7 is registered on thread 0 and nothing becomes ready. -/
def pendingWait : WaitWorld :=
  waitSystem.after (.initial openEnv) (.register 0 7 readableInput :: List.replicate 29 (.advance 0 none))

theorem quiescent_pendingWait : Quiescent pendingWait where
  idle t := by
    match t with
    | 0 => rfl
    | t + 1 => rfl
  owed r := by
    have hcancel : pendingWait.core.cancel
        = Function.update (Function.update (fun _ => .absent) 7 .unmarked) 7 .marked := rfl
    rw [hcancel]
    by_cases hr : r = 7
    · simp [hr]
    · simp [Function.update_of_ne hr]
  work := rfl

theorem wait_never_left_behind_pending : Quiescent pendingWait
    ∧ ∃ r, pendingWait.core.waitRequest = some r ∧ pendingWait.core.cancel r = .marked := by
  refine ⟨quiescent_pendingWait, ?_⟩
  rcases (wait_never_left_behind (s := pendingWait)
    (System.reach_after (waitReach_initial openEnv) _)).1 quiescent_pendingWait with
    ⟨hfree, -⟩ | ⟨-, r, hslot, hmarked, -⟩
  · exact absurd hfree (by decide +kernel)
  · exact ⟨r, hslot, hmarked⟩

end WinTap

import WinTap.Proof.Wait.Stopping

/-!
# Looking again

A registration makes its record pending before it looks at the queues again, and whoever makes a queue ready claims
the wait afterwards. So for a pending wait whose interest is ready there is a thread that is still going to find it:
the registration in its second look, or a claim that has not failed. Interest and readiness are read bit by bit: bit 0
is READABLE and bit 1 is WRITABLE.

A thread that looks goes on looking as long as the wait is pending and the bit ready. A registration looks for its own
wait only, but there is no other one: the control queue dispatches one request at a time.
-/

namespace WinTap

variable {e : Env} {c c' : Core} {t : ThreadId} {choice : Choice} {th th' : WaitThread} {m' : Ledger} {i : Nat}

/-- The record is pending, and its interest has the bit. -/
def Core.Asks (c : Core) (i : Nat) : Prop :=
  waitRecordState c.waitState = waitPending ∧ c.waitInterest.getLsbD i = true

/-- What `readiness_snapshot` finds when nothing changes meanwhile. -/
def Env.ready (e : Env) : Mask :=
  (if e.readable then adaptiveInterestReadable else 0) ||| (if e.writable then adaptiveInterestWritable else 0)

/-- The claim has not found that there is nothing to claim, and has claimed nothing. -/
def ClaimPc.looks : ClaimPc → Bool
  | .enabled | .load => true
  | .request observed | .interest observed | .exchange observed _ => waitRecordState observed = waitPending
  | .enqueue => false

/-- The snapshot has found the bit, or is going to look for it. -/
def SnapshotPc.looks (i : Nat) : SnapshotPc → Bool
  | .injection _ _ ready => (ready ||| adaptiveInterestWritable).getLsbD i
  | _ => true

def RegisterPc.looks (i : Nat) : RegisterPc → Bool
  | .resnapshot pc => pc.looks i
  | .loadCapture ready _ _ | .loadInjection ready _ _ _ => ready.getLsbD i
  | .claim condition pc => condition.getLsbD i && pc.looks
  | _ => false

/-- The thread is still going to find a pending wait that asks for the bit, if the bit is ready. -/
def WaitThread.looks (i : Nat) : WaitThread → Bool
  | .register _ _ pc => pc.looks i
  | .claim condition none pc => condition.getLsbD i && pc.looks
  | _ => false

theorem bit_and {a b : Mask} (ha : a.getLsbD i = true) (hb : b.getLsbD i = true) : (a &&& b).getLsbD i = true := by
  rw [BitVec.getLsbD_and, ha, hb]
  rfl

theorem ne_zero_of_bit {mask : Mask} (h : mask.getLsbD i = true) : mask ≠ 0 := by
  rintro rfl
  simp at h

/-! ### A thread that looks goes on -/

theorem claimWait_looks {condition : Mask} {expected : Option Request} {pc : ClaimPc} (he : e.adaptiveEnabled = true)
    (hslot : c.waitRequest ≠ none) (hexpected : expected = none ∨ c.waitRequest = expected)
    (hcondition : condition.getLsbD i = true) (hpc : pc.looks = true)
    (hasks : (claimWaitForPassiveCompletion e c t condition expected pc).1.Asks i) :
    ∃ pc', (claimWaitForPassiveCompletion e c t condition expected pc).2 = .run pc' ∧ pc'.looks = true := by
  cases pc with
  | enabled =>
    refine ⟨.load, if_neg ?_, rfl⟩
    rintro (hzero | hdisabled)
    · exact ne_zero_of_bit hcondition hzero
    · simp [he] at hdisabled
  | load => exact ⟨.request c.waitState, if_neg fun hother => hother.1 hasks.1, decide_eq_true hasks.1⟩
  | request observed =>
    refine ⟨.interest observed, if_neg ?_, hpc⟩
    rintro (hnone | ⟨hsome, hother⟩)
    · exact hslot hnone
    · exact hexpected.elim hsome hother
  | interest observed =>
    have hpending : waitRecordState observed = waitPending := of_decide_eq_true hpc
    have hsatisfied : c.waitInterest &&& condition ≠ 0 := ne_zero_of_bit (bit_and hasks.2 hcondition)
    refine ⟨.exchange observed (c.waitInterest &&& condition), (if_neg hsatisfied).trans (if_neg fun hsame => ?_), hpc⟩
    rw [← hsame, claimedWord, waitRecordState_word] at hpending
    exact absurd hpending (by decide)
  | exchange observed satisfied =>
    simp only [claimWaitForPassiveCompletion] at hasks ⊢
    split at hasks
    · have hscheduled := hasks.1
      rw [claimedWord, waitRecordState_word] at hscheduled
      exact absurd hscheduled (by decide)
    · rename_i hother
      rw [if_neg hother]
      exact ⟨.load, rfl, rfl⟩
  | enqueue => cases hpc

theorem readinessSnapshot_looks {pc : SnapshotPc} (hready : e.ready.getLsbD i = true) (hpc : pc.looks i = true) :
    (∃ pc', readinessSnapshot e pc = .run pc' ∧ pc'.looks i = true) ∨
      ∃ ready capture injection, readinessSnapshot e pc = .ret (ready, capture, injection) ∧
        ready.getLsbD i = true := by
  rw [Env.ready, BitVec.getLsbD_or, Bool.or_eq_true] at hready
  cases pc with
  | captureGeneration | injectionGeneration => exact .inl ⟨_, rfl, rfl⟩
  | capture capture injection =>
    refine .inl ⟨_, rfl, ?_⟩
    rw [SnapshotPc.looks, BitVec.getLsbD_or, Bool.or_eq_true]
    refine hready.imp_right fun hwritable => ?_
    split at hwritable
    · exact hwritable
    · exact absurd rfl (ne_zero_of_bit hwritable)
  | injection capture injection ready =>
    refine .inr ⟨_, _, _, rfl, ?_⟩
    rw [SnapshotPc.looks, BitVec.getLsbD_or, Bool.or_eq_true] at hpc
    rw [BitVec.getLsbD_or, Bool.or_eq_true]
    refine hpc.imp_right fun hbit => hready.resolve_left fun hreadable => ?_
    split at hreadable
    · -- READABLE and WRITABLE share no bit
      exact absurd (by decide) (ne_zero_of_bit (bit_and hreadable hbit))
    · exact absurd rfl (ne_zero_of_bit hreadable)

theorem handleWaitForChange_looks {r : Request} {input : WaitInput} {pc : RegisterPc} (he : e.adaptiveEnabled = true)
    (hready : e.ready.getLsbD i = true) (hslot : c.waitRequest = some r) (hinterest : c.waitInterest = input.interest)
    (hpc : pc.looks i = true) (hasks : (handleWaitForChange e c t r input choice pc).1.Asks i) :
    ∃ pc', (handleWaitForChange e c t r input choice pc).2 = .run pc' ∧ pc'.looks i = true := by
  cases pc with
  | resnapshot pc =>
    obtain ⟨pc', hrun, hlooks⟩ | ⟨ready, capture, injection, hret, hbit⟩ := readinessSnapshot_looks hready hpc
    · exact ⟨.resnapshot pc', by rw [handleWaitForChange, hrun, call_run], hlooks⟩
    · exact ⟨.loadCapture ready capture injection, by rw [handleWaitForChange, hret, call_ret], hbit⟩
  | loadCapture ready capture injection => exact ⟨_, rfl, hpc⟩
  | loadInjection ready capture injection registered =>
    have hbit : (ready &&& input.interest).getLsbD i = true := bit_and hpc (hinterest ▸ hasks.2)
    exact ⟨.claim (ready &&& input.interest) .enabled, if_pos (.inl (ne_zero_of_bit hbit)),
      (Bool.and_true _).trans hbit⟩
  | claim condition pc =>
    obtain ⟨hcondition, hlooks⟩ := Bool.and_eq_true_iff.mp hpc
    obtain ⟨pc', hrun, hnext⟩ := claimWait_looks he (by simp [hslot]) (.inr hslot) hcondition hlooks hasks
    refine ⟨.claim condition pc', ?_, Bool.and_eq_true_iff.mpr ⟨hcondition, hnext⟩⟩
    rw [handleWaitForChange, call, hrun]
  | _ => cases hpc

/-! ### Where a registration comes from -/

/-- The registration has made its record pending, and looks again. -/
def RegisterPc.rechecks : RegisterPc → Bool
  | .resnapshot _ | .loadCapture .. | .loadInjection .. | .claim .. => true
  | _ => false

/-- The registration has found adaptive polling enabled a second time, and its record is not pending yet. -/
def RegisterPc.adapted : RegisterPc → Bool
  | .recheckStarted _ | .mark | .toPending _ => true
  | _ => false

structure RegisterPc.Follows (e : Env) (pc pc' : RegisterPc) : Prop where
  rechecks : pc'.rechecks = true → pc.rechecks = true ∨ ∃ pc₁, pc = .toPending pc₁
  adapted : pc'.adapted = true → pc.adapted = true ∨ e.adaptiveEnabled = true

theorem RegisterPc.Follows.stay {pc pc' : RegisterPc} (h : pc'.rechecks = true → pc.rechecks = true)
    (h' : pc'.adapted = true → pc.adapted = true) : pc.Follows e pc' :=
  ⟨fun hpc => .inl (h hpc), fun hpc => .inl (h' hpc)⟩

theorem handleWaitForChange_follows (e : Env) (c : Core) (t : ThreadId) (choice : Choice) (r : Request)
    (input : WaitInput) (pc : RegisterPc) :
    (handleWaitForChange e c t r input choice pc).2.Running (pc.Follows e) := by
  cases pc with
  | toPending pc =>
    refine Flow.running_call (fun _ => .stay id id) fun value => ?_
    repeat' split
    all_goals exact ⟨fun _ => .inr ⟨_, rfl⟩, fun h => by cases h⟩
  | recheckAdaptive =>
    simp only [handleWaitForChange]
    split
    · exact .stay (fun h => by cases h) (fun h => by cases h)
    · rename_i hadaptive
      exact ⟨(fun h => by cases h), fun _ => .inr (by simpa using hadaptive)⟩
  | started | «begin» | toUnmarking | finish | resnapshot | snapshot | claim | unmark | recheckStarted =>
    refine Flow.running_call (fun _ => .stay id id) fun value => ?_
    repeat' split
    all_goals first | trivial | exact .stay (by simp [RegisterPc.rechecks]) (by simp [RegisterPc.adapted])
  | _ =>
    simp only [handleWaitForChange]
    repeat' split
    all_goals first | trivial | exact .stay (by simp [RegisterPc.rechecks]) (by simp [RegisterPc.adapted])

/-- A record that is pending was pending before the step, or a registration has just made it so. -/
theorem Effect.pending_from (h : Effect t c.ledger th m') (hx : StageOk c.view th.stage)
    (hpending : waitRecordState m'.word = waitPending) :
    m'.slot = c.waitRequest ∧ m'.interest = c.waitInterest ∧
      (waitRecordState c.waitState = waitPending ∨ ∃ r, th.stage = .marked r) := by
  have howner : th.stage.owns = true → waitRecordState c.waitState ≠ waitPending :=
    fun hown hstate => (hx.not_open hown).2 (.inl hstate)
  cases h with
  | «begin» | retire | claim =>
    simp only [claimedWord, waitRecordState_word] at hpending
    exact absurd hpending (by decide)
  | publish q hstage | unpublish q completes hstage => exact absurd hpending (howner (by rw [hstage]; rfl))
  | interest interest hown => exact absurd hpending (howner hown)
  | pend r hstage => exact ⟨rfl, rfl, .inr ⟨r, hstage⟩⟩
  | shift target hshift =>
    rw [waitRecordState_shifted] at hpending
    exact absurd hpending hshift.source_ne_free.2.2.1
  | _ => exact ⟨rfl, rfl, .inl hpending⟩

/-! ### Whose wait a registration looks for -/

/-- A record that is pending while the registration looks again is its own. -/
def WaitThread.Mine (c : Core) : WaitThread → Prop
  | .register r input pc => pc.rechecks = true → waitRecordState c.waitState = waitPending →
      c.waitRequest = some r ∧ c.waitInterest = input.interest
  | _ => True

def WaitThread.adapted : WaitThread → Bool
  | .register _ _ pc => pc.adapted
  | _ => false

/-- What a step of a thread does to the wait that others look for. -/
structure Tends (e : Env) (c : Core) (th : WaitThread) (c' : Core) (th' : WaitThread) : Prop where
  pending : waitRecordState c'.waitState = waitPending →
    c'.waitRequest = c.waitRequest ∧ c'.waitInterest = c.waitInterest ∧
      (waitRecordState c.waitState = waitPending ∨ ∃ r, th.stage = .marked r)
  mine : th'.Mine c'
  adapted : th'.adapted = true → th.adapted = true ∨ e.adaptiveEnabled = true
  /-- A wait that asks for the bit has just become pending and its thread looks, or it asked before; and then a thread
  that was looking for a ready bit still looks. -/
  looks : ∀ i, c'.Asks i → th'.looks i = true ∨
    c.Asks i ∧ (th.looks i = true → e.ready.getLsbD i = true → th'.looks i = true)

/-- A step that leaves the record alone, with its thread as it was or just started. -/
theorem Tends.quiet (hword : c'.waitState = c.waitState) (hslot : c'.waitRequest = c.waitRequest)
    (hinterest : c'.waitInterest = c.waitInterest)
    (hth : th' = th ∧ th.Mine c ∨ th = .idle ∧ th'.Mine c' ∧ th'.adapted = false) : Tends e c th c' th' := by
  have hasks : ∀ i, c'.Asks i → c.Asks i := fun i => by simp only [Core.Asks, hword, hinterest, imp_self]
  obtain ⟨rfl, hmine⟩ | ⟨rfl, hmine, hadapted⟩ := hth
  · refine ⟨fun h => ⟨hslot, hinterest, .inl (hword ▸ h)⟩, ?_, .inl, fun i h => .inr ⟨hasks i h, fun hat _ => hat⟩⟩
    cases th' with
    | register r input pc => simpa only [WaitThread.Mine, hword, hslot, hinterest] using hmine
    | _ => trivial
  · exact ⟨fun h => ⟨hslot, hinterest, .inl (hword ▸ h)⟩, hmine, fun h => by simp [hadapted] at h,
      fun i h => .inr ⟨hasks i h, nofun⟩⟩

theorem advanceThread_looks (hok : StageOk c.view th.stage) (hview : ViewOk c.view) (hmine : th.Mine c)
    (he : waitRecordState c.waitState = waitPending → e.adaptiveEnabled = true)
    (hstep : advanceThread e c t choice th = some (c', th')) (hpending : waitRecordState c.waitState = waitPending)
    (hasks : c'.Asks i) (hlooks : th.looks i = true) (hready : e.ready.getLsbD i = true) : th'.looks i = true := by
  cases th with
  | register r input pc =>
    obtain ⟨rfl, rfl⟩ := Prod.mk.inj (Option.some.inj hstep)
    have hrechecks : pc.rechecks = true := by cases pc <;> first | rfl | cases hlooks
    obtain ⟨hslot, hwants⟩ := hmine hrechecks hpending
    obtain ⟨pc', hrun, hnext⟩ := handleWaitForChange_looks (he hpending) hready hslot hwants hlooks hasks
    rw [hrun]
    exact hnext
  | claim condition expected pc =>
    obtain ⟨rfl, rfl⟩ := Prod.mk.inj (Option.some.inj hstep)
    cases expected with
    | some q => cases hlooks
    | none =>
      obtain ⟨hcondition, hclaim⟩ := Bool.and_eq_true_iff.mp hlooks
      obtain ⟨q, hslot, -⟩ := hview.published (.inl (view_state hpending))
      have hpublished : c.waitRequest ≠ none := by simp [show c.waitRequest = some q from hslot]
      obtain ⟨pc', hrun, hnext⟩ := claimWait_looks (he hpending) hpublished (.inl rfl) hcondition hclaim hasks
      rw [hrun]
      exact Bool.and_eq_true_iff.mpr ⟨hcondition, hnext⟩
  | _ => cases hlooks

/-- A registration that has just made its record pending looks again. -/
theorem advanceThread_pends {r : Request} (hpc : th.PcOk) (hok : StageOk c.view th.stage)
    (hmarked : th.stage = .marked r) (hstep : advanceThread e c t choice th = some (c', th'))
    (hpending : waitRecordState c'.waitState = waitPending) : th'.looks i = true := by
  obtain ⟨input, pc, rfl⟩ := WaitThread.eq_of_marked hmarked
  have hunpended : waitRecordState c.waitState ≠ waitPending := fun hstate => (hok.not_open rfl).2 (.inl hstate)
  obtain ⟨rfl, rfl⟩ := Prod.mk.inj (Option.some.inj hstep)
  obtain ⟨pc', -, heq⟩ | ⟨-, heq⟩ | ⟨-, heq⟩ := transitionWaitRecord_cases c waitRegistering waitPending pc hpc
  · rw [handleWaitForChange, heq, call_run] at hpending
    exact absurd hpending hunpended
  · rw [handleWaitForChange, heq, call_ret] at hpending
    exact absurd hpending hunpended
  · rw [handleWaitForChange, heq, call_ret]
    rfl

theorem advanceThread_tends (hpc : th.PcOk) (hok : StageOk c.view th.stage) (hview : ViewOk c.view)
    (hask : th.AskOk c.ledger) (hmine : th.Mine c)
    (he : waitRecordState c.waitState = waitPending → e.adaptiveEnabled = true)
    (hstep : advanceThread e c t choice th = some (c', th')) : Tends e c th c' th' := by
  have hfrom := (advanceThread_effect hpc hok hstep).pending_from hok
  have hlooks : ∀ i, c'.Asks i → th'.looks i = true ∨
      c.Asks i ∧ (th.looks i = true → e.ready.getLsbD i = true → th'.looks i = true) := by
    intro i hasks
    obtain ⟨-, hinterest, hpending | ⟨r, hmarked⟩⟩ := hfrom hasks.1
    · refine .inr ⟨⟨hpending, ?_⟩, advanceThread_looks hok hview hmine he hstep hpending hasks⟩
      rw [← hinterest]
      exact hasks.2
    · exact .inl (advanceThread_pends hpc hok hmarked hstep hasks.1)
  cases th' with
  | register r input pc' =>
    obtain ⟨pc, rfl, hroutine⟩ := advanceThread_register hstep
    have hfollows := handleWaitForChange_follows e c t choice r input pc
    rw [hroutine] at hfollows
    refine ⟨hfrom, fun hrechecks hpending => ?_, hfollows.adapted, hlooks⟩
    obtain ⟨hslot, hinterest, hbefore⟩ := hfrom hpending
    rw [show c'.waitRequest = _ from hslot, show c'.waitInterest = _ from hinterest]
    obtain hchecked | ⟨pc₁, rfl⟩ := hfollows.rechecks hrechecks
    · refine hmine hchecked (hbefore.resolve_right ?_)
      rintro ⟨q, hmarked⟩
      obtain ⟨_, _, heq⟩ := WaitThread.eq_of_marked hmarked
      cases heq
      cases hchecked
    · exact ⟨hok.2.1, hask.2 rfl⟩
  | _ => exact ⟨hfrom, trivial, nofun, hlooks⟩

end WinTap

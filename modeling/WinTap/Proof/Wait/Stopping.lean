import WinTap.Proof.Wait.Quiescence
import WinTap.Proof.Wait.Sequence

/-!
# A closed gate keeps waits out

Three conditions let a registration through: the TX queue is started, if the interest asks for readable, the RX
queue is started, if it asks for writable, and the lifecycle is open. Each is a `Gate`. A registration looks at
every gate again once it has published its request, so a wait can get past a shut gate only if its registration
looked before the gate was shut. The record is `Cold` for a gate when no such wait is left. While the gate is shut
a cold record stays cold, and teardown returns only after a moment at which the record was cold.
-/

namespace WinTap

open Machine

variable {pc : RegisterPc} {a : WaitAction} {g : Gate}
variable {s s' : WaitWorld} {c c' : Core} {t : ThreadId} {th th' : WaitThread} {m m' : Ledger}

/-! ### The interest of a registration -/

/-- The registration has stored its interest and still owns the record. -/
def RegisterPc.asked : RegisterPc → Bool
  | .storeCapture .. | .storeInjection _ | .storeHandoff | .recheckLifecycle | .recheckAdaptive
  | .recheckStarted _ | .mark | .toPending _ => true
  | _ => false

/-- A registration serves a dispatched request, and what it stored is the interest of that request. -/
def WaitThread.AskOk (m : Ledger) : WaitThread → Prop
  | .register r input pc => .dispatch r input.interest ∈ m.calls ∧ (pc.asked = true → m.interest = input.interest)
  | _ => True

/-- The interest of an open record is the one its request was dispatched with. -/
structure AskInv (s : WaitWorld) : Prop where
  threads : ∀ t, (s.thr t).AskOk s.core.ledger
  opened : Open s.core.waitState →
    ∃ r, s.core.waitRequest = some r ∧ .dispatch r s.core.waitInterest ∈ s.core.calls

theorem RegisterPc.owns_of_asked (h : pc.asked = true) (r : Request) : (pc.stage r).owns = true := by
  cases pc <;> first | rfl | cases h

theorem WaitThread.AskOk.other (hth : th'.AskOk c.ledger) (hok' : StageOk c.view th'.stage)
    (heffect : Effect t c.ledger th m') (hap : Apart th.stage th'.stage) : th'.AskOk m' := by
  cases th' with
  | register r input pc =>
    refine ⟨heffect.calls _ hth.1, fun hasked => ?_⟩
    have hown := pc.owns_of_asked hasked r
    obtain ⟨hfree, hopen⟩ := hok'.not_open hown
    have hguest : th.stage.owns = false := Bool.eq_false_iff.mpr fun hmine => hap.owner hmine hown
    exact (heffect.framed hguest hfree hopen).interest.trans (hth.2 hasked)
  | _ => trivial

section
variable (e : Env) (c : Core) (t : ThreadId) (choice : Choice)

theorem handleWaitForChange_asked (r : Request) (input : WaitInput) (pc : RegisterPc) :
    (handleWaitForChange e c t r input choice pc).2.Running fun pc' => pc'.asked = true →
      pc.asked = true ∨ ∃ capture injection, pc = .storeInterest capture injection := by
  cases pc with
  | storeInterest capture injection => exact fun _ => .inr ⟨_, _, rfl⟩
  | storeCapture | storeInjection | storeHandoff => exact fun _ => .inl rfl
  | recheckLifecycle | recheckAdaptive | mark =>
    simp only [handleWaitForChange]
    repeat' split
    all_goals exact fun _ => .inl rfl
  | recheckStarted pc | toPending pc =>
    refine Flow.running_call (fun _ _ => .inl rfl) fun value => ?_
    repeat' split
    all_goals exact fun _ => .inl rfl
  | validate | lifecycle | adaptive | publish | loadInjection =>
    simp only [handleWaitForChange]
    split <;> first | trivial | exact fun h => by cases h
  | loadCapture | complete => first | trivial | exact fun h => by cases h
  | started | «begin» | toUnmarking | finish | resnapshot | snapshot | claim | unmark =>
    refine Flow.running_call (fun _ h => by cases h) fun value => ?_
    repeat' split
    all_goals first | trivial | exact fun h => by cases h

theorem handleWaitForChange_interest (r : Request) (input : WaitInput) (hasked : pc.asked = true) :
    (handleWaitForChange e c t r input choice pc).1.waitInterest = c.waitInterest := by
  cases pc with
  | mark =>
    simp only [handleWaitForChange, markCancelableEx]
    repeat' split
    all_goals rfl
  | toPending pc =>
    cases pc with
    | load =>
      simp only [handleWaitForChange, transitionWaitRecord, call]
      split <;> rfl
    | exchange observed =>
      simp only [handleWaitForChange, transitionWaitRecord, call]
      split <;> rfl
  | storeCapture | storeInjection | storeHandoff | recheckLifecycle | recheckAdaptive | recheckStarted => rfl
  | _ => cases hasked

end

variable {e : Env} {choice : Choice}

theorem advanceThread_register {r : Request} {input : WaitInput} {pc' : RegisterPc}
    (hstep : advanceThread e c t choice th = some (c', .register r input pc')) :
    ∃ pc, th = .register r input pc ∧ handleWaitForChange e c t r input choice pc = (c', .run pc') := by
  cases th with
  | idle => simp [advanceThread] at hstep
  | register q input' pc =>
    obtain ⟨hcore, hthread⟩ := Prod.mk.inj (Option.some.inj hstep)
    cases hflow : (handleWaitForChange e c t q input' choice pc).2 with
    | run pc₁ =>
      rw [hflow] at hthread
      cases hthread
      exact ⟨pc, rfl, Prod.ext hcore hflow⟩
    | ret value =>
      rw [hflow] at hthread
      cases hthread
  | worker pc =>
    obtain ⟨-, hthread⟩ := Prod.mk.inj (Option.some.inj hstep)
    cases hflow : (workerRound e c choice pc).2 with
    | run pc₁ =>
      rw [hflow] at hthread
      cases hthread
    | ret took =>
      rw [hflow] at hthread
      cases took <;> cases hthread
  | cancel | workerRest | teardown | claim =>
    obtain ⟨-, hthread⟩ := Prod.mk.inj (Option.some.inj hstep)
    split at hthread <;> cases hthread

theorem advanceThread_ask (hpc : th.PcOk) (hok : StageOk c.view th.stage) (hth : th.AskOk c.ledger)
    (hstep : advanceThread e c t choice th = some (c', th')) : th'.AskOk c'.ledger := by
  cases th' with
  | register r input pc' =>
    have hcalls := (advanceThread_effect hpc hok hstep).calls
    obtain ⟨pc, rfl, hroutine⟩ := advanceThread_register hstep
    have hnext := handleWaitForChange_asked e c t choice r input pc
    refine ⟨hcalls _ hth.1, fun hasked => ?_⟩
    rw [hroutine] at hnext
    obtain hbefore | ⟨capture, injection, rfl⟩ := hnext hasked
    · have hinterest := handleWaitForChange_interest e c t choice r input hbefore
      rw [hroutine] at hinterest
      exact hinterest.trans (hth.2 hbefore)
    · cases hroutine
      rfl
  | _ => trivial

theorem Effect.asked_opened (h : Effect t c.ledger th m') (hx : StageOk c.view th.stage)
    (hth : th.AskOk c.ledger)
    (hopened : Open c.waitState → ∃ r, c.waitRequest = some r ∧ .dispatch r c.waitInterest ∈ c.calls)
    (hopen : Open m'.word) : ∃ r, m'.slot = some r ∧ .dispatch r m'.interest ∈ m'.calls := by
  have howner : th.stage.owns = true → ¬Open c.waitState := fun hown => (hx.not_open hown).2
  cases h with
  | quiet => exact hopened hopen
  | note | respond | enqueue =>
    obtain ⟨r, hslot, hasked⟩ := hopened hopen
    exact ⟨r, hslot, List.mem_cons_of_mem _ hasked⟩
  | «begin» | retire =>
    unfold Open at hopen
    rw [waitRecordState_word] at hopen
    exact absurd hopen (by decide)
  | publish q hstage | unpublish q completes hstage =>
    exact absurd hopen (howner (by rw [hstage]; rfl))
  | interest interest hown => exact absurd hopen (howner hown)
  | pend q hstage hstate =>
    obtain ⟨input, pc, rfl⟩ := WaitThread.eq_of_marked hstage
    refine ⟨q, hx.2.1, ?_⟩
    change .dispatch q c.waitInterest ∈ c.calls
    rw [show c.waitInterest = input.interest from hth.2 rfl]
    exact hth.1
  | shift target hshift =>
    unfold Open at hopen
    rw [waitRecordState_shifted] at hopen
    obtain ⟨-, -, hpending, hscheduled, -⟩ := hshift.source_ne_free
    exact absurd hopen (by simp [hpending, hscheduled])
  | claim bits hexchange hstate =>
    obtain ⟨r, hslot, hasked⟩ := hopened hstate
    exact ⟨r, hslot, List.mem_cons_of_mem _ hasked⟩

/-- A thread at its first operation. -/
def WaitThread.Fresh (calls : List Call) : WaitThread → Prop
  | .register r input pc => pc = .validate ∧ .dispatch r input.interest ∈ calls
  | _ => True

/-- A step outside the routines leaves the record alone, and starts a thread at most. -/
structure Starts (s s' : WaitWorld) : Prop where
  word : s'.core.waitState = s.core.waitState
  interest : s'.core.waitInterest = s.core.waitInterest
  slot : s'.core.waitRequest = s.core.waitRequest
  calls : ∀ call ∈ s.core.calls, call ∈ s'.core.calls
  threads : ∀ u, s'.thr u = s.thr u ∨ (s'.thr u).Fresh s'.core.calls

theorem stepWait_starts (hstep : stepWait s a = some s') :
    Starts s s' ∨ ∃ t choice c' th', advanceThread s.env s.core t choice (s.thr t) = some (c', th') ∧
      s'.core = c' ∧ s'.thr = Function.update s.thr t th' := by
  have hupdate : ∀ {t x} {calls : List Call}, x.Fresh calls → ∀ u,
      Function.update s.thr t x u = s.thr u ∨ (Function.update s.thr t x u).Fresh calls := by
    intro t x calls hx u
    by_cases hu : u = t
    · subst hu
      exact .inr (by rwa [Function.update_self])
    · exact .inl (Function.update_of_ne hu _ _)
  cases stepWait_cases hstep with
  | environment | queueWork | owe => exact .inl ⟨rfl, rfl, rfl, fun _ => id, fun _ => .inl rfl⟩
  | start lock hidle hstart =>
    cases hstart with
    | register => exact .inl ⟨rfl, rfl, rfl, fun _ => List.mem_cons_of_mem _, hupdate ⟨rfl, List.mem_cons_self⟩⟩
    | _ => exact .inl ⟨rfl, rfl, rfl, fun _ => id, hupdate trivial⟩
  | advance hth => exact .inr ⟨_, _, _, _, hth, rfl, rfl⟩

theorem AskInv.step (h : AskInv s) (hinv : WaitInv s) (hstep : stepWait s a = some s') : AskInv s' := by
  obtain hstarts | ⟨t, choice, c', th', hth, hcore, hthr⟩ := stepWait_starts hstep
  · refine ⟨fun u => ?_, fun hopen => ?_⟩
    · obtain hsame | hfresh := hstarts.threads u
      · have hu := h.threads u
        rw [← hsame] at hu
        cases hth : s'.thr u with
        | register r input pc =>
          rw [hth] at hu
          exact ⟨hstarts.calls _ hu.1, fun hasked => hstarts.interest.trans (hu.2 hasked)⟩
        | _ => trivial
      · cases hth : s'.thr u with
        | register r input pc =>
          rw [hth] at hfresh
          obtain ⟨rfl, hasked⟩ := hfresh
          exact ⟨hasked, fun hno => by cases hno⟩
        | _ => trivial
    · rw [hstarts.word] at hopen
      obtain ⟨r, hslot, hasked⟩ := h.opened hopen
      rw [hstarts.slot, hstarts.interest]
      exact ⟨r, hslot, hstarts.calls _ hasked⟩
  · have heffect := advanceThread_effect (hinv.pcs t) (hinv.own.stage t) hth
    refine ⟨fun u => ?_, fun hopen => ?_⟩
    · rw [hthr, hcore]
      by_cases hu : u = t
      · subst hu
        rw [Function.update_self]
        exact advanceThread_ask (hinv.pcs u) (hinv.own.stage u) (h.threads u) hth
      · rw [Function.update_of_ne hu]
        exact (h.threads u).other (hinv.own.stage u) heffect (hinv.own.apart t u (Ne.symm hu))
    · rw [hcore] at hopen ⊢
      exact heffect.asked_opened (hinv.own.stage t) (h.threads t) h.opened hopen

theorem WaitReach.asks (h : WaitReach s) : AskInv s := by
  refine Reach.invariant (fun s hinit => ?_) (fun _ _ _ hr hask _ hstep => ?_) h
  · obtain ⟨hcore, -, hidle⟩ := hinit
    refine ⟨fun t => ?_, fun hopen => ?_⟩
    · rw [hidle t]
      trivial
    · rw [hcore] at hopen
      exact absurd hopen (by unfold Open; decide)
  · exact hask.step (WaitReach.inv hr) hstep

/-! ### Gates -/

/-- What a registration has to find open. -/
inductive Gate where
  | transmit
  | receive
  | lifecycle
  deriving DecidableEq, Repr

namespace Gate

def shut (e : Env) : Gate → Bool
  | .transmit => !e.txQueueStarted
  | .receive => !e.rxQueueStarted
  | .lifecycle => e.lifecycle ≠ .instanceOpen

/-- The interest asks for something behind the gate. -/
def concerns (interest : Mask) : Gate → Bool
  | .transmit => interest &&& adaptiveInterestReadable ≠ 0
  | .receive => interest &&& adaptiveInterestWritable ≠ 0
  | .lifecycle => true

/-- The registration looked at the gate a second time, found it open and has not made its record pending. -/
def passed : Gate → RegisterPc → Bool
  | .transmit, .recheckStarted (.rx true) | .lifecycle, .recheckAdaptive | .lifecycle, .recheckStarted _ => true
  | _, .mark | _, .toPending _ => true
  | _, _ => false

end Gate

/-- A registration that is past the gate, for a wait that asks for something behind it. -/
def WaitThread.passes (g : Gate) : WaitThread → Bool
  | .register _ input pc => g.concerns input.interest && g.passed pc
  | _ => false

/-- No wait that asks for something behind the gate is open, or can become open without looking at the gate. -/
structure Cold (g : Gate) (s : WaitWorld) : Prop where
  opened : Open s.core.waitState → g.concerns s.core.waitInterest = false
  registering : waitRecordState s.core.waitState = waitRegistering → ∀ t, (s.thr t).passes g = false

theorem Gate.asked_of_passed (h : g.passed pc = true) : pc.asked = true := by
  cases g <;> cases pc <;> first | rfl | cases h

theorem handleWaitForChange_passed (c : Core) (t : ThreadId) (choice : Choice) (hshut : g.shut e = true) (r : Request)
    (input : WaitInput) (hconcerns : g.concerns input.interest = true) (pc : RegisterPc) :
    (handleWaitForChange e c t r input choice pc).2.Running fun pc' => g.passed pc' = true → g.passed pc = true := by
  by_cases hbefore : pc.asked = false
  · have hasked := handleWaitForChange_asked e c t choice r input pc
    cases hflow : (handleWaitForChange e c t r input choice pc).2 with
    | run pc' =>
      intro hpassed
      rw [hflow] at hasked
      obtain hafter | ⟨capture, injection, rfl⟩ := hasked (Gate.asked_of_passed hpassed)
      · rw [hbefore] at hafter
        cases hafter
      · cases hflow
        cases g <;> cases hpassed
    | ret value => trivial
  cases pc with
  | recheckLifecycle =>
    cases g <;> simp only [handleWaitForChange]
    case lifecycle =>
      rw [if_pos (by simpa [Gate.shut] using hshut)]
      exact fun h => by cases h
    all_goals split <;> exact fun h => by cases h
  | recheckAdaptive =>
    cases g <;> simp only [handleWaitForChange] <;> split
    all_goals first | exact fun _ => rfl | exact fun h => by cases h
  | recheckStarted pc =>
    cases pc with
    | tx =>
      cases g
      case transmit =>
        have hstarted : (decide (input.interest &&& adaptiveInterestReadable = 0) || e.txQueueStarted) = false := by
          simpa [Gate.shut, Gate.concerns, and_comm] using And.intro hshut hconcerns
        simp only [handleWaitForChange, waitInterestQueuesStarted, hstarted]
        exact fun h => by cases h
      case receive => exact fun h => by cases h
      case lifecycle => exact fun _ => rfl
    | rx readableStarted =>
      simp only [handleWaitForChange, waitInterestQueuesStarted, call_ret]
      cases g
      case transmit =>
        cases readableStarted
        · exact fun h => by cases h
        · exact (by split <;> exact fun _ => rfl)
      case receive =>
        have hstarted : (decide (input.interest &&& adaptiveInterestWritable = 0) || e.rxQueueStarted) = false := by
          simpa [Gate.shut, Gate.concerns, and_comm] using And.intro hshut hconcerns
        rw [hstarted, Bool.and_false, if_neg Bool.false_ne_true]
        exact fun h => by cases h
      case lifecycle => split <;> exact fun _ => rfl
  | mark =>
    simp only [handleWaitForChange]
    repeat' split
    all_goals cases g <;> exact fun _ => rfl
  | toPending pc =>
    have hpassed : g.passed (.toPending pc) = true := by cases g <;> rfl
    refine Flow.running_call (fun _ _ => hpassed) fun value => ?_
    repeat' split
    all_goals exact fun _ => hpassed
  | storeCapture | storeInjection | storeHandoff => cases g <;> exact fun h => by cases h
  | _ => exact absurd rfl hbefore

theorem advanceThread_passes (hshut : g.shut e = true) (hstep : advanceThread e c t choice th = some (c', th'))
    (hpasses : th'.passes g = true) : th.passes g = true := by
  cases th' with
  | register r input pc' =>
    obtain ⟨hconcerns, hpassed⟩ := Bool.and_eq_true_iff.mp hpasses
    obtain ⟨pc, rfl, hroutine⟩ := advanceThread_register hstep
    have hnext := handleWaitForChange_passed c t choice hshut r input hconcerns pc
    rw [hroutine] at hnext
    exact Bool.and_eq_true_iff.mpr ⟨hconcerns, hnext hpassed⟩
  | _ => cases hpasses

/-- A registration past a gate owns the record, with its request in the slot. -/
theorem WaitThread.owns_of_passes (h : th.passes g = true) : ∃ r, th.stage = .published r ∨ th.stage = .marked r := by
  cases th with
  | register r input pc =>
    have hpassed := (Bool.and_eq_true_iff.mp h).2
    refine ⟨r, ?_⟩
    cases g <;> cases pc <;> first | exact .inl rfl | exact .inr rfl | cases hpassed
  | _ => cases h

/-- An open record was open before the step, or a registration has just made it pending. -/
theorem Effect.opened_from (h : Effect t c.ledger th m') (hx : StageOk c.view th.stage) (hopen : Open m'.word) :
    m'.interest = c.waitInterest ∧ (Open c.waitState ∨
      waitRecordState c.waitState = waitRegistering ∧ ∃ r, th.stage = .marked r) := by
  cases h with
  | «begin» | retire =>
    unfold Open at hopen
    rw [waitRecordState_word] at hopen
    exact absurd hopen (by decide)
  | interest interest hown => exact absurd hopen (hx.not_open hown).2
  | pend r hstage hstate => exact ⟨rfl, .inr ⟨hstate, r, hstage⟩⟩
  | shift target hshift =>
    unfold Open at hopen
    rw [waitRecordState_shifted] at hopen
    obtain ⟨-, -, hpending, hscheduled, -⟩ := hshift.source_ne_free
    exact absurd hopen (by simp [hpending, hscheduled])
  | claim bits hexchange hstate => exact ⟨rfl, .inl hstate⟩
  | _ => exact ⟨rfl, .inl hopen⟩

theorem Effect.registering_from (h : Effect t m th m') (hreg : waitRecordState m'.word = waitRegistering) :
    waitRecordState m.word = waitRegistering ∨ waitRecordState m.word = waitFree := by
  cases h with
  | «begin» r hstage hstate => exact .inr hstate
  | retire =>
    rw [waitRecordState_word] at hreg
    exact absurd hreg (by decide)
  | pend =>
    rw [waitRecordState_shifted] at hreg
    exact absurd hreg (by decide)
  | claim =>
    rw [claimedWord, waitRecordState_word] at hreg
    exact absurd hreg (by decide)
  | shift target hshift =>
    rw [waitRecordState_shifted] at hreg
    subst hreg
    rcases hshift with ⟨-, h | h⟩ | ⟨-, h | h⟩ | ⟨-, h | h⟩ <;> exact absurd h (by decide)
  | _ => exact .inl hreg

theorem Cold.advance (h : Cold g s) (hinv : WaitInv s) (hask : AskInv s) (hshut : g.shut s.env = true)
    (hstep : advanceThread s.env s.core t choice (s.thr t) = some (c', th')) (hcore : s'.core = c')
    (hthr : s'.thr = Function.update s.thr t th') : Cold g s' := by
  have heffect := advanceThread_effect (hinv.pcs t) (hinv.own.stage t) hstep
  subst hcore
  refine ⟨fun hopen => ?_, fun hreg u => Bool.eq_false_iff.mpr fun hu => ?_⟩
  · obtain ⟨hinterest, hbefore | ⟨hstate, r, hmarked⟩⟩ := heffect.opened_from (hinv.own.stage t) hopen
    · rw [show s'.core.waitInterest = s.core.waitInterest from hinterest]
      exact h.opened hbefore
    · -- the registration that makes the record pending is past every gate
      obtain ⟨input, pc, hregister⟩ := WaitThread.eq_of_marked hmarked
      have hcold := h.registering hstate t
      have hasked := hask.threads t
      rw [hregister] at hcold hasked
      rw [show s'.core.waitInterest = s.core.waitInterest from hinterest,
        show s.core.waitInterest = input.interest from hasked.2 rfl]
      cases g <;> exact (Bool.and_true _).symm.trans hcold
  · have hbefore : (s.thr u).passes g = true := by
      rw [hthr] at hu
      by_cases hut : u = t
      · subst hut
        rw [Function.update_self] at hu
        exact advanceThread_passes hshut hstep hu
      · rwa [Function.update_of_ne hut] at hu
    obtain hstate | hstate := heffect.registering_from hreg
    · rw [h.registering hstate u] at hbefore
      cases hbefore
    · obtain ⟨r, hstage⟩ := WaitThread.owns_of_passes hbefore
      have hown : (s.thr u).stage.owns = true := by
        rcases hstage with hstage | hstage <;> rw [hstage] <;> rfl
      exact (StageOk.not_open (hinv.own.stage u) hown).1 hstate

theorem Cold.step (h : Cold g s) (hinv : WaitInv s) (hask : AskInv s) (hshut : g.shut s.env = true)
    (hstep : stepWait s a = some s') : Cold g s' := by
  obtain hstarts | ⟨t, choice, c', th', hth, hcore, hthr⟩ := stepWait_starts hstep
  · refine ⟨fun hopen => ?_, fun hreg u => ?_⟩
    · rw [hstarts.interest]
      exact h.opened (hstarts.word ▸ hopen)
    · obtain hsame | hfresh := hstarts.threads u
      · rw [hsame]
        exact h.registering (hstarts.word ▸ hreg) u
      · cases hth : s'.thr u with
        | register r input pc =>
          rw [hth] at hfresh
          obtain ⟨rfl, -⟩ := hfresh
          cases g <;> simp [WaitThread.passes, Gate.passed]
        | _ => rfl
  · exact h.advance hinv hask hshut hth hcore hthr

/-! ### Teardown -/

/-- Teardown has not got hold of a record. -/
def TeardownPc.searching : TeardownPc → Bool
  | .load | .request _ | .transition .. => true
  | _ => false

/-- Teardown goes on searching, or leaves a record that is neither open nor registering, or finds the slot
empty. -/
theorem cancelWaitRequestForTeardown_search (c : Core) (choice : Choice) {pc : TeardownPc} (hpc : pc.Ok)
    (hsearching : pc.searching = true) :
    (∃ pc', (cancelWaitRequestForTeardown c none choice pc).2 = .run pc' ∧ pc'.searching = true) ∨
    (¬Open (cancelWaitRequestForTeardown c none choice pc).1.waitState ∧
      waitRecordState (cancelWaitRequestForTeardown c none choice pc).1.waitState ≠ waitRegistering) ∨
    (cancelWaitRequestForTeardown c none choice pc).1 = c ∧ c.waitRequest = none := by
  cases pc with
  | load =>
    simp only [cancelWaitRequestForTeardown]
    split
    · exact .inl ⟨_, rfl, rfl⟩
    · rename_i hstate
      simp only [not_or] at hstate
      exact .inr (.inl ⟨fun hopen => hopen.elim hstate.2.1 hstate.2.2, hstate.1⟩)
  | request observed =>
    simp only [cancelWaitRequestForTeardown]
    split
    · exact .inl ⟨_, rfl, rfl⟩
    · split
      · rename_i hnone
        exact .inr (.inr ⟨trivial, hnone.resolve_right (by simp)⟩)
      · exact .inl ⟨_, rfl, rfl⟩
  | transition observed pc =>
    have htarget : ∀ word, waitRecordState word = (if observed = waitRegistering then waitTeardown else waitUnmarking) →
        ¬Open word ∧ waitRecordState word ≠ waitRegistering := by
      intro word hword
      unfold Open
      rw [hword]
      split <;> decide
    obtain ⟨pc', -, heq⟩ | ⟨-, heq⟩ | ⟨-, heq⟩ := transitionWaitRecord_cases c observed
      (if observed = waitRegistering then waitTeardown else waitUnmarking) pc hpc.1
    · simp only [cancelWaitRequestForTeardown, heq, call_run]
      exact .inl ⟨_, rfl, rfl⟩
    · simp only [cancelWaitRequestForTeardown, heq, call_ret]
      exact .inl ⟨_, rfl, rfl⟩
    · simp only [cancelWaitRequestForTeardown, heq, call_ret]
      exact .inr (.inl (htarget _ (waitRecordState_shifted _ _)))
  | _ => cases hsearching

theorem teardown_cold (g : Gate) (hinv : WaitInv s) {pc : TeardownPc} (hsearching : pc.searching = true)
    (hthr : s.thr t = .teardown none pc)
    (hstep : advanceThread s.env s.core t choice (s.thr t) = some (c', th')) (hcore : s'.core = c')
    (hthr' : s'.thr = Function.update s.thr t th') :
    (∃ pc' : TeardownPc, pc'.searching = true ∧ th' = .teardown none pc') ∨ Cold g s' := by
  have hpc : pc.Ok := by
    have hpcs := hinv.pcs t
    rwa [hthr] at hpcs
  rw [hthr] at hstep
  obtain ⟨rfl, rfl⟩ := Prod.mk.inj (Option.some.inj hstep)
  obtain ⟨pc', hrun, hnext⟩ | ⟨hopen, hreg⟩ | ⟨hsame, hnone⟩ :=
    cancelWaitRequestForTeardown_search s.core choice hpc hsearching
  · exact .inl ⟨pc', hnext, by rw [hrun]⟩
  · rw [← hcore] at hopen hreg
    exact .inr ⟨fun h => absurd h hopen, fun h => absurd h hreg⟩
  · -- an open record, and a registration past a gate, has its request in the slot
    rw [hsame] at hcore
    refine .inr ⟨fun hopen => ?_, fun _ u => Bool.eq_false_iff.mpr fun hu => ?_⟩
    · rw [hcore] at hopen
      have hstate : s.core.view.state = .pending ∨ s.core.view.state = .scheduled :=
        hopen.imp (fun h => view_state h) fun h => view_state h
      obtain ⟨r, hslot, -⟩ := hinv.own.view.published hstate
      rw [show s.core.view.slot = none from hnone] at hslot
      cases hslot
    · have hbefore : (s.thr u).passes g = true := by
        rw [hthr'] at hu
        by_cases hut : u = t
        · subst hut
          rw [Function.update_self] at hu
          split at hu <;> cases hu
        · rwa [Function.update_of_ne hut] at hu
      obtain ⟨r, hstage | hstage⟩ := WaitThread.owns_of_passes hbefore <;>
      · have hok := hinv.own.stage u
        rw [hstage] at hok
        have hslot : s.core.waitRequest = some r := hok.2.1
        rw [hnone] at hslot
        cases hslot

end WinTap

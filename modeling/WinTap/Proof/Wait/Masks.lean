import WinTap.Proof.Wait.Completion
import WinTap.Proof.Wait.Sequence

/-!
# Readiness bits stay with their registration

A claim that observed a word and exchanges it later exchanges it within the same registration, whose
interest has not changed since. That makes the word's satisfied mask the union of the bits of the claims
on the published request, all of them asked for, and the mask the worker returns that union together
with what it found ready itself.
-/

namespace WinTap

open Machine

variable {pc : ClaimPc} {input : WaitInput} {v v' : View} {e : Env} {choice : Choice} {th' : WaitThread}
  {bits mask : Mask} {pending : Bool} {a : WaitAction}
variable {m m' : Ledger} {t : ThreadId} {th : WaitThread} {r : Request} {c c' : Core} {observed : Word}

/-! ### What the threads know of the masks -/

def ClaimPc.MaskOk (m : Ledger) : ClaimPc → Prop
  | .request observed | .interest observed => Follows m observed
  | .exchange observed bits => Follows m observed ∧ Fits m observed bits
  | .enabled | .load | .enqueue => True

def RegisterPc.MaskOk (m : Ledger) (r : Request) (input : WaitInput) : RegisterPc → Prop
  | .validate => claimedBits r m.calls = 0
  | .lifecycle | .started _ | .adaptive | .begin _ =>
    waitInputError input = none ∧ claimedBits r m.calls = 0
  | .publish | .snapshot _ | .storeInterest .. => waitInputError input = none ∧ Blank m r
  | .storeCapture .. | .storeInjection _ | .storeHandoff | .recheckLifecycle | .recheckAdaptive
  | .recheckStarted _ | .mark | .toPending _ | .toUnmarking _ => Registered m r
  | .claim _ pc => pc.MaskOk m
  | .resnapshot _ | .loadCapture .. | .loadInjection .. | .unmark _ | .finish .. | .complete _ => True

def WorkerPc.MaskOk (m : Ledger) : WorkerPc → Prop
  | .request claimed => ∀ r, m.slot = some r → Taken m r claimed
  | .interest r claimed => Taken m r claimed
  | .snapshot r claimed asked _ => Taken m r claimed ∧ asked = m.interest
  | .loadInterest r mask | .lifecycle r mask _ | .started r mask _ _ => Answer m.calls r mask
  | .unmark r status mask _ => status = statusSuccess → Answer m.calls r mask
  | .take _ | .finish _ => True

def WaitThread.MaskOk (m : Ledger) : WaitThread → Prop
  | .register r input pc => .dispatch r input.interest ∈ m.calls ∧ pc.MaskOk m r input
  | .worker pc => pc.MaskOk m
  | .claim _ _ pc => pc.MaskOk m
  | .idle | .cancel .. | .workerRest | .teardown .. => True

variable {u : WaitThread} {x : Stage}

/-- Nobody claims for a request that its holder has not published or has taken back. -/
theorem StageOk.unclaimed (hx : StageOk c.view x)
    (hholds : x.owns = true ∨ x = .completing r ∨ x = .dispatched r) :
    c.ledger.slot = some r → ¬ Open c.ledger.word := by
  intro hslot
  rcases hholds with hown | rfl | rfl
  · exact (hx.not_open hown).2
  · have hstate : c.view.state = .cancelled := (hx.2.2 hslot).1
    rintro (h | h)
    · have hpending : c.view.state = .pending := view_state h
      simp [hpending] at hstate
    · have hscheduled : c.view.state = .scheduled := view_state h
      simp [hscheduled] at hstate
  · exact absurd hslot hx.2.1

theorem Effect.interest_open (h : Effect t c.ledger th m') (hx : StageOk c.view th.stage)
    (hopen : Open c.waitState) : m'.interest = c.ledger.interest := by
  cases h with
  | interest interest hown => exact absurd hopen (hx.not_open hown).2
  | _ => all_goals rfl

/-- What a claim knows survives every step. -/
theorem ClaimPc.MaskOk.keep (hpc : pc.MaskOk c.ledger) (h : Effect t c.ledger th m') (hx : StageOk c.view th.stage)
    (hseq : Stays c.ledger m' ∨ (waitRecordSequence m'.word).toNat = (waitRecordSequence c.ledger.word).toNat + 1) :
    pc.MaskOk m' := by
  have hfollows : ∀ observed, Follows c.ledger observed → Follows m' observed := fun observed hobs =>
    hseq.elim (fun hstays => hstays.follows hobs) fun hnext => (hobs.advanced hnext).1
  cases pc with
  | request observed | interest observed => all_goals exact hfollows observed hpc
  | exchange observed bits =>
    obtain ⟨hobs, hne, hfits⟩ := hpc
    refine ⟨hfollows observed hobs, hne, fun hsame hopen => ?_⟩
    rcases hseq with hstays | hnext
    · have hold : waitRecordSequence observed = waitRecordSequence c.ledger.word :=
        hsame.trans hstays.sequence
      have hopen₀ := (hstays.still hopen).resolve_left (hobs.2 hold).1
      rw [h.interest_open hx hopen₀]
      exact hfits hold hopen₀
    · exact absurd hsame (hobs.advanced hnext).2
  | enabled | load | enqueue => all_goals trivial

theorem UnmarkPc.stage_holds (r : Request) (pc : UnmarkPc) :
    (pc.stage r).owns = true ∨ pc.stage r = .completing r := by
  cases pc with
  | complete => exact .inr rfl
  | _ => all_goals exact .inl rfl

/-- What a thread knows of the masks survives the steps of the others. -/
theorem WaitThread.MaskOk.other (hu : u.MaskOk c.ledger) (huok : StageOk c.view u.stage)
    (h : Effect t c.ledger th m') (hx : StageOk c.view th.stage) (hap : Apart th.stage u.stage)
    (hseq : Stays c.ledger m' ∨ (waitRecordSequence m'.word).toNat
      = (waitRecordSequence c.ledger.word).toNat + 1) : u.MaskOk m' := by
  have hframed : u.stage.owns = true → Framed c.ledger m' := fun hown => by
    obtain ⟨hfree, hopen⟩ := huok.not_open hown
    exact h.framed (Bool.eq_false_iff.mpr fun hmine => hap.owner hmine hown) hfree hopen
  have hanswer : ∀ r mask, u.stage.owns = true ∨ u.stage = .completing r → Answer c.ledger.calls r mask →
      Answer m'.calls r mask := fun r mask hholds hmask =>
    hmask.keep (h.claimed (huok.unclaimed (hholds.imp id .inl))) h.calls
  cases u with
  | idle | cancel | workerRest | teardown => all_goals trivial
  | register r input pc =>
    refine ⟨h.calls _ hu.1, ?_⟩
    have hpc := hu.2
    have hunclaimed : pc.stage r = .dispatched r → claimedBits r m'.calls = claimedBits r c.ledger.calls :=
      fun hstage => h.claimed (huok.unclaimed (.inr (.inr hstage)))
    cases pc with
    | validate => exact (hunclaimed rfl).trans hpc
    | lifecycle | started | adaptive | «begin» => all_goals exact ⟨hpc.1, (hunclaimed rfl).trans hpc.2⟩
    | publish | snapshot | storeInterest => all_goals exact ⟨hpc.1, (hframed rfl).blank hpc.2⟩
    | storeCapture | storeInjection | storeHandoff | recheckLifecycle | recheckAdaptive | recheckStarted
    | mark | toPending | toUnmarking => all_goals exact (hframed rfl).registered hpc
    | claim condition pc => exact ClaimPc.MaskOk.keep hpc h hx hseq
    | resnapshot | loadCapture | loadInjection | unmark | finish | complete => all_goals trivial
  | worker pc =>
    cases pc with
    | request claimed =>
      intro r hslot
      have hframe := hframed rfl
      exact hframe.taken (hu r (hframe.slot ▸ hslot))
    | interest r claimed => exact (hframed rfl).taken hu
    | snapshot r claimed interest pc =>
      exact ⟨(hframed rfl).taken hu.1, hu.2.trans (hframed rfl).interest.symm⟩
    | loadInterest r mask | lifecycle r mask | started r mask =>
      all_goals exact hanswer r mask (.inl rfl) hu
    | unmark r status mask pc => exact fun hstatus => hanswer r mask (pc.stage_holds r) (hu hstatus)
    | take | finish => all_goals trivial
  | claim condition expected pc => exact ClaimPc.MaskOk.keep hu h hx hseq

/-! ### How the threads come to know it -/

theorem claimWait_mask (e : Env) (condition : Mask) (expected : Option Request) (hpc : pc.MaskOk c.ledger) :
    (claimWaitForPassiveCompletion e c t condition expected pc).2.Running
      (ClaimPc.MaskOk (claimWaitForPassiveCompletion e c t condition expected pc).1.ledger) := by
  cases pc with
  | enabled =>
    simp only [claimWaitForPassiveCompletion]
    split <;> trivial
  | load =>
    simp only [claimWaitForPassiveCompletion]
    split
    · trivial
    · rename_i hstate
      refine ⟨le_rfl, fun _ => ?_⟩
      have hopen : Open c.waitState := by
        unfold Open
        tauto
      show waitRecordState c.waitState ≠ _ ∧ waitRecordState c.waitState ≠ _
      rcases hopen with h | h <;> rw [h] <;> decide
  | request observed =>
    simp only [claimWaitForPassiveCompletion]
    split
    · trivial
    · exact hpc
  | interest observed =>
    simp only [claimWaitForPassiveCompletion]
    split
    · trivial
    · rename_i hne
      split
      · trivial
      · refine ⟨hpc, hne, fun _ _ => ?_⟩
        rw [BitVec.and_comm]
        exact within_and_right _ _
  | exchange observed bits =>
    simp only [claimWaitForPassiveCompletion]
    split
    · dsimp only
      split <;> trivial
    · trivial
  | enqueue => trivial

theorem supported_of_valid (hvalid : waitInputError input = none) :
    Within input.interest adaptiveInterestSupported := by
  have hbits : input.interest &&& ~~~adaptiveInterestSupported = 0 := by
    by_contra hne
    simp only [waitInputError] at hvalid
    split_ifs at hvalid with h1 h2 h3
    exact h3 (.inr (.inr hne))
  unfold Within
  apply BitVec.eq_of_getLsbD_eq
  intro bit hbit
  have h := congrArg (fun mask : Mask => mask.getLsbD bit) hbits
  simp only [BitVec.getLsbD_and, BitVec.getLsbD_not, hbit, decide_true, Bool.true_and] at h ⊢
  cases hi : input.interest.getLsbD bit <;> simp_all

/-- The interest of a valid request is the registered one once it is stored. -/
theorem registered_of_blank (hasked : .dispatch r input.interest ∈ c.calls) (hvalid : waitInputError input = none)
    (hblank : Blank c.ledger r) : Registered { c.ledger with interest := input.interest } r := by
  refine ⟨hasked, supported_of_valid hvalid, hblank.2.trans hblank.1.symm, ?_⟩
  rw [hblank.1]
  exact within_zero _

theorem handleWaitForChange_mask (e : Env) (choice : Choice) {pc : RegisterPc} (hpc : pc.Ok)
    (hasked : .dispatch r input.interest ∈ c.calls) (hmask : pc.MaskOk c.ledger r input) :
    (handleWaitForChange e c t r input choice pc).2.Running
      (RegisterPc.MaskOk (handleWaitForChange e c t r input choice pc).1.ledger r input) := by
  cases pc with
  | validate =>
    simp only [handleWaitForChange]
    cases hvalid : waitInputError input with
    | some status => trivial
    | none => exact ⟨hvalid, hmask⟩
  | lifecycle | adaptive =>
    all_goals
      simp only [handleWaitForChange]
      split
      · trivial
      · exact hmask
  | started pc =>
    simp only [handleWaitForChange, call]
    cases waitInterestQueuesStarted e input.interest pc with
    | run pc' => exact hmask
    | ret started =>
      cases started with
      | true => exact hmask
      | false => trivial
  | «begin» pc =>
    rcases beginWaitRecord_cases c pc hpc with ⟨pc', -, heq⟩ | heq | ⟨-, heq⟩
    · simp only [handleWaitForChange, heq, call_run]
      exact hmask
    · simp only [handleWaitForChange, heq, call_ret]
      trivial
    · simp only [handleWaitForChange, heq, call_ret]
      exact ⟨hmask.1, hmask.2, by simp [Core.ledger]⟩
  | publish =>
    simp only [handleWaitForChange]
    split
    · exact hmask
    · trivial
  | snapshot pc =>
    simp only [handleWaitForChange, call]
    cases readinessSnapshot e pc <;> exact hmask
  | storeInterest => exact registered_of_blank hasked hmask.1 hmask.2
  | storeCapture | storeInjection | storeHandoff => all_goals exact hmask
  | recheckLifecycle | recheckAdaptive =>
    all_goals
      simp only [handleWaitForChange]
      split
      · trivial
      · exact hmask
  | recheckStarted pc =>
    simp only [handleWaitForChange, call]
    cases waitInterestQueuesStarted e input.interest pc with
    | run pc' => exact hmask
    | ret started =>
      cases started with
      | true => exact hmask
      | false => trivial
  | mark =>
    have hledger : (markCancelableEx c r choice).1.ledger = c.ledger := by
      unfold markCancelableEx
      cases choice with
      | none => rfl
      | some status =>
        dsimp only
        split <;> rfl
    simp only [handleWaitForChange, hledger]
    split
    · trivial
    · split
      · trivial
      · exact hmask
  | toPending pc =>
    rcases transitionWaitRecord_cases c waitRegistering waitPending pc hpc with
      ⟨pc', -, heq⟩ | ⟨-, heq⟩ | ⟨-, heq⟩
    · simp only [handleWaitForChange, heq, call_run]
      exact hmask
    · simp only [handleWaitForChange, heq, call_ret]
      split
      · exact hmask
      · trivial
    · simp only [handleWaitForChange, heq, call_ret]
      trivial
  | resnapshot pc =>
    simp only [handleWaitForChange, call]
    cases readinessSnapshot e pc <;> trivial
  | loadCapture => trivial
  | loadInjection =>
    simp only [handleWaitForChange]
    split <;> trivial
  | claim condition pc =>
    exact (claimWait_mask e condition (some r) hmask).call (fun _ => id) fun _ => trivial
  | toUnmarking pc =>
    rcases transitionWaitRecord_cases c waitTeardown waitUnmarking pc hpc with
      ⟨pc', -, heq⟩ | ⟨-, heq⟩ | ⟨-, heq⟩
    · simp only [handleWaitForChange, heq, call_run]
      exact hmask
    · simp only [handleWaitForChange, heq, call_ret]
      trivial
    · simp only [handleWaitForChange, heq, call_ret]
      trivial
  | unmark pc =>
    simp only [handleWaitForChange, call]
    cases (unmarkAndCompleteWait c r statusCancelled 0 choice pc).2 <;> trivial
  | finish pc status =>
    simp only [handleWaitForChange, call]
    cases (finishWait c pc).2 with
    | run pc' => trivial
    | ret value => cases status <;> trivial
  | complete status => trivial

/-- A record that was scheduled is taken with every bit claimed for it. -/
theorem taken_of_registered (hreg : Registered c.ledger r) (hne : claimedBits r c.calls ≠ 0) :
    Taken (Core.ledger { c with waitState := shiftedWord c.waitState waitUnmarking }) r
      (shiftedWord c.waitState waitUnmarking) := by
  obtain ⟨hasked, hsupported, hsat, hwithin⟩ := hreg
  have hkept : waitRecordSatisfied (shiftedWord c.waitState waitUnmarking) = claimedBits r c.calls :=
    (waitRecordSatisfied_shifted _ _).trans hsat
  exact ⟨⟨hasked, hsupported, hkept, hwithin⟩, hkept, hne⟩

theorem answer_of_taken {claimed : Word} {ready : Mask} (h : Taken c.ledger r claimed) :
    Answer (.refresh r ready :: c.calls) r
      (waitRecordSatisfied claimed ||| (ready &&& c.waitInterest)) := by
  obtain ⟨⟨hasked, -, -, hwithin⟩, hsat, hne⟩ := h
  refine ⟨c.waitInterest, ready, List.mem_cons_of_mem _ hasked, List.mem_cons_self, ?_, hne, hwithin⟩
  rw [hsat]
  rfl

theorem workerRound_mask (e : Env) (choice : Choice) {pc : WorkerPc} (hpc : pc.Ok)
    (hok : StageOk c.view pc.stage) (hmask : pc.MaskOk c.ledger)
    (hpublished : waitRecordState c.waitState = waitScheduled → ∀ r, c.waitRequest = some r →
      Registered c.ledger r ∧ claimedBits r c.calls ≠ 0) :
    (workerRound e c choice pc).2.Running (WorkerPc.MaskOk (workerRound e c choice pc).1.ledger) := by
  cases pc with
  | take pc =>
    rcases transitionWaitRecord_cases c waitScheduled waitUnmarking pc hpc with
      ⟨pc', -, heq⟩ | ⟨-, heq⟩ | ⟨hstate, heq⟩
    · simp only [workerRound, heq, call_run]
      trivial
    · simp only [workerRound, heq, call_ret]
      trivial
    · simp only [workerRound, heq, call_ret]
      intro r hslot
      obtain ⟨hreg, hne⟩ := hpublished hstate r hslot
      exact taken_of_registered hreg hne
  | request claimed =>
    obtain ⟨-, q, hslot, -⟩ := hok
    simp only [workerRound, show c.waitRequest = some q from hslot]
    exact hmask q hslot
  | finish => exact hok.elim
  | interest r claimed => exact ⟨hmask, rfl⟩
  | snapshot r claimed interest pc =>
    obtain ⟨htaken, rfl⟩ := hmask
    simp only [workerRound]
    cases readinessSnapshot e pc with
    | run pc' => exact ⟨htaken, rfl⟩
    | ret value => exact answer_of_taken htaken
  | loadInterest r mask => exact hmask
  | lifecycle r mask interest =>
    simp only [workerRound]
    split
    · exact fun hstatus => absurd hstatus (by decide)
    · exact hmask
  | started r mask interest pc =>
    simp only [workerRound, call]
    cases waitInterestQueuesStarted e interest pc with
    | run pc' => exact hmask
    | ret started =>
      cases started with
      | true => exact fun _ => hmask
      | false => exact fun hstatus => absurd hstatus (by decide)
  | unmark r status mask pc =>
    have heffect := workerRound_effect (t := 0) e choice (.unmark r status mask pc) hpc hok
    simp only [workerRound, call] at heffect ⊢
    cases hflow : (unmarkAndCompleteWait c r status mask choice pc).2 with
    | run pc' =>
      intro hstatus
      refine (hmask hstatus).keep (heffect.claimed ?_) heffect.calls
      exact hok.unclaimed ((pc.stage_holds r).imp id .inl)
    | ret value => trivial

/-! ### The word a record is retired with -/

theorem FinishPc.stage_of_storing {pc : FinishPc} (h : pc.storing = some observed) :
    pc.stage = .record := by
  cases pc <;> first | rfl | simp [FinishPc.storing] at h

theorem UnmarkPc.stage_of_storing {pc : UnmarkPc} (h : pc.storing = some observed) (r : Request) :
    pc.stage r = .finishing r .record true := by
  cases pc with
  | finish pc completion => simp only [UnmarkPc.stage, FinishPc.stage_of_storing h]
  | _ => all_goals simp [UnmarkPc.storing] at h

theorem WaitThread.stage_of_storing (h : th.storing = some observed) :
    ∃ r completes, th.stage = .finishing r .record completes := by
  unfold WaitThread.storing at h
  split at h
  · exact ⟨_, _, by simp only [WaitThread.stage, RegisterPc.stage, FinishPc.stage_of_storing h]; rfl⟩
  · exact ⟨_, _, by simp only [WaitThread.stage, CancelPc.stage, FinishPc.stage_of_storing h]; rfl⟩
  · exact ⟨_, _, UnmarkPc.stage_of_storing h _⟩
  · exact ⟨_, _, UnmarkPc.stage_of_storing h _⟩
  · exact ⟨_, _, UnmarkPc.stage_of_storing h _⟩
  · simp at h

theorem Storing.other (hu : Storing c.ledger u) (huok : StageOk c.view u.stage)
    (h : Effect t c.ledger th m') (hap : Apart th.stage u.stage) : Storing m' u := by
  intro observed hobs
  obtain ⟨r, completes, hstage⟩ := WaitThread.stage_of_storing hobs
  have hown : u.stage.owns = true := by
    rw [hstage]
    rfl
  obtain ⟨hfree, hopen⟩ := huok.not_open hown
  have hframe := h.framed (Bool.eq_false_iff.mpr fun hmine => hap.owner hmine hown) hfree hopen
  rw [hframe.sequence]
  exact hu observed hobs

theorem finishWait_storing (pc : FinishPc) :
    (finishWait c pc).2.Running fun pc' =>
      ∀ observed, pc'.storing = some observed → observed = (finishWait c pc).1.waitState := by
  cases pc with
  | load => exact fun observed hobs => (Option.some.inj hobs).symm
  | store => trivial
  | _ => all_goals exact fun observed hobs => by simp [FinishPc.storing] at hobs

theorem unmarkAndCompleteWait_storing (r : Request) (status : NtStatus) (mask : Mask) (choice : Choice)
    (pc : UnmarkPc) :
    (unmarkAndCompleteWait c r status mask choice pc).2.Running fun pc' =>
      ∀ observed, pc'.storing = some observed →
        observed = (unmarkAndCompleteWait c r status mask choice pc).1.waitState := by
  cases pc with
  | unmark =>
    simp only [unmarkAndCompleteWait]
    split
    · exact fun observed hobs => by simp [UnmarkPc.storing, FinishPc.storing] at hobs
    · split <;> exact fun observed hobs => by simp [UnmarkPc.storing, FinishPc.storing] at hobs
  | handoff =>
    simp only [unmarkAndCompleteWait]
    split
    · exact fun observed hobs => by simp [UnmarkPc.storing, FinishPc.storing] at hobs
    · trivial
  | finish pc completion =>
    exact (finishWait_storing pc).call (fun _ => id) fun _ observed hobs => by simp [UnmarkPc.storing] at hobs
  | complete completion => cases completion <;> trivial

theorem Move.retiring_from {completes : Bool} (h : Move v x v' (.finishing r .record completes)) :
    ∃ next, next ≠ .handoff ∧ x = .finishing r next completes := by
  cases h with
  | keep | owe => all_goals exact ⟨.record, by simp, rfl⟩
  | clearSlot => exact ⟨.slot, by simp, rfl⟩

/-- A thread about to store the word has just read it. -/
theorem advanceThread_storing (hpc : th.PcOk) (hok : StageOk c.view th.stage)
    (hstep : advanceThread e c t choice th = some (c', th')) (hobs : th'.storing = some observed) :
    observed = c'.waitState := by
  obtain ⟨r, completes, hstage⟩ := WaitThread.stage_of_storing hobs
  have hmove := (advanceThread_move hpc hok hstep).1
  rw [hstage] at hmove
  obtain ⟨next, hnext, hfrom⟩ := hmove.retiring_from
  have hresume : ∀ {π ρ : Type} {result : Core × Flow π ρ} {thread : π → WaitThread} {after : ρ → WaitThread},
      result.2.Running (fun pc => ∀ observed, (thread pc).storing = some observed → observed = result.1.waitState) →
      (∀ value, (after value).storing = none) → some (resume result thread after) = some (c', th') →
      observed = c'.waitState := by
    intro π ρ result thread after hrun hafter heq
    obtain ⟨rfl, rfl⟩ := Prod.mk.inj (Option.some.inj heq)
    refine hrun.resume (P := fun th => th.storing = some observed → observed = result.1.waitState)
      (fun pc hpc => hpc observed) (fun value hvalue => ?_) hobs
    rw [hafter] at hvalue
    cases hvalue
  cases th with
  | idle => simp [advanceThread] at hstep
  | register q input pc =>
    refine hresume ?_ (fun _ => rfl) hstep
    cases pc with
    | unmark pc =>
      exact (unmarkAndCompleteWait_storing q statusCancelled 0 choice pc).call (fun _ => id) fun _ => trivial
    | finish pc status =>
      refine (finishWait_storing pc).call (fun _ => id) fun _ => ?_
      cases status with
      | none => trivial
      | some status => exact fun observed hobs => by simp [WaitThread.storing] at hobs
    | _ => all_goals simp [WaitThread.stage, RegisterPc.stage] at hfrom
  | cancel q pc =>
    refine hresume ?_ (fun _ => rfl) hstep
    cases pc with
    | finish pc =>
      exact (finishWait_storing pc).call (fun _ => id) fun _ observed hobs => by simp [WaitThread.storing] at hobs
    | _ => all_goals simp [WaitThread.stage, CancelPc.stage] at hfrom
  | worker pc =>
    refine hresume ?_ (fun took => by cases took <;> rfl) hstep
    cases pc with
    | unmark q status mask pc =>
      exact (unmarkAndCompleteWait_storing q status mask choice pc).call (fun _ => id) fun _ => trivial
    | _ => all_goals simp [WaitThread.stage, WorkerPc.stage] at hfrom
  | teardown expected pc =>
    refine hresume ?_ (fun _ => rfl) hstep
    cases pc with
    | unmark q pc =>
      exact (unmarkAndCompleteWait_storing q statusCancelled 0 choice pc).call (fun _ => id) fun _ => trivial
    | _ => all_goals simp [WaitThread.stage, TeardownPc.stage] at hfrom
  | workerRest | claim => all_goals simp [WaitThread.stage] at hfrom

/-! ### The masks along a run -/

/-- What the threads know follows them through their own steps. -/
theorem advanceThread_mask (hpc : th.PcOk) (hok : StageOk c.view th.stage) (hmask : th.MaskOk c.ledger)
    (hpublished : waitRecordState c.waitState = waitScheduled → ∀ r, c.waitRequest = some r →
      Registered c.ledger r ∧ claimedBits r c.calls ≠ 0) (hstep : advanceThread e c t choice th = some (c', th')) :
    th'.MaskOk c'.ledger := by
  have heffect := advanceThread_effect hpc hok hstep
  cases th with
  | idle => simp [advanceThread] at hstep
  | register r input pc =>
    obtain ⟨rfl, rfl⟩ := Prod.mk.inj (Option.some.inj hstep)
    exact (handleWaitForChange_mask e choice hpc hmask.1 hmask.2).resume
      (fun _ hrun => ⟨heffect.calls _ hmask.1, hrun⟩) fun _ => trivial
  | cancel r pc =>
    obtain ⟨rfl, rfl⟩ := Prod.mk.inj (Option.some.inj hstep)
    cases (cancelWaitFromWdf c r pc).2 <;> trivial
  | worker pc =>
    obtain ⟨rfl, rfl⟩ := Prod.mk.inj (Option.some.inj hstep)
    exact (workerRound_mask e choice hpc hok hmask hpublished).resume (fun _ => id)
      fun took => by cases took <;> trivial
  | workerRest =>
    obtain ⟨rfl, rfl⟩ := Prod.mk.inj (Option.some.inj hstep)
    split <;> trivial
  | teardown expected pc =>
    obtain ⟨rfl, rfl⟩ := Prod.mk.inj (Option.some.inj hstep)
    cases (cancelWaitRequestForTeardown c expected choice pc).2 <;> trivial
  | claim condition expected pc =>
    obtain ⟨rfl, rfl⟩ := Prod.mk.inj (Option.some.inj hstep)
    exact (claimWait_mask e condition expected hmask).resume (fun _ => id) fun _ => trivial

theorem WaitThread.MaskOk.registered (hmask : th.MaskOk m) (hstage : th.stage = .marked r) :
    Registered m r := by
  obtain ⟨input, pc, rfl⟩ := WaitThread.eq_of_marked hstage
  exact hmask.2

theorem WaitThread.MaskOk.fits (hmask : th.MaskOk m) (hexchange : th.exchanging = some (m.word, bits))
    (hopen : Open m.word) : bits ≠ 0 ∧ Within bits m.interest := by
  have hpc : ∀ pc : ClaimPc, pc.exchanging = some (m.word, bits) → pc.MaskOk m →
      bits ≠ 0 ∧ Within bits m.interest := by
    intro pc hpc hclaim
    cases pc with
    | exchange observed satisfied =>
      obtain ⟨rfl, rfl⟩ := Prod.mk.inj (Option.some.inj hpc)
      exact ⟨hclaim.2.1, hclaim.2.2 rfl hopen⟩
    | _ => all_goals simp [ClaimPc.exchanging] at hpc
  unfold WaitThread.exchanging at hexchange
  split at hexchange
  · exact hpc _ hexchange hmask.2
  · exact hpc _ hexchange hmask
  · simp at hexchange

theorem WaitThread.MaskOk.answer (hmask : th.MaskOk m) (hanswering : th.answering = some (r, mask)) :
    Answer m.calls r mask := by
  unfold WaitThread.answering at hanswering
  split at hanswering
  · split at hanswering
    · rename_i hstatus
      obtain ⟨rfl, rfl⟩ := Prod.mk.inj (Option.some.inj hanswering)
      exact hmask hstatus
    · simp at hanswering
  · simp at hanswering

/-- A claim that succeeds extends the mask of the registration it belongs to. -/
theorem Registered.claim (hreg : Registered m r) (hslot : m.slot = some r) (hwithin : Within bits m.interest) :
    Registered { m with
      word := claimedWord m.word bits
      calls := .claim t m.slot bits pending :: m.calls } r := by
  obtain ⟨hasked, hsupported, hsat, hold⟩ := hreg
  have hclaimed : claimedBits r (.claim t (some r) bits pending :: m.calls)
      = bits ||| claimedBits r m.calls := by simp [claimedBits]
  refine ⟨List.mem_cons_of_mem _ hasked, hsupported, ?_, ?_⟩
  · dsimp only
    rw [waitRecordSatisfied_claimed _ (hwithin.trans hsupported), hslot, hclaimed, hsat, BitVec.or_comm]
  · dsimp only
    rw [hslot, hclaimed]
    exact hwithin.or hold

theorem or_ne_zero (h : bits ≠ 0) : bits ||| mask ≠ 0 := by
  intro hzero
  apply h
  have hbits := within_or_left bits mask
  rw [hzero] at hbits
  simpa [Within] using hbits.symm

/-- The published request and its mask. -/
def Published (m : Ledger) : Prop :=
  Open m.word → ∀ r, m.slot = some r →
    Registered m r ∧ (waitRecordState m.word = waitScheduled → claimedBits r m.calls ≠ 0)

theorem Effect.published (h : Effect t c.ledger th m') (hx : StageOk c.view th.stage)
    (hmask : th.MaskOk c.ledger) (hpub : Published c.ledger) : Published m' := by
  intro hopen r hslot
  have howner : Open c.ledger.word → th.stage.owns = true → False := fun hopen hown =>
    (hx.not_open hown).2 hopen
  cases h with
  | quiet => exact hpub hopen r hslot
  | note call hplain =>
    obtain ⟨⟨hasked, hsupported, hsat, hwithin⟩, hne⟩ := hpub hopen r hslot
    have hclaimed : claimedBits r (call :: c.ledger.calls) = claimedBits r c.ledger.calls :=
      claimedBits_plain (by rintro u q bits pending rfl; simp [Call.plain] at hplain) r _
    exact ⟨⟨List.mem_cons_of_mem _ hasked, hsupported, hsat.trans hclaimed.symm, hclaimed ▸ hwithin⟩,
      fun hscheduled => hclaimed ▸ hne hscheduled⟩
  | respond q mask | enqueue =>
    all_goals
      obtain ⟨⟨hasked, hsupported, hsat, hwithin⟩, hne⟩ := hpub hopen r hslot
      exact ⟨⟨List.mem_cons_of_mem _ hasked, hsupported, hsat, hwithin⟩, hne⟩
  | «begin» | retire =>
    all_goals
      unfold Open at hopen
      rw [waitRecordState_word] at hopen
      exact absurd hopen (by decide)
  | publish q hstage | unpublish q completes hstage =>
    all_goals exact (howner hopen (by rw [hstage]; rfl)).elim
  | interest interest hown => exact (howner hopen hown).elim
  | pend q hstage hstate =>
    rw [hstage] at hx
    obtain rfl : q = r := by
      have hq : c.ledger.slot = some q := hx.2.1
      simpa [hq] using hslot
    obtain ⟨hasked, hsupported, hsat, hwithin⟩ := hmask.registered hstage
    refine ⟨⟨hasked, hsupported, ?_, hwithin⟩, fun hscheduled => ?_⟩
    · rw [waitRecordSatisfied_shifted, hsat]
    · rw [waitRecordState_shifted] at hscheduled
      exact absurd hscheduled (by decide)
  | shift target hshift =>
    unfold Open at hopen
    rw [waitRecordState_shifted] at hopen
    obtain ⟨-, -, hpending, hscheduled, -⟩ := hshift.source_ne_free
    exact absurd hopen (by simp [hpending, hscheduled])
  | claim bits hexchange hstate =>
    obtain ⟨hne, hwithin⟩ := hmask.fits hexchange hstate
    refine ⟨(hpub hstate r hslot).1.claim hslot hwithin, fun _ => ?_⟩
    have hq : c.ledger.slot = some r := hslot
    dsimp only
    rw [hq]
    simpa [claimedBits] using or_ne_zero hne

/-- A step outside the routines: the history may grow, by no claim. -/
structure Grows (m m' : Ledger) : Prop where
  word : m'.word = m.word
  registrations : m'.registrations = m.registrations
  interest : m'.interest = m.interest
  slot : m'.slot = m.slot
  claimed : ∀ r, claimedBits r m'.calls = claimedBits r m.calls
  calls : ∀ call ∈ m.calls, call ∈ m'.calls

theorem Grows.framed (h : Grows m m') : Framed m m' :=
  ⟨h.interest, by rw [h.word], by rw [h.word], h.slot, h.claimed, h.calls⟩

theorem Grows.maskOk (h : Grows m m') (hth : th.MaskOk m) : th.MaskOk m' := by
  have hclaim : ∀ pc : ClaimPc, pc.MaskOk m → pc.MaskOk m' := by
    intro pc hpc
    cases pc <;> simp only [ClaimPc.MaskOk, Follows, Fits, h.word, h.interest] at hpc ⊢ <;> exact hpc
  have hanswer : ∀ r mask, Answer m.calls r mask → Answer m'.calls r mask := fun r mask hmask =>
    hmask.keep (h.claimed r) h.calls
  have hframe := h.framed
  cases th with
  | idle | cancel | workerRest | teardown => all_goals trivial
  | register r input pc =>
    refine ⟨h.calls _ hth.1, ?_⟩
    have hpc := hth.2
    cases pc with
    | validate => exact (h.claimed r).trans hpc
    | lifecycle | started | adaptive | «begin» => all_goals exact ⟨hpc.1, (h.claimed r).trans hpc.2⟩
    | publish | snapshot | storeInterest => all_goals exact ⟨hpc.1, hframe.blank hpc.2⟩
    | storeCapture | storeInjection | storeHandoff | recheckLifecycle | recheckAdaptive | recheckStarted
    | mark | toPending | toUnmarking => all_goals exact hframe.registered hpc
    | claim condition pc => exact hclaim pc hpc
    | resnapshot | loadCapture | loadInjection | unmark | finish | complete => all_goals trivial
  | worker pc =>
    cases pc with
    | request claimed => exact fun r hslot => hframe.taken (hth r (h.slot ▸ hslot))
    | interest r claimed => exact hframe.taken hth
    | snapshot r claimed interest pc => exact ⟨hframe.taken hth.1, hth.2.trans h.interest.symm⟩
    | loadInterest r mask | lifecycle r mask | started r mask => all_goals exact hanswer r mask hth
    | unmark r status mask pc => exact fun hstatus => hanswer r mask (hth hstatus)
    | take | finish => all_goals trivial
  | claim condition expected pc => exact hclaim pc hth

structure MaskInv (s : WaitWorld) : Prop where
  counted : Counted s.core.ledger
  published : Published s.core.ledger
  answers : ∀ r mask, .complete r statusSuccess (some mask) ∈ s.core.calls → Answer s.core.calls r mask
  masked : ∀ r, .complete r statusSuccess none ∉ s.core.calls
  storing : ∀ t, Storing s.core.ledger (s.thr t)
  masks : ∀ t, (s.thr t).MaskOk s.core.ledger
  unseen : ∀ r, s.core.cancel r = .absent →
    claimedBits r s.core.calls = 0 ∧ ∀ interest, .dispatch r interest ∉ s.core.calls
  asked : ∀ r i j, .dispatch r i ∈ s.core.calls → .dispatch r j ∈ s.core.calls → i = j

variable {s s' : WaitWorld}

theorem Grows.published (h : Grows m m') (hpub : Published m) : Published m' := by
  intro hopen r hslot
  rw [h.word] at hopen
  rw [h.slot] at hslot
  obtain ⟨hreg, hne⟩ := hpub hopen r hslot
  refine ⟨h.framed.registered hreg, fun hscheduled => ?_⟩
  rw [h.word] at hscheduled
  rw [h.claimed]
  exact hne hscheduled

theorem Grows.counted (h : Grows m m') (hcount : Counted m) : Counted m' := by
  unfold Counted at *
  rw [h.word, h.registrations]
  exact hcount

theorem Grows.storing (h : Grows m m') (hstore : Storing m th) : Storing m' th := by
  intro observed hobs
  rw [h.word]
  exact hstore observed hobs

/-- Every thread is where it was, or knows what it has to from its first operation on. -/
def Started (s s' : WaitWorld) : Prop :=
  ∀ t, s'.thr t = s.thr t ∨ ((s'.thr t).MaskOk s'.core.ledger ∧ (s'.thr t).storing = none)

theorem started_update {x : WaitThread} (hthr : s'.thr = Function.update s.thr t x)
    (hx : x.MaskOk s'.core.ledger) (hstoring : x.storing = none) : Started s s' := by
  intro u
  rw [hthr]
  by_cases hu : u = t
  · subst hu
    rw [Function.update_self]
    exact .inr ⟨hx, hstoring⟩
  · rw [Function.update_of_ne hu]
    exact .inl rfl

/-- A thread starts, or none moves, while the rest of the driver and the framework do their part. -/
theorem MaskInv.start (h : MaskInv s) (hgrows : Grows s.core.ledger s'.core.ledger)
    (hcancel : ∀ r, s'.core.cancel r = .absent → s.core.cancel r = .absent
      ∧ ∀ interest, .dispatch r interest ∈ s'.core.calls → .dispatch r interest ∈ s.core.calls)
    (hcomplete : ∀ r mask, .complete r statusSuccess mask ∈ s'.core.calls →
      .complete r statusSuccess mask ∈ s.core.calls)
    (hasked : ∀ r i j, .dispatch r i ∈ s'.core.calls → .dispatch r j ∈ s'.core.calls → i = j)
    (hthr : Started s s') : MaskInv s' where
  counted := hgrows.counted h.counted
  published := hgrows.published h.published
  answers r mask hdone := (h.answers r mask (hcomplete r _ hdone)).keep (hgrows.claimed r) hgrows.calls
  masked r hdone := h.masked r (hcomplete r none hdone)
  storing t := by
    rcases hthr t with hsame | ⟨-, hnone⟩
    · rw [hsame]
      exact hgrows.storing (h.storing t)
    · exact fun observed hobs => by simp [hnone] at hobs
  masks t := by
    rcases hthr t with hsame | ⟨hmask, -⟩
    · rw [hsame]
      exact hgrows.maskOk (h.masks t)
    · exact hmask
  unseen r habsent := by
    obtain ⟨hold, hcalls⟩ := hcancel r habsent
    obtain ⟨hclaimed, hnever⟩ := h.unseen r hold
    exact ⟨(hgrows.claimed r).trans hclaimed, fun interest hin => hnever interest (hcalls interest hin)⟩
  asked := hasked

theorem Move.seen_kept {x' : Stage} (h : Move v x v' x') (hseen : v.cancel r ≠ .absent) : v'.cancel r ≠ .absent := by
  cases h <;> grind

theorem Effect.dispatched {interest : Mask} (h : Effect t m th m') (hin : .dispatch r interest ∈ m'.calls) :
    .dispatch r interest ∈ m.calls := by
  cases h with
  | note call hplain =>
    rcases List.mem_cons.mp hin with heq | hin
    · simp [← heq, Call.plain] at hplain
    · exact hin
  | respond | claim | enqueue =>
    all_goals
      rcases List.mem_cons.mp hin with heq | hin
      · cases heq
      · exact hin
  | _ => all_goals exact hin

theorem Effect.masked (h : Effect t m th m') (hin : .complete r statusSuccess none ∈ m'.calls) :
    .complete r statusSuccess none ∈ m.calls := by
  cases h with
  | note call hplain =>
    rcases List.mem_cons.mp hin with heq | hin
    · simp [← heq, Call.plain] at hplain
    · exact hin
  | respond | claim | enqueue =>
    all_goals
      rcases List.mem_cons.mp hin with heq | hin
      · cases heq
      · exact hin
  | _ => all_goals exact hin

theorem Effect.answers (h : Effect t m th m') (hin : .complete r statusSuccess (some mask) ∈ m'.calls) :
    .complete r statusSuccess (some mask) ∈ m.calls ∨ th.answering = some (r, mask) := by
  cases h with
  | note call hplain =>
    rcases List.mem_cons.mp hin with heq | hin
    · simp [← heq, Call.plain] at hplain
    · exact .inl hin
  | respond q mask' hanswering =>
    rcases List.mem_cons.mp hin with heq | hin
    · cases heq
      exact .inr hanswering
    · exact .inl hin
  | claim | enqueue =>
    all_goals
      rcases List.mem_cons.mp hin with heq | hin
      · cases heq
      · exact .inl hin
  | _ => all_goals exact .inl hin

/-- A completed request is not claimed any more. -/
theorem WaitInv.unclaimed (hinv : WaitInv s) {status : NtStatus} {mask : Option Mask}
    (hdone : .complete r status mask ∈ s.core.calls) :
    s.core.ledger.slot = some r → ¬ Open s.core.ledger.word := by
  intro hslot hopen
  have hstate : s.core.view.state ≠ .cancelled := by
    rcases hopen with h | h
    · have hpending : s.core.view.state = .pending := view_state h
      simp [hpending]
    · have hscheduled : s.core.view.state = .scheduled := view_state h
      simp [hscheduled]
  have hzero : s.core.completions r = 0 := hinv.own.slot_open hslot hstate
  have hnone := List.countP_eq_zero.mp hzero _ hdone
  simp [Call.completes] at hnone

theorem MaskInv.advance (h : MaskInv s) (hinv : WaitInv s) {c' : Core}
    (hstep : advanceThread s.env s.core t choice (s.thr t) = some (c', th')) (hbound : c'.registrations < 2 ^ 47) :
    MaskInv (s.advance t (c', th')) := by
  have hok := hinv.own.stage t
  have hpc := hinv.pcs t
  have heffect := advanceThread_effect hpc hok hstep
  have hmove := (advanceThread_move hpc hok hstep).1
  have hretire : waitRecordState s.core.ledger.word = waitFree → (s.thr t).storing = none := by
    intro hfree
    by_contra hsome
    obtain ⟨observed, hobs⟩ := Option.ne_none_iff_exists'.mp hsome
    obtain ⟨r, completes, hstage⟩ := WaitThread.stage_of_storing hobs
    exact (hok.not_open (by rw [hstage]; rfl)).1 hfree
  have hseq := heffect.sequence h.counted (h.storing t) hretire hbound
  refine ⟨heffect.counted h.counted (h.storing t) hretire hbound,
    heffect.published hok (h.masks t) h.published, ?_, fun r hin => h.masked r (heffect.masked hin),
    ?_, ?_, ?_, ?_⟩
  · intro r mask hdone
    rcases heffect.answers hdone with hold | hanswering
    · exact (h.answers r mask hold).keep (heffect.claimed (hinv.unclaimed hold)) heffect.calls
    · refine ((h.masks t).answer hanswering).keep (heffect.claimed ?_) heffect.calls
      refine hok.unclaimed (.inr (.inl ?_))
      unfold WaitThread.answering at hanswering
      split at hanswering
      · rename_i hth
        split at hanswering
        · obtain ⟨rfl, -⟩ := Prod.mk.inj (Option.some.inj hanswering)
          rw [hth]
          rfl
        · simp at hanswering
      · simp at hanswering
  · intro u
    show Storing _ (Function.update s.thr t th' u)
    by_cases hu : u = t
    · subst hu
      rw [Function.update_self]
      exact fun observed hobs => by rw [advanceThread_storing hpc hok hstep hobs]; rfl
    · rw [Function.update_of_ne hu]
      exact (h.storing u).other (hinv.own.stage u) heffect (hinv.own.apart t u (Ne.symm hu))
  · intro u
    show (Function.update s.thr t th' u).MaskOk _
    by_cases hu : u = t
    · subst hu
      rw [Function.update_self]
      refine advanceThread_mask hpc hok (h.masks u) (fun hscheduled r hslot => ?_) hstep
      obtain ⟨hreg, hne⟩ := h.published (.inr hscheduled) r hslot
      exact ⟨hreg, hne hscheduled⟩
    · rw [Function.update_of_ne hu]
      exact (h.masks u).other (hinv.own.stage u) heffect hok (hinv.own.apart t u (Ne.symm hu))
        (hseq.imp id And.left)
  · intro r habsent
    have hold : s.core.cancel r = .absent := by
      by_contra hseen
      exact hmove.seen_kept hseen habsent
    obtain ⟨hclaimed, hnever⟩ := h.unseen r hold
    have hslot : s.core.ledger.slot = some r → ¬ Open s.core.ledger.word := fun hslot =>
      absurd hslot (hinv.own.view.fresh r hold).2.2
    exact ⟨(heffect.claimed hslot).trans hclaimed, fun interest hin =>
      hnever interest (heffect.dispatched hin)⟩
  · exact fun r i j hi hj => h.asked r i j (heffect.dispatched hi) (heffect.dispatched hj)

/-- A step that changes neither the record nor the history. -/
theorem MaskInv.quiet (h : MaskInv s) (hgrows : Grows s.core.ledger s'.core.ledger)
    (hcalls : s'.core.calls = s.core.calls)
    (hcancel : ∀ r, s'.core.cancel r = .absent → s.core.cancel r = .absent)
    (hthr : Started s s') : MaskInv s' := by
  refine h.start hgrows (fun r habsent => ⟨hcancel r habsent, ?_⟩) ?_ ?_ hthr
  all_goals rw [hcalls]
  · exact fun _ hin => hin
  · exact fun _ _ hin => hin
  · exact h.asked

theorem MaskInv.step (h : MaskInv s) (hinv : WaitInv s) (hstep : stepWait s a = some s')
    (hbound : s'.core.registrations < 2 ^ 47) : MaskInv s' := by
  have hgrows : ∀ queued cancel, Grows s.core.ledger
      (Core.ledger { s.core with workQueued := queued, cancel := cancel }) := fun _ _ =>
    ⟨rfl, rfl, rfl, rfl, fun _ => rfl, fun _ hin => hin⟩
  have hset : ∀ r state, state ≠ .absent → ∀ q, (setCancel s.core r state).cancel q = .absent →
      s.core.cancel q = .absent := by
    intro r state hstate q hq
    by_cases hqr : q = r
    · subst hqr
      simp [setCancel, hstate] at hq
    · simpa [setCancel, Function.update_of_ne hqr] using hq
  cases stepWait_cases hstep with
  | environment | queueWork => exact h.quiet (hgrows _ _) rfl (fun _ => id) fun _ => .inl rfl
  | owe r => exact h.quiet (hgrows _ _) rfl (hset r .owed (by simp)) fun _ => .inl rfl
  | advance hth => exact h.advance hinv hth hbound
  | start lock hidle hstart =>
    cases hstart with
    | cancel r => exact h.quiet (hgrows _ _) rfl (hset r .called (by simp)) (started_update rfl trivial rfl)
    | work | teardown | claim => exact h.quiet (hgrows _ _) rfl (fun _ => id) (started_update rfl trivial rfl)
    | register r input habsent =>
      obtain ⟨hclaimed, hnever⟩ := h.unseen r habsent
      have hold : ∀ q i, .dispatch q i ∈ Call.dispatch r input.interest :: s.core.calls →
          (q = r ∧ i = input.interest) ∨ .dispatch q i ∈ s.core.calls := by
        intro q i hin
        rcases List.mem_cons.mp hin with heq | hin
        · cases heq
          exact .inl ⟨rfl, rfl⟩
        · exact .inr hin
      refine h.start ⟨rfl, rfl, rfl, rfl, fun _ => rfl, fun _ hin => List.mem_cons_of_mem _ hin⟩ ?_ ?_ ?_ ?_
      · intro q hq
        refine ⟨hset r .unmarked (by simp) q hq, fun i hin => ?_⟩
        rcases hold q i hin with ⟨rfl, -⟩ | hin
        · simp [dispatchRequest, setCancel] at hq
        · exact hin
      · intro q mask hin
        rcases List.mem_cons.mp hin with heq | hin
        · cases heq
        · exact hin
      · intro q i j hi hj
        rcases hold q i hi with ⟨rfl, rfl⟩ | hiold
        · exact ((hold q j hj).resolve_right (hnever j)).2.symm
        · rcases hold q j hj with ⟨rfl, -⟩ | hjold
          · exact absurd hiold (hnever i)
          · exact h.asked q i j hiold hjold
      · exact started_update rfl ⟨List.mem_cons_self, hclaimed⟩ rfl

theorem MaskInv.init (hinit : waitSystem.init s) : MaskInv s := by
  obtain ⟨hcore, -, hidle⟩ := hinit
  constructor
  · rw [hcore]
    unfold Counted
    decide
  · rw [hcore]
    exact fun _ r hslot => by simp [Core.ledger, Core.initial] at hslot
  · rw [hcore]
    exact fun r mask hin => by simp [Core.initial] at hin
  · rw [hcore]
    exact fun r hin => by simp [Core.initial] at hin
  · intro t observed hobs
    simp [hidle t, WaitThread.storing] at hobs
  · intro t
    rw [hidle t]
    trivial
  · rw [hcore]
    exact fun r _ => ⟨rfl, fun i hin => by simp [Core.initial] at hin⟩
  · rw [hcore]
    exact fun r i j hi => by simp [Core.initial] at hi

theorem stepWait_registrations (hinv : WaitInv s) (hstep : stepWait s a = some s') :
    s.core.registrations ≤ s'.core.registrations := by
  cases stepWait_cases hstep with
  | @advance t choice c th hth =>
    have hle : ∀ m', Effect t s.core.ledger (s.thr t) m' → s.core.ledger.registrations ≤ m'.registrations := by
      intro m' heff
      cases heff with
      | «begin» => exact Nat.le_succ _
      | _ => all_goals exact Nat.le_refl _
    exact hle _ (advanceThread_effect (hinv.pcs t) (hinv.own.stage t) hth)
  | start lock hidle hstart => cases hstart <;> exact Nat.le_refl _
  | _ => exact Nat.le_refl _

/-- The masks are right as long as the sequence has not wrapped. -/
theorem WaitReach.masks (h : WaitReach s) (hbound : s.core.registrations < 2 ^ 47) : MaskInv s := by
  refine Reach.invariant (P := fun s => s.core.registrations < 2 ^ 47 → MaskInv s)
    (fun _ hinit _ => MaskInv.init hinit) (fun s a s' hr hmask _ hstep hbound => ?_) h hbound
  have hinv := WaitReach.inv hr
  have hle := stepWait_registrations hinv hstep
  exact (hmask (by omega)).step hinv hstep hbound

/-! ### Claims and the work item -/

def Call.enqueuedBy (t : ThreadId) : Call → Bool
  | .enqueue u => u == t
  | _ => false

def Call.scheduledBy (t : ThreadId) : Call → Bool
  | .claim u _ _ true => u == t
  | _ => false

/-- How often a thread queued the work item for a claim. -/
def enqueues (t : ThreadId) (calls : List Call) : Nat := calls.countP (Call.enqueuedBy t)

/-- How often a claim of a thread moved the record from pending to scheduled. -/
def schedules (t : ThreadId) (calls : List Call) : Nat := calls.countP (Call.scheduledBy t)

/-- Every claim that moved the record to scheduled queued the work item, or is about to. -/
def Paired (t : ThreadId) (calls : List Call) (enqueueing : Bool) : Prop :=
  enqueues t calls + enqueueing.toNat = schedules t calls

theorem Effect.unpaired (h : Effect t m th m') (u : ThreadId)
    (hquiet : u ≠ t ∨ (th.exchanging = none ∧ th.enqueueing = false)) :
    enqueues u m'.calls = enqueues u m.calls ∧ schedules u m'.calls = schedules u m.calls := by
  cases h with
  | note call hplain =>
    constructor
    · cases call <;> simp_all [enqueues, Call.enqueuedBy, Call.plain]
    · cases call <;> simp_all [schedules, Call.scheduledBy, Call.plain]
  | claim bits hexchange hstate =>
    have hne := hquiet.resolve_right fun h => by simp [h.1] at hexchange
    constructor
    · simp [enqueues, Call.enqueuedBy]
    · simp only [schedules]
      cases decide (waitRecordState m.word = waitPending) <;> simp [Call.scheduledBy, Ne.symm hne]
  | enqueue henqueue =>
    have hne := hquiet.resolve_right fun h => by simp [h.2] at henqueue
    simp [enqueues, schedules, Call.enqueuedBy, Call.scheduledBy, Ne.symm hne]
  | respond => simp [enqueues, schedules, Call.enqueuedBy, Call.scheduledBy]
  | _ => all_goals exact ⟨rfl, rfl⟩

/-- A claim queues the work item exactly when its exchange found the record pending. -/
theorem claimWait_paired (e : Env) (condition : Mask) (expected : Option Request)
    (h : Paired t c.calls (pc == .enqueue)) :
    Paired t (claimWaitForPassiveCompletion e c t condition expected pc).1.calls
      ((claimWaitForPassiveCompletion e c t condition expected pc).2 == .run .enqueue) := by
  cases pc with
  | enabled | load | request =>
    all_goals
      simp only [claimWaitForPassiveCompletion]
      split <;> exact h
  | interest observed =>
    simp only [claimWaitForPassiveCompletion]
    split
    · exact h
    · split <;> exact h
  | exchange observed satisfied =>
    simp only [claimWaitForPassiveCompletion]
    by_cases hsame : c.waitState = observed
    · rw [if_pos hsame]
      have hzero : enqueues t c.calls = schedules t c.calls := h
      by_cases hpending : waitRecordState observed = waitPending
      · simp only [hpending, decide_true, if_true]
        simp [Paired, enqueues, schedules, Call.enqueuedBy, Call.scheduledBy] at hzero ⊢
        exact hzero
      · simp only [hpending, decide_false]
        simp [Paired, enqueues, schedules, Call.enqueuedBy, Call.scheduledBy] at hzero ⊢
        exact hzero
    · rw [if_neg hsame]
      exact h
  | enqueue =>
    have hone : enqueues t c.calls + 1 = schedules t c.calls := h
    simp [claimWaitForPassiveCompletion, Paired, enqueues, schedules, Call.enqueuedBy,
      Call.scheduledBy] at hone ⊢
    exact hone

/-- A registration comes to queue the work item only inside its claim. -/
theorem handleWaitForChange_enqueueing (e : Env) (input : WaitInput) (choice : Choice) (pc : RegisterPc)
    (hpc : ∀ condition inner, pc ≠ .claim condition inner) :
    (handleWaitForChange e c t r input choice pc).2.Running fun pc' =>
      (WaitThread.register r input pc').enqueueing = false := by
  cases pc with
  | claim condition inner => exact absurd rfl (hpc condition inner)
  | _ =>
    all_goals
      simp only [handleWaitForChange, call]
      (repeat' split) <;> first | rfl | trivial

theorem advanceThread_paired (hpc : th.PcOk) (hok : StageOk c.view th.stage)
    (hstep : advanceThread e c t choice th = some (c', th')) (h : Paired t c.calls th.enqueueing) :
    Paired t c'.calls th'.enqueueing := by
  -- Outside a claim neither count changes and no thread comes to queue the item.
  have hother : th.exchanging = none → th.enqueueing = false → th'.enqueueing = false →
      Paired t c'.calls th'.enqueueing := by
    intro hexchanging henqueueing hafter
    obtain ⟨henq, hsch⟩ := (advanceThread_effect hpc hok hstep).unpaired t (.inr ⟨hexchanging, henqueueing⟩)
    rw [henqueueing] at h
    unfold Paired at *
    rw [hafter, show enqueues t c'.calls = _ from henq, show schedules t c'.calls = _ from hsch]
    exact h
  cases th with
  | idle => simp [advanceThread] at hstep
  | register r input pc =>
    by_cases hclaim : ∃ condition inner, pc = .claim condition inner
    · obtain ⟨condition, inner, rfl⟩ := hclaim
      obtain ⟨rfl, rfl⟩ := Prod.mk.inj (Option.some.inj hstep)
      have hinner : Paired t c.calls (inner == .enqueue) := by cases inner <;> exact h
      have hpaired := claimWait_paired e condition (some r) hinner
      simp only [handleWaitForChange, call]
      cases hflow : (claimWaitForPassiveCompletion e c t condition (some r) inner).2 with
      | run pc' =>
        rw [hflow] at hpaired
        cases pc' <;> exact hpaired
      | ret value =>
        rw [hflow] at hpaired
        exact hpaired
    · have hne : ∀ condition inner, pc ≠ .claim condition inner := fun condition inner heq =>
        hclaim ⟨condition, inner, heq⟩
      refine hother ?_ ?_ ?_
      · cases pc <;> first | rfl | exact absurd rfl (hne _ _)
      · cases pc <;> first | rfl | exact absurd rfl (hne _ _)
      · obtain ⟨-, rfl⟩ := Prod.mk.inj (Option.some.inj hstep)
        exact (handleWaitForChange_enqueueing e input choice pc hne).resume
          (P := fun th => th.enqueueing = false) (fun _ => id) fun _ => rfl
  | cancel r pc =>
    refine hother rfl rfl ?_
    obtain ⟨-, rfl⟩ := Prod.mk.inj (Option.some.inj hstep)
    cases (cancelWaitFromWdf c r pc).2 <;> rfl
  | worker pc =>
    refine hother rfl rfl ?_
    obtain ⟨-, rfl⟩ := Prod.mk.inj (Option.some.inj hstep)
    cases (workerRound e c choice pc).2 with
    | run pc' => rfl
    | ret took => cases took <;> rfl
  | workerRest =>
    refine hother rfl rfl ?_
    obtain ⟨-, rfl⟩ := Prod.mk.inj (Option.some.inj hstep)
    split <;> rfl
  | teardown expected pc =>
    refine hother rfl rfl ?_
    obtain ⟨-, rfl⟩ := Prod.mk.inj (Option.some.inj hstep)
    cases (cancelWaitRequestForTeardown c expected choice pc).2 <;> rfl
  | claim condition expected pc =>
    obtain ⟨rfl, rfl⟩ := Prod.mk.inj (Option.some.inj hstep)
    have hinner : Paired t c.calls (pc == .enqueue) := by cases pc <;> exact h
    have hpaired := claimWait_paired e condition expected hinner
    cases hflow : (claimWaitForPassiveCompletion e c t condition expected pc).2 with
    | run pc' =>
      rw [hflow] at hpaired
      cases pc' <;> exact hpaired
    | ret value =>
      rw [hflow] at hpaired
      exact hpaired

/-- A step in which every thread that starts was idle, and no claim is made. -/
theorem paired_start {x : WaitThread} (h : ∀ u, Paired u s.core.calls (s.thr u).enqueueing)
    (hidle : s.thr t = .idle) (hthr : s'.thr = Function.update s.thr t x) (hx : x.enqueueing = false)
    (hcalls : ∀ u, enqueues u s'.core.calls = enqueues u s.core.calls
      ∧ schedules u s'.core.calls = schedules u s.core.calls) (u : ThreadId) :
    Paired u s'.core.calls (s'.thr u).enqueueing := by
  have hu := h u
  unfold Paired at *
  rw [(hcalls u).1, (hcalls u).2, hthr]
  by_cases hut : u = t
  · subst hut
    rw [Function.update_self, hx]
    simpa [hidle, WaitThread.enqueueing] using hu
  · rw [Function.update_of_ne hut]
    exact hu

theorem WaitReach.paired (h : WaitReach s) (t : ThreadId) : Paired t s.core.calls (s.thr t).enqueueing := by
  refine Reach.invariant (P := fun s => ∀ t, Paired t s.core.calls (s.thr t).enqueueing)
    (fun s hinit t => ?_) (fun s a s' hr hpaired _ hstep => ?_) h t
  · obtain ⟨hcore, -, hidle⟩ := hinit
    rw [hcore, hidle t]
    rfl
  · have hinv := WaitReach.inv hr
    cases stepWait_cases hstep with
    | environment | queueWork | owe => exact hpaired
    | start lock hidle hstart =>
      cases hstart <;> exact paired_start hpaired hidle rfl rfl fun _ => ⟨rfl, rfl⟩
    | @advance t choice c th hth =>
      intro u
      show Paired u c.calls (Function.update s.thr t th u).enqueueing
      by_cases hu : u = t
      · subst hu
        rw [Function.update_self]
        exact advanceThread_paired (hinv.pcs u) (hinv.own.stage u) hth (hpaired u)
      · rw [Function.update_of_ne hu]
        have heffect := advanceThread_effect (hinv.pcs t) (hinv.own.stage t) hth
        obtain ⟨henq, hsch⟩ := heffect.unpaired u (.inl hu)
        have hold := hpaired u
        unfold Paired at *
        rw [show enqueues u c.calls = _ from henq, show schedules u c.calls = _ from hsch]
        exact hold

/-! ### The answer to a wait -/

theorem within_claimedBits {u : ThreadId} {calls : List Call} (h : .claim u (some r) bits pending ∈ calls) :
    Within bits (claimedBits r calls) := by
  induction calls with
  | nil => simp at h
  | cons call calls ih =>
    rcases List.mem_cons.mp h with rfl | hin
    · simp only [claimedBits, if_true]
      exact within_or_left bits _
    · have hold := ih hin
      cases call with
      | claim v q bits' pending' =>
        cases q with
        | none => exact hold
        | some q =>
          simp only [claimedBits]
          split
          · rw [BitVec.or_comm]
            exact hold.trans (within_or_left _ _)
          · exact hold
      | _ => all_goals exact hold

/-- With fewer than `2 ^ 47` registrations, every request completed with `STATUS_SUCCESS` reports the
union of the bits claimed for it and of the part of its interest the worker found ready; that mask is
not empty, was asked for, and misses no bit a claim on the request contributed. A claim queues the work
item once for each time it moved the record from pending to scheduled. -/
theorem wait_masks_exact (h : WaitReach s) (hbound : s.core.registrations < 2 ^ 47) :
    (∀ r satisfied, .complete r statusSuccess satisfied ∈ s.core.calls →
      ∃ mask, satisfied = some mask ∧ mask ≠ 0
        ∧ (∀ interest, .dispatch r interest ∈ s.core.calls → Within mask interest)
        ∧ (∀ t bits pending, .claim t (some r) bits pending ∈ s.core.calls → Within bits mask)
        ∧ ∃ interest ready, .dispatch r interest ∈ s.core.calls ∧ .refresh r ready ∈ s.core.calls
          ∧ mask = claimedBits r s.core.calls ||| (ready &&& interest))
    ∧ ∀ t, enqueues t s.core.calls + (s.thr t).enqueueing.toNat = schedules t s.core.calls := by
  have hinv := h.masks hbound
  refine ⟨fun r satisfied hdone => ?_, h.paired⟩
  cases satisfied with
  | none => exact absurd hdone (hinv.masked r)
  | some mask =>
    obtain ⟨interest, ready, hasked, hready, hmask, hne, hwithin⟩ := hinv.answers r mask hdone
    refine ⟨mask, rfl, ?_, fun other hother => ?_, fun t bits pending hclaim => ?_,
      interest, ready, hasked, hready, hmask⟩
    · rw [hmask]
      exact or_ne_zero hne
    · rw [hmask, hinv.asked r other interest hother hasked]
      exact hwithin.or (within_and_right _ _)
    · rw [hmask]
      exact (within_claimedBits hclaim).trans (within_or_left _ _)

/-- Request 7 is registered, a frame is captured and claimed for by thread 1, and the worker on thread 2
completes the request. -/
def answeredWait : WaitWorld :=
  waitSystem.after (.initial openEnv)
    (.register 0 7 readableInput :: List.replicate 29 (.advance 0 none)
      ++ .environment { openEnv with readable := true } :: .claim 1 adaptiveInterestReadable none
      :: List.replicate 6 (.advance 1 none) ++ .work 2 :: List.replicate 21 (.advance 2 none))

theorem wait_masks_exact_answered :
    .complete 7 statusSuccess (some adaptiveInterestReadable) ∈ answeredWait.core.calls
      ∧ Within adaptiveInterestReadable adaptiveInterestReadable := by
  have hdone : .complete 7 statusSuccess (some adaptiveInterestReadable) ∈ answeredWait.core.calls := by
    decide +kernel
  obtain ⟨mask, hmask, -, hasked, -⟩ := (wait_masks_exact (s := answeredWait)
    (System.reach_after (waitReach_initial openEnv) _) (by decide +kernel)).1 7 _ hdone
  refine ⟨hdone, ?_⟩
  rw [Option.some.inj hmask]
  exact Option.some.inj hmask ▸ hasked adaptiveInterestReadable (by decide +kernel)

end WinTap

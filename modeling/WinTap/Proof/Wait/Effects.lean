import WinTap.Proof.Wait.Refinement

/-!
# What the steps do to the record

Ownership forgets the packed word. The `Ledger` keeps it, with the interest, the slot and the history,
and an `Effect` is what one step of the protocol may do to it. The word changes in four ways: a
registration begins and advances the sequence, a transition changes the state and nothing else, a claim
adds readiness bits, and the owner that retires the record advances the sequence again. Who owns the
record is the only one to write the interest and the slot.
-/

namespace WinTap

structure Ledger where
  word : Word
  registrations : Nat
  interest : Mask
  slot : Option Request
  workQueued : Bool
  calls : List Call

def Core.ledger (c : Core) : Ledger where
  word := c.waitState
  registrations := c.registrations
  interest := c.waitInterest
  slot := c.waitRequest
  workQueued := c.workQueued
  calls := c.calls

/-- A call that says nothing of masks, claims or the work item. -/
def Call.plain : Call → Bool
  | .dispatch .. | .claim .. | .enqueue _ | .complete _ _ (some _) => false
  | .complete _ status none => status ≠ statusSuccess
  | .unmark _ | .refresh .. => true

theorem plain_complete {status : NtStatus} (r : Request) (h : status ≠ statusSuccess) :
    (Call.complete r status none).plain = true := decide_eq_true h

/-- The transitions of `transition_wait_record`, but for the one that makes a registration pending. -/
def Shift (source target : BitVec 8) : Prop :=
  (source = waitRegistering ∧ (target = waitTeardown ∨ target = waitCancelled))
    ∨ (source = waitTeardown ∧ (target = waitUnmarking ∨ target = waitCancelled))
    ∨ ((source = waitPending ∨ source = waitScheduled)
      ∧ (target = waitUnmarking ∨ target = waitCancelled))

/-! ### What a thread is about to write -/

def ClaimPc.exchanging : ClaimPc → Option (Word × Mask)
  | .exchange observed satisfied => some (observed, satisfied)
  | _ => none

def FinishPc.storing : FinishPc → Option Word
  | .store observed => some observed
  | _ => none

def UnmarkPc.storing : UnmarkPc → Option Word
  | .finish pc _ => pc.storing
  | _ => none

/-- The word and the bits of the claim a thread is about to exchange. -/
def WaitThread.exchanging : WaitThread → Option (Word × Mask)
  | .register _ _ (.claim _ pc) | .claim _ _ pc => pc.exchanging
  | _ => none

/-- The thread is about to queue the work item for a claim. -/
def WaitThread.enqueueing : WaitThread → Bool
  | .register _ _ (.claim _ .enqueue) | .claim _ _ .enqueue => true
  | _ => false

/-- The word whose sequence a thread is about to advance. -/
def WaitThread.storing : WaitThread → Option Word
  | .register _ _ (.finish pc _) | .cancel _ (.finish pc) => pc.storing
  | .register _ _ (.unmark pc) | .worker (.unmark _ _ _ pc) | .teardown _ (.unmark _ pc) => pc.storing
  | _ => none

/-- The request a thread is about to complete successfully, and the mask. -/
def WaitThread.answering : WaitThread → Option (Request × Mask)
  | .worker (.unmark r status satisfied (.complete .response)) =>
    if status = statusSuccess then some (r, satisfied) else none
  | _ => none

/-- What a step of a thread may do to the ledger. -/
inductive Effect (t : ThreadId) (m : Ledger) (th : WaitThread) : Ledger → Prop
  | quiet : Effect t m th m
  | note (call : Call) : call.plain = true → Effect t m th { m with calls := call :: m.calls }
  | respond (r : Request) (mask : Mask) : th.answering = some (r, mask) →
      Effect t m th { m with calls := .complete r statusSuccess (some mask) :: m.calls }
  | begin (r : Request) : th.stage = .dispatched r → waitRecordState m.word = waitFree →
      Effect t m th { m with
        word := waitRecordWord (waitRecordSequence m.word + 1) 0 waitRegistering
        registrations := m.registrations + 1 }
  | publish (r : Request) : th.stage = .begun r → m.slot = none →
      Effect t m th { m with slot := some r }
  | interest (interest : Mask) : th.stage.owns = true → Effect t m th { m with interest := interest }
  | pend (r : Request) : th.stage = .marked r → waitRecordState m.word = waitRegistering →
      Effect t m th { m with word := shiftedWord m.word waitPending }
  | shift (target : BitVec 8) : Shift (waitRecordState m.word) target →
      Effect t m th { m with word := shiftedWord m.word target }
  | claim (bits : Mask) : th.exchanging = some (m.word, bits) →
      waitRecordState m.word = waitPending ∨ waitRecordState m.word = waitScheduled →
      Effect t m th { m with
        word := claimedWord m.word bits
        calls := .claim t m.slot bits (decide (waitRecordState m.word = waitPending)) :: m.calls }
  | enqueue : th.enqueueing = true → Effect t m th { m with workQueued := true, calls := .enqueue t :: m.calls }
  | unpublish (r : Request) (completes : Bool) : th.stage = .finishing r .slot completes →
      Effect t m th { m with slot := none }
  | retire (r : Request) (completes : Bool) (observed : Word) :
      th.stage = .finishing r .record completes → th.storing = some observed →
      Effect t m th { m with word := waitRecordWord (waitRecordSequence observed + 1) 0 waitFree }

/-! ### The routines have these effects -/

variable {c : Core} {r : Request} {t : ThreadId} {th : WaitThread}

theorem finishWait_effect {pc : FinishPc} {completes : Bool}
    (hstage : th.stage = .finishing r pc.stage completes) (hstoring : th.storing = pc.storing) :
    Effect t c.ledger th (finishWait c pc).1.ledger := by
  cases pc with
  | interest =>
    refine .interest 0 ?_
    rw [hstage]
    rfl
  | request => exact .unpublish r completes hstage
  | store observed => exact .retire r completes observed hstage hstoring
  | _ => all_goals exact .quiet

theorem unmarkCancelable_ledger (choice : Choice) :
    (unmarkCancelable c r choice).1.ledger = { c.ledger with calls := .unmark r :: c.calls } := by
  unfold unmarkCancelable
  cases c.cancel r with
  | marked =>
    cases choice with
    | none => rfl
    | some status =>
      dsimp only
      split <;> rfl
  | _ => all_goals rfl

theorem unmarkAndCompleteWait_effect {terminalStatus : NtStatus} {satisfied : Mask} {choice : Choice}
    {pc : UnmarkPc} (hpc : pc.Ok) (hstage : th.stage = pc.stage r) (hstoring : th.storing = pc.storing)
    (hanswer : terminalStatus = statusSuccess → pc = .complete .response →
      th.answering = some (r, satisfied)) :
    Effect t c.ledger th (unmarkAndCompleteWait c r terminalStatus satisfied choice pc).1.ledger := by
  cases pc with
  | unmark =>
    simp only [unmarkAndCompleteWait, unmarkCancelable_ledger]
    exact .note (.unmark r) rfl
  | handoff => exact .quiet
  | finish pc completion => exact finishWait_effect hstage hstoring
  | complete completion =>
    cases completion with
    | response =>
      simp only [unmarkAndCompleteWait, completeWaitResponse]
      split
      · rename_i hstatus
        exact .note _ (plain_complete r hstatus)
      · rename_i hstatus
        cases choice with
        | none => exact .respond r satisfied (hanswer (not_not.mp hstatus) rfl)
        | some outputStatus =>
          refine .note _ (plain_complete r ?_)
          split
          · decide
          · assumption
    | status status => exact .note _ (plain_complete r hpc)

theorem claimWait_effect {e : Env} {condition : Mask} {expected : Option Request} {pc : ClaimPc}
    (hpc : pc.Ok) (hexchanging : th.exchanging = pc.exchanging)
    (henqueue : pc = .enqueue → th.enqueueing = true) :
    Effect t c.ledger th (claimWaitForPassiveCompletion e c t condition expected pc).1.ledger := by
  cases pc with
  | exchange observed satisfied =>
    simp only [claimWaitForPassiveCompletion]
    split
    · rename_i hsame
      subst hsame
      exact .claim satisfied hexchanging hpc
    · exact .quiet
  | enqueue => exact .enqueue (henqueue rfl)
  | _ => all_goals exact .quiet

theorem handleWaitForChange_effect (e : Env) (input : WaitInput) (choice : Choice) (pc : RegisterPc)
    (hpc : pc.Ok) :
    Effect t c.ledger (.register r input pc) (handleWaitForChange e c t r input choice pc).1.ledger := by
  cases pc with
  | «begin» pc =>
    rcases beginWaitRecord_cases c pc hpc with ⟨pc', -, heq⟩ | heq | ⟨hfree, heq⟩
    · simp only [handleWaitForChange, heq, call_run]
      exact .quiet
    · simp only [handleWaitForChange, heq, call_ret]
      exact .quiet
    · simp only [handleWaitForChange, heq, call_ret]
      exact .begin r rfl hfree
  | publish =>
    simp only [handleWaitForChange]
    split
    · rename_i hslot
      exact .publish r rfl hslot
    · exact .quiet
  | storeInterest => exact .interest input.interest rfl
  | mark =>
    simp only [handleWaitForChange]
    cases choice with
    | none => exact .quiet
    | some status =>
      simp only [markCancelableEx]
      split <;> exact .quiet
  | toPending pc =>
    rcases transitionWaitRecord_cases c waitRegistering waitPending pc hpc with
      ⟨pc', -, heq⟩ | ⟨-, heq⟩ | ⟨hstate, heq⟩
    · simp only [handleWaitForChange, heq, call_run]
      exact .quiet
    · simp only [handleWaitForChange, heq, call_ret]
      exact .quiet
    · simp only [handleWaitForChange, heq, call_ret]
      exact .pend r rfl hstate
  | claim condition pc => exact claimWait_effect hpc rfl fun h => by rw [h]; rfl
  | toUnmarking pc =>
    rcases transitionWaitRecord_cases c waitTeardown waitUnmarking pc hpc with
      ⟨pc', -, heq⟩ | ⟨-, heq⟩ | ⟨hstate, heq⟩
    · simp only [handleWaitForChange, heq, call_run]
      exact .quiet
    · simp only [handleWaitForChange, heq, call_ret]
      exact .quiet
    · simp only [handleWaitForChange, heq, call_ret]
      exact .shift waitUnmarking (.inr (.inl ⟨hstate, .inl rfl⟩))
  | unmark pc =>
    exact unmarkAndCompleteWait_effect (r := r) hpc rfl rfl fun hstatus => absurd hstatus (by decide)
  | finish pc status => exact finishWait_effect (r := r) rfl rfl
  | complete status => exact .note _ (plain_complete r hpc)
  | _ => all_goals exact .quiet

theorem cancelWaitFromWdf_effect (pc : CancelPc) (hpc : pc.Ok) :
    Effect t c.ledger (.cancel r pc) (cancelWaitFromWdf c r pc).1.ledger := by
  cases pc with
  | transition source pc =>
    obtain ⟨hpc, hsource⟩ := hpc
    rcases transitionWaitRecord_cases c source waitCancelled pc hpc with
      ⟨pc', -, heq⟩ | ⟨-, heq⟩ | ⟨hstate, heq⟩
    · simp only [cancelWaitFromWdf, heq, call_run]
      exact .quiet
    · simp only [cancelWaitFromWdf, heq, call_ret]
      exact .quiet
    · simp only [cancelWaitFromWdf, heq, call_ret]
      refine .shift waitCancelled ?_
      show Shift (waitRecordState c.waitState) _
      rw [hstate]
      unfold Shift
      tauto
  | finish pc => exact finishWait_effect (r := r) rfl rfl
  | complete => exact .note _ (plain_complete r (by decide))
  | _ => all_goals exact .quiet

theorem cancelWaitRequestForTeardown_effect (expected : Option Request) (choice : Choice)
    (pc : TeardownPc) (hpc : pc.Ok) (hok : StageOk c.view pc.stage) :
    Effect t c.ledger (.teardown expected pc)
      (cancelWaitRequestForTeardown c expected choice pc).1.ledger := by
  cases pc with
  | transition observed pc =>
    obtain ⟨hpc, hobserved⟩ := hpc
    rcases transitionWaitRecord_cases c observed
        (if observed = waitRegistering then waitTeardown else waitUnmarking) pc hpc with
      ⟨pc', -, heq⟩ | ⟨-, heq⟩ | ⟨hstate, heq⟩
    · simp only [cancelWaitRequestForTeardown, heq, call_run]
      exact .quiet
    · simp only [cancelWaitRequestForTeardown, heq, call_ret]
      exact .quiet
    · simp only [cancelWaitRequestForTeardown, heq, call_ret]
      refine .shift _ ?_
      show Shift (waitRecordState c.waitState) _
      rw [hstate]
      unfold Shift
      rcases hobserved with rfl | rfl | rfl
      · exact .inl ⟨rfl, .inl rfl⟩
      · exact .inr (.inr ⟨.inl rfl, .inl rfl⟩)
      · exact .inr (.inr ⟨.inr rfl, .inl rfl⟩)
  | finish => exact hok.elim
  | unmark q pc =>
    exact unmarkAndCompleteWait_effect (r := q) hpc rfl rfl fun hstatus => absurd hstatus (by decide)
  | _ => all_goals exact .quiet

theorem workerRound_effect (e : Env) (choice : Choice) (pc : WorkerPc) (hpc : pc.Ok)
    (hok : StageOk c.view pc.stage) :
    Effect t c.ledger (.worker pc) (workerRound e c choice pc).1.ledger := by
  cases pc with
  | take pc =>
    rcases transitionWaitRecord_cases c waitScheduled waitUnmarking pc hpc with
      ⟨pc', -, heq⟩ | ⟨-, heq⟩ | ⟨hstate, heq⟩
    · simp only [workerRound, heq, call_run]
      exact .quiet
    · simp only [workerRound, heq, call_ret]
      exact .quiet
    · simp only [workerRound, heq, call_ret]
      exact .shift waitUnmarking (.inr (.inr ⟨.inr hstate, .inl rfl⟩))
  | finish => exact hok.elim
  | snapshot q claimed interest pc =>
    simp only [workerRound]
    cases readinessSnapshot e pc with
    | run pc' => exact .quiet
    | ret value => exact .note (.refresh q value.1) rfl
  | unmark q status satisfied pc =>
    refine unmarkAndCompleteWait_effect (r := q) hpc rfl rfl fun hstatus hresponse => ?_
    subst hstatus hresponse
    rfl
  | _ => all_goals exact .quiet

/-- Every operation of a thread has one of the effects. -/
theorem advanceThread_effect {e : Env} {choice : Choice} {c' : Core} {th' : WaitThread} (hpc : th.PcOk)
    (hok : StageOk c.view th.stage) (hstep : advanceThread e c t choice th = some (c', th')) :
    Effect t c.ledger th c'.ledger := by
  cases th with
  | idle => simp [advanceThread] at hstep
  | register r input pc =>
    obtain ⟨rfl, -⟩ := Prod.mk.inj (Option.some.inj hstep)
    exact handleWaitForChange_effect e input choice pc hpc
  | cancel r pc =>
    obtain ⟨rfl, -⟩ := Prod.mk.inj (Option.some.inj hstep)
    exact cancelWaitFromWdf_effect pc hpc
  | worker pc =>
    obtain ⟨rfl, -⟩ := Prod.mk.inj (Option.some.inj hstep)
    exact workerRound_effect e choice pc hpc hok
  | workerRest =>
    obtain ⟨rfl, -⟩ := Prod.mk.inj (Option.some.inj hstep)
    exact .quiet
  | teardown expected pc =>
    obtain ⟨rfl, -⟩ := Prod.mk.inj (Option.some.inj hstep)
    exact cancelWaitRequestForTeardown_effect expected choice pc hpc hok
  | claim condition expected pc =>
    obtain ⟨rfl, -⟩ := Prod.mk.inj (Option.some.inj hstep)
    exact claimWait_effect hpc rfl fun h => by rw [h]; rfl

end WinTap

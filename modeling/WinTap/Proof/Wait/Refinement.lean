import WinTap.Proof.Wait.Ownership

/-!
# The protocol performs the moves

`Core.view` forgets words, masks and generations, and `WaitThread.stage` forgets everything of a program
counter except what the thread is responsible for. Every step of `waitSystem` is then one `Move`, so the
ownership invariant holds in every interleaving. A loop of loads and compare-exchanges is a sequence of
moves that keep everything, up to the exchange that succeeds.

Of the local variables `PcOk` is needed: the word an exchange compares with was in the state the
transition starts from, and a status that a request is going to fail with is a failure.
-/

namespace WinTap

open Machine

variable {r : Request} {state : RecordState}

/-! ### The view of the shared state -/

def RecordState.ofCode (code : BitVec 8) : RecordState :=
  if code = waitRegistering then .registering
  else if code = waitPending then .pending
  else if code = waitScheduled then .scheduled
  else if code = waitUnmarking then .unmarking
  else if code = waitTeardown then .teardown
  else if code = waitCancelled then .cancelled
  else .free

@[simp] theorem RecordState.ofCode_code (state : RecordState) : ofCode state.code = state := by
  cases state <;> rfl

def Call.completes (r : Request) : Call → Bool
  | .complete q _ _ => q == r
  | _ => false

def Call.unmarks (r : Request) : Call → Bool
  | .unmark q => q == r
  | _ => false

/-- How often a request was completed. -/
def Core.completions (c : Core) (r : Request) : Nat := c.calls.countP (Call.completes r)

/-- How often a request was passed to the unmark. -/
def Core.unmarks (c : Core) (r : Request) : Nat := c.calls.countP (Call.unmarks r)

/-- In this history, newest first, no request was unmarked after it was completed. -/
def Orderly : List Call → Prop
  | [] => True
  | .unmark r :: earlier => earlier.countP (Call.completes r) = 0 ∧ Orderly earlier
  | _ :: earlier => Orderly earlier

def Core.view (c : Core) : View where
  state := .ofCode (waitRecordState c.waitState)
  slot := c.waitRequest
  handoff := c.waitCancelHandoff
  cancel := c.cancel
  completions := c.completions
  unmarks := c.unmarks
  orderly := Orderly c.calls

theorem orderly_cons_of_not_unmark {call : Call} (h : ∀ r, call.unmarks r = false) (calls : List Call) :
    Orderly (call :: calls) = Orderly calls := by
  cases call with
  | unmark r => simpa [Call.unmarks] using h r
  | _ => rfl

theorem view_completeRequest (c : Core) (r : Request) (status : NtStatus) :
    (completeRequest c r status).view = c.view.complete r := by
  simp only [completeRequest, Core.view, View.complete, View.mk.injEq, true_and]
  refine ⟨?_, ?_, orderly_cons_of_not_unmark (fun _ => rfl) c.calls⟩
  · funext q
    by_cases hq : q = r
    · subst hq
      simp [Core.completions, Call.completes]
    · simp [Core.completions, Call.completes, Function.update_of_ne hq, Ne.symm hq]
  · funext q
    simp [Core.unmarks, Call.unmarks]

/-- A call that neither completes nor unmarks leaves the view alone. -/
theorem view_note (c : Core) (call : Call) (h : ∀ r, call.completes r = false ∧ call.unmarks r = false) :
    Core.view { c with calls := call :: c.calls } = c.view := by
  simp only [Core.view, View.mk.injEq, true_and]
  refine ⟨?_, ?_, orderly_cons_of_not_unmark (fun r => (h r).2) c.calls⟩
  · funext q
    simp [Core.completions, (h q).1]
  · funext q
    simp [Core.unmarks, (h q).2]

theorem view_unmarked (c : Core) (r : Request) :
    Core.view { c with calls := .unmark r :: c.calls } = c.view.unmark r := by
  simp only [Core.view, View.unmark, View.mk.injEq, true_and]
  refine ⟨?_, ?_, rfl⟩
  · funext q
    simp [Core.completions, Call.completes]
  · funext q
    by_cases hq : q = r
    · subst hq
      simp [Core.unmarks, Call.unmarks]
    · simp [Core.unmarks, Call.unmarks, Function.update_of_ne hq, Ne.symm hq]

theorem view_completeWaitResponse (c : Core) (r : Request) (status : NtStatus) (satisfied : Mask)
    (choice : Choice) : (completeWaitResponse c r status satisfied choice).view = c.view.complete r := by
  unfold completeWaitResponse
  split
  · exact view_completeRequest c r status
  · split
    · exact view_completeRequest c r statusSuccess
    · exact view_completeRequest c r _

/-! ### The stage of a thread -/

def FinishPc.stage : FinishPc → FinishStage
  | .interest | .captureGeneration | .injectionGeneration | .handoff => .handoff
  | .request => .slot
  | .load | .store _ => .record

def UnmarkPc.stage (r : Request) : UnmarkPc → Stage
  | .unmark => .unmarking (some r)
  | .handoff => .swapping r
  | .finish pc _ => .finishing r pc.stage true
  | .complete _ => .completing r

def RegisterPc.stage (r : Request) : RegisterPc → Stage
  | .validate | .lifecycle | .started _ | .adaptive | .begin _ => .dispatched r
  | .publish => .begun r
  | .snapshot _ | .storeInterest .. | .storeCapture .. | .storeInjection _ | .storeHandoff
  | .recheckLifecycle | .recheckAdaptive | .recheckStarted _ | .mark => .published r
  | .toPending _ => .marked r
  | .resnapshot _ | .loadCapture .. | .loadInjection .. | .claim .. => .none
  | .toUnmarking _ => .torn r
  | .unmark pc => pc.stage r
  | .finish pc status => .finishing r pc.stage status.isSome
  | .complete _ => .completing r

def CancelPc.stage (r : Request) : CancelPc → Stage
  | .active | .load | .transition .. => .cancelling r false
  | .handoff => .cancelling r true
  | .finish pc => .finishing r pc.stage true
  | .complete => .completing r

def TeardownPc.stage : TeardownPc → Stage
  | .load | .request _ | .transition .. => .none
  | .reread => .unmarking none
  | .finish _ => .lost
  | .unmark r pc => pc.stage r

def WorkerPc.stage : WorkerPc → Stage
  | .take _ => .none
  | .request _ => .unmarking none
  | .finish _ => .lost
  | .interest r _ | .snapshot r .. | .loadInterest r _ | .lifecycle r .. | .started r .. =>
    .unmarking (some r)
  | .unmark r _ _ pc => pc.stage r

def WaitThread.stage : WaitThread → Stage
  | .idle | .workerRest | .claim .. => .none
  | .register r _ pc => pc.stage r
  | .cancel r pc => pc.stage r
  | .worker pc => pc.stage
  | .teardown _ pc => pc.stage

/-- The thread that is about to make a registration pending. -/
theorem WaitThread.eq_of_marked {th : WaitThread} (hstage : th.stage = .marked r) :
    ∃ input pc, th = .register r input (.toPending pc) := by
  cases th with
  | register q input pc =>
    cases pc with
    | toPending pc =>
      obtain rfl : q = r := by simpa [WaitThread.stage, RegisterPc.stage] using hstage
      exact ⟨input, pc, rfl⟩
    | unmark pc => cases pc <;> simp [WaitThread.stage, RegisterPc.stage, UnmarkPc.stage] at hstage
    | _ => all_goals simp [WaitThread.stage, RegisterPc.stage] at hstage
  | cancel q pc => cases pc <;> simp [WaitThread.stage, CancelPc.stage] at hstage
  | worker pc =>
    cases pc with
    | unmark q status mask pc =>
      cases pc <;> simp [WaitThread.stage, WorkerPc.stage, UnmarkPc.stage] at hstage
    | _ => all_goals simp [WaitThread.stage, WorkerPc.stage] at hstage
  | teardown expected pc =>
    cases pc with
    | unmark q pc => cases pc <;> simp [WaitThread.stage, TeardownPc.stage, UnmarkPc.stage] at hstage
    | _ => all_goals simp [WaitThread.stage, TeardownPc.stage] at hstage
  | idle | workerRest | claim => all_goals simp [WaitThread.stage] at hstage

/-- The stage after a step of a routine that leaves nothing behind when it returns. -/
def Flow.stage {π ρ : Type} (stage : π → Stage) : Flow π ρ → Stage
  | .run pc => stage pc
  | .ret _ => .none

/-! ### What the program counters remember -/

/-- The word an exchange compares with was in the state the transition starts from. -/
def TransitionPc.Ok (source : BitVec 8) : TransitionPc → Prop
  | .load => True
  | .exchange observed => waitRecordState observed = source

def ClaimPc.Ok : ClaimPc → Prop
  | .request observed | .interest observed | .exchange observed _ =>
    waitRecordState observed = waitPending ∨ waitRecordState observed = waitScheduled
  | .enabled | .load | .enqueue => True

/-- A status that is not the one of a response is a failure. -/
def UnmarkPc.Ok : UnmarkPc → Prop
  | .finish _ (.status status) | .complete (.status status) => status ≠ statusSuccess
  | _ => True

def RegisterPc.Ok : RegisterPc → Prop
  | .begin pc => pc.Ok waitFree
  | .toPending pc => pc.Ok waitRegistering
  | .toUnmarking pc => pc.Ok waitTeardown
  | .claim _ pc => pc.Ok
  | .unmark pc => pc.Ok
  | .finish _ (some status) | .complete status => status ≠ statusSuccess
  | _ => True

def CancelPc.Ok : CancelPc → Prop
  | .transition source pc => pc.Ok source ∧ (source = waitRegistering ∨ source = waitTeardown
      ∨ source = waitPending ∨ source = waitScheduled)
  | _ => True

def TeardownPc.Ok : TeardownPc → Prop
  | .request observed =>
    observed = waitRegistering ∨ observed = waitPending ∨ observed = waitScheduled
  | .transition observed pc => pc.Ok observed
      ∧ (observed = waitRegistering ∨ observed = waitPending ∨ observed = waitScheduled)
  | .unmark _ pc => pc.Ok
  | _ => True

def WorkerPc.Ok : WorkerPc → Prop
  | .take pc => pc.Ok waitScheduled
  | .unmark _ _ _ pc => pc.Ok
  | _ => True

def WaitThread.PcOk : WaitThread → Prop
  | .idle | .workerRest => True
  | .register _ _ pc => pc.Ok
  | .cancel _ pc => pc.Ok
  | .worker pc => pc.Ok
  | .teardown _ pc => pc.Ok
  | .claim _ _ pc => pc.Ok

/-- A property of the program counter a routine is left at, if it is still running. -/
def Flow.Running {π ρ : Type} (ok : π → Prop) : Flow π ρ → Prop
  | .run pc => ok pc
  | .ret _ => True

/-- A routine left inside a called one. -/
theorem Flow.Running.call {κ π ρ π' ρ' : Type} {ok : π → Prop} {ok' : π' → Prop} {step : κ × Flow π ρ}
    {inside : π → π'} {after : ρ → Flow π' ρ'} (h : step.2.Running ok) (hinside : ∀ pc, ok pc → ok' (inside pc))
    (hafter : ∀ value, (after value).Running ok') : (WinTap.call step inside after).2.Running ok' := by
  obtain ⟨result, flow⟩ := step
  cases flow with
  | run pc => exact hinside pc h
  | ret value => exact hafter value

/-- A program counter after a call is one inside it, or one after its return. -/
theorem Flow.running_call {κ π ρ π' ρ' : Type} {ok : π' → Prop} {step : κ × Flow π ρ} {inside : π → π'}
    {after : ρ → Flow π' ρ'} (hinside : ∀ pc, ok (inside pc)) (hafter : ∀ value, (after value).Running ok) :
    (call step inside after).2.Running ok := by
  have hstep : step.2.Running fun _ => True := by cases step.2 <;> trivial
  exact hstep.call (fun pc _ => hinside pc) hafter

/-- A thread left inside its routine, or after it. -/
theorem Flow.Running.resume {π ρ : Type} {ok : π → Prop} {P : WaitThread → Prop} {result : Core × Flow π ρ}
    {thread : π → WaitThread} {after : ρ → WaitThread} (h : result.2.Running ok) (hthread : ∀ pc, ok pc → P (thread pc))
    (hafter : ∀ value, P (after value)) : P (WinTap.resume result thread after).2 := by
  obtain ⟨c, flow⟩ := result
  cases flow with
  | run pc => exact hthread pc h
  | ret value => exact hafter value

/-! ### Transitions of the record -/

/-- The word a transition publishes over the one it observed. -/
def shiftedWord (observed : Word) (target : BitVec 8) : Word :=
  waitRecordWord (waitRecordSequence observed) (waitRecordSatisfied observed) target

@[simp] theorem waitRecordState_shifted (observed : Word) (target : BitVec 8) :
    waitRecordState (shiftedWord observed target) = target := waitRecordState_word _ _ target

theorem transitionWaitRecord_cases (c : Core) (source target : BitVec 8) (pc : TransitionPc)
    (hpc : pc.Ok source) :
    (∃ pc' : TransitionPc, pc'.Ok source
      ∧ transitionWaitRecord c source target pc = (c, .run pc'))
    ∨ (waitRecordState c.waitState ≠ source
      ∧ transitionWaitRecord c source target pc = (c, .ret (.error c.waitState)))
    ∨ (waitRecordState c.waitState = source ∧ transitionWaitRecord c source target pc =
      ({ c with waitState := shiftedWord c.waitState target },
        .ret (.ok (shiftedWord c.waitState target)))) := by
  cases pc with
  | load =>
    by_cases hstate : waitRecordState c.waitState = source
    · exact .inl ⟨.exchange c.waitState, hstate, by simp [transitionWaitRecord, hstate]⟩
    · exact .inr (.inl ⟨hstate, by simp [transitionWaitRecord, hstate]⟩)
  | exchange observed =>
    by_cases hsame : c.waitState = observed
    · exact .inr (.inr ⟨hsame ▸ hpc, by simp [transitionWaitRecord, shiftedWord, hsame]⟩)
    · exact .inl ⟨.load, trivial, by simp [transitionWaitRecord, hsame]⟩

theorem beginWaitRecord_cases (c : Core) (pc : TransitionPc) (hpc : pc.Ok waitFree) :
    (∃ pc' : TransitionPc, pc'.Ok waitFree ∧ beginWaitRecord c pc = (c, .run pc'))
    ∨ beginWaitRecord c pc = (c, .ret false)
    ∨ (waitRecordState c.waitState = waitFree ∧ beginWaitRecord c pc =
      ({ c with
          waitState := waitRecordWord (waitRecordSequence c.waitState + 1) 0 waitRegistering
          registrations := c.registrations + 1 }, .ret true)) := by
  cases pc with
  | load =>
    by_cases hstate : waitRecordState c.waitState = waitFree
    · exact .inl ⟨.exchange c.waitState, hstate, by simp [beginWaitRecord, hstate]⟩
    · exact .inr (.inl (by simp [beginWaitRecord, hstate]))
  | exchange observed =>
    by_cases hsame : c.waitState = observed
    · exact .inr (.inr ⟨hsame ▸ hpc, by simp [beginWaitRecord, hsame]⟩)
    · exact .inl ⟨.load, trivial, by simp [beginWaitRecord, hsame]⟩

/-! ### The routines perform moves -/

variable {c : Core}

theorem finishWait_move (c : Core) (r : Request) (pc : FinishPc) (completes : Bool) :
    Move c.view (.finishing r pc.stage completes) (finishWait c pc).1.view
      (match (finishWait c pc).2 with
        | .run pc' => .finishing r pc'.stage completes
        | .ret _ => if completes then .completing r else .none) := by
  cases pc with
  | handoff => exact .clearHandoff c.view r completes
  | request => exact .clearSlot c.view r completes
  | store observed =>
    have hview : (finishWait c (.store observed)).1.view = { c.view with state := .free } := by
      simp only [finishWait, Core.view, waitRecordState_word]
      rfl
    rw [hview]
    cases completes with
    | true => exact .retire c.view r
    | false => exact .retireOnly c.view r
  | _ => all_goals exact .keep c.view _

theorem unmarkCancelable_marked (choice : Choice) (hmarked : c.cancel r = .marked) :
    ∃ status, status ≠ statusCancelled ∧ unmarkCancelable c r choice =
      (setCancel { c with calls := .unmark r :: c.calls } r .cleared, status) := by
  cases choice with
  | none => exact ⟨statusSuccess, by decide, by simp [unmarkCancelable, hmarked]⟩
  | some status =>
    by_cases hcan : status = statusCancelled
    · exact ⟨statusSuccess, by decide, by simp [unmarkCancelable, hmarked, hcan]⟩
    · exact ⟨status, hcan, by simp [unmarkCancelable, hmarked, hcan]⟩

theorem unmarkCancelable_late (choice : Choice) (hlate : c.cancel r = .owed ∨ c.cancel r = .called) :
    unmarkCancelable c r choice = ({ c with calls := .unmark r :: c.calls }, statusCancelled) := by
  rcases hlate with hc | hc <;> simp [unmarkCancelable, hc]

/-- The unmark of the published request by its exclusive owner. -/
theorem unmarkCancelable_move (choice : Choice) (hok : StageOk c.view (.unmarking (some r))) :
    Move c.view (.unmarking (some r)) (unmarkCancelable c r choice).1.view
      (if (unmarkCancelable c r choice).2 = statusCancelled then .swapping r
        else .finishing r .handoff true) := by
  obtain ⟨-, q, -, hknown, -, hcancel, -⟩ := hok
  obtain rfl : q = r := by simpa [eq_comm] using hknown
  rcases hcancel with hmarked | hlate
  · obtain ⟨status, hstatus, heq⟩ := unmarkCancelable_marked choice hmarked
    rw [heq, if_neg hstatus]
    have hview : (setCancel { c with calls := .unmark q :: c.calls } q .cleared).view
        = (c.view.setCancel q .cleared).unmark q := view_unmarked (setCancel c q .cleared) q
    rw [hview]
    exact .unmarked c.view q hmarked
  · rw [unmarkCancelable_late choice hlate, if_pos rfl, view_unmarked]
    exact .unmarkLate c.view q hlate

theorem unmarkAndCompleteWait_move (terminalStatus : NtStatus) (satisfied : Mask) (choice : Choice)
    (pc : UnmarkPc) (hpc : pc.Ok) (hok : StageOk c.view (pc.stage r)) :
    Move c.view (pc.stage r) (unmarkAndCompleteWait c r terminalStatus satisfied choice pc).1.view
        ((unmarkAndCompleteWait c r terminalStatus satisfied choice pc).2.stage (UnmarkPc.stage r))
      ∧ (unmarkAndCompleteWait c r terminalStatus satisfied choice pc).2.Running UnmarkPc.Ok := by
  cases pc with
  | unmark =>
    have hmove := unmarkCancelable_move choice hok
    by_cases hstatus : (unmarkCancelable c r choice).2 = statusCancelled
    · rw [if_pos hstatus] at hmove
      simp only [unmarkAndCompleteWait, hstatus, show statusCancelled ≠ statusSuccess by decide,
        if_false, if_true]
      exact ⟨hmove, trivial⟩
    · rw [if_neg hstatus] at hmove
      simp only [unmarkAndCompleteWait, hstatus, if_false]
      split
      · exact ⟨hmove, trivial⟩
      · rename_i hfailed
        exact ⟨hmove, hfailed⟩
  | handoff =>
    by_cases harrived : c.waitCancelHandoff = .cancelArrived
    · simp only [unmarkAndCompleteWait, harrived, if_true]
      exact ⟨.swapArrived c.view r harrived, show statusCancelled ≠ statusSuccess by decide⟩
    · simp only [unmarkAndCompleteWait, harrived, if_false]
      exact ⟨.swapLeave c.view r harrived, trivial⟩
  | finish pc completion =>
    have hmove := finishWait_move c r pc true
    simp only [unmarkAndCompleteWait, call]
    cases hflow : (finishWait c pc).2 <;>
    · rw [hflow] at hmove
      cases completion <;> exact ⟨hmove, hpc⟩
  | complete completion =>
    cases completion with
    | response =>
      simp only [unmarkAndCompleteWait, view_completeWaitResponse]
      exact ⟨.complete c.view r, trivial⟩
    | status status =>
      simp only [unmarkAndCompleteWait, view_completeRequest]
      exact ⟨.complete c.view r, trivial⟩

theorem waitInputError_failure {input : WaitInput} {status : NtStatus}
    (h : waitInputError input = some status) : status ≠ statusSuccess := by
  unfold waitInputError at h
  split_ifs at h with h1 h2 h3 h4
  · exact Option.some.inj h ▸ (by decide)
  · exact Option.some.inj h ▸ (by decide)
  · exact Option.some.inj h ▸ h3
  · exact Option.some.inj h ▸ (by decide)

/-- The record state of the view, from the word. -/
theorem view_state (h : waitRecordState c.waitState = state.code) : c.view.state = state := by
  simp only [Core.view, h, RecordState.ofCode_code]

/-- Only `WAIT_FREE` also stands for the bytes that are no state. -/
theorem code_of_view_state (h : c.view.state = state) (hne : state ≠ .free) :
    waitRecordState c.waitState = state.code := by
  simp only [Core.view, RecordState.ofCode] at h
  split_ifs at h with h1 h2 h3 h4 h5 h6
  · exact h ▸ h1
  · exact h ▸ h2
  · exact h ▸ h3
  · exact h ▸ h4
  · exact h ▸ h5
  · exact h ▸ h6
  · exact absurd h.symm hne

theorem view_setState {next : Word} (h : waitRecordState next = state.code) :
    Core.view { c with waitState := next } = { c.view with state := state } := by
  simp only [Core.view, h, RecordState.ofCode_code]
  rfl

theorem view_shifted (target : BitVec 8) :
    Core.view { c with waitState := shiftedWord c.waitState target }
      = { c.view with state := .ofCode target } := by
  simp only [Core.view, waitRecordState_shifted]
  rfl

theorem claimWait_move (e : Env) (t : ThreadId) (condition : Mask) (expected : Option Request)
    (pc : ClaimPc) (hpc : pc.Ok) :
    Move c.view .none (claimWaitForPassiveCompletion e c t condition expected pc).1.view .none
      ∧ (claimWaitForPassiveCompletion e c t condition expected pc).2.Running ClaimPc.Ok := by
  cases pc with
  | enabled =>
    refine ⟨.keep _ _, ?_⟩
    simp only [claimWaitForPassiveCompletion]
    split <;> trivial
  | load =>
    refine ⟨.keep _ _, ?_⟩
    simp only [claimWaitForPassiveCompletion]
    split
    · trivial
    · rename_i hstate
      simp only [Flow.Running, ClaimPc.Ok]
      tauto
  | request observed =>
    refine ⟨.keep _ _, ?_⟩
    simp only [claimWaitForPassiveCompletion]
    split
    · trivial
    · exact hpc
  | interest observed =>
    refine ⟨.keep _ _, ?_⟩
    simp only [claimWaitForPassiveCompletion]
    split
    · trivial
    · split
      · trivial
      · exact hpc
  | exchange observed satisfied =>
    simp only [claimWaitForPassiveCompletion]
    split
    · rename_i hsame
      refine ⟨?_, by split <;> trivial⟩
      have hview : Core.view { c with
          waitState := claimedWord observed satisfied
          calls := .claim t c.waitRequest satisfied (decide (waitRecordState observed = waitPending))
            :: c.calls } = { c.view with state := .scheduled } := by
        rw [view_note { c with waitState := claimedWord observed satisfied } _ fun q => ⟨rfl, rfl⟩]
        exact view_setState (waitRecordState_word _ _ _)
      rw [hview]
      refine .schedule c.view ?_
      rcases hpc with hstate | hstate
      · exact .inl (view_state (hsame ▸ hstate))
      · exact .inr (view_state (hsame ▸ hstate))
    · exact ⟨.keep _ _, trivial⟩
  | enqueue =>
    refine ⟨?_, trivial⟩
    simp only [claimWaitForPassiveCompletion]
    rw [view_note { c with workQueued := true } _ fun q => ⟨rfl, rfl⟩]
    exact .keep _ _

theorem markCancelableEx_move (choice : Choice) :
    Move c.view (.published r) (markCancelableEx c r choice).1.view
      (if (markCancelableEx c r choice).2 = statusSuccess then .marked r
        else .finishing r .handoff true) := by
  cases choice with
  | none => exact .mark c.view r
  | some status =>
    by_cases hstatus : status = statusSuccess
    · simp only [markCancelableEx, hstatus, if_true]
      exact .mark c.view r
    · simp only [markCancelableEx, hstatus, if_false]
      exact .markFailed c.view r

theorem handleWaitForChange_move (e : Env) (t : ThreadId) (input : WaitInput) (choice : Choice)
    (pc : RegisterPc) (hpc : pc.Ok) (hok : StageOk c.view (pc.stage r)) :
    Move c.view (pc.stage r) (handleWaitForChange e c t r input choice pc).1.view
        ((handleWaitForChange e c t r input choice pc).2.stage (RegisterPc.stage r))
      ∧ (handleWaitForChange e c t r input choice pc).2.Running RegisterPc.Ok := by
  cases pc with
  | validate =>
    simp only [handleWaitForChange]
    cases hinput : waitInputError input with
    | some status => exact ⟨.reject c.view r, waitInputError_failure hinput⟩
    | none => exact ⟨.keep _ _, trivial⟩
  | lifecycle | adaptive =>
    all_goals
      simp only [handleWaitForChange]
      split
      · exact ⟨.reject c.view r, by simp only [Flow.Running, RegisterPc.Ok]; decide⟩
      · exact ⟨.keep _ _, trivial⟩
  | started pc =>
    simp only [handleWaitForChange, call]
    cases waitInterestQueuesStarted e input.interest pc with
    | run pc' => exact ⟨.keep _ _, trivial⟩
    | ret started =>
      cases started with
      | true => exact ⟨.keep _ _, trivial⟩
      | false => exact ⟨.reject c.view r, show statusDeviceNotReady ≠ statusSuccess by decide⟩
  | «begin» pc =>
    rcases beginWaitRecord_cases c pc hpc with ⟨pc', hpc', heq⟩ | heq | ⟨hfree, heq⟩
    · simp only [handleWaitForChange, heq, call_run]
      exact ⟨.keep _ _, hpc'⟩
    · simp only [handleWaitForChange, heq, call_ret]
      exact ⟨.reject c.view r, show statusDeviceBusy ≠ statusSuccess by decide⟩
    · simp only [handleWaitForChange, heq, call_ret]
      refine ⟨?_, trivial⟩
      have hcode := waitRecordState_word (waitRecordSequence c.waitState + 1) 0 RecordState.registering.code
      have hview := view_setState (c := { c with registrations := c.registrations + 1 }) hcode
      have hmove := Move.begin c.view r (view_state hfree)
      exact hview ▸ hmove
  | publish =>
    have hslot : c.waitRequest = none := hok.2.1
    simp only [handleWaitForChange, hslot, if_true]
    exact ⟨.publish c.view r hslot, trivial⟩
  | snapshot pc =>
    simp only [handleWaitForChange, call]
    cases readinessSnapshot e pc <;> exact ⟨.keep _ _, trivial⟩
  | storeInterest | storeCapture | storeInjection => all_goals exact ⟨.keep _ _, trivial⟩
  | storeHandoff => exact ⟨.resetHandoff c.view r, trivial⟩
  | recheckLifecycle | recheckAdaptive =>
    all_goals
      simp only [handleWaitForChange]
      split
      · exact ⟨.abandon c.view r, show statusCancelled ≠ statusSuccess by decide⟩
      · exact ⟨.keep _ _, trivial⟩
  | recheckStarted pc =>
    simp only [handleWaitForChange, call]
    cases waitInterestQueuesStarted e input.interest pc with
    | run pc' => exact ⟨.keep _ _, trivial⟩
    | ret started =>
      cases started with
      | true => exact ⟨.keep _ _, trivial⟩
      | false => exact ⟨.abandon c.view r, show statusCancelled ≠ statusSuccess by decide⟩
  | mark =>
    have hmove := markCancelableEx_move (c := c) (r := r) choice
    simp only [handleWaitForChange]
    by_cases hstatus : (markCancelableEx c r choice).2 = statusSuccess
    · rw [if_pos hstatus] at hmove
      simp only [hstatus, show statusSuccess ≠ statusCancelled by decide, if_false, ne_eq,
        not_true_eq_false]
      exact ⟨hmove, trivial⟩
    · rw [if_neg hstatus] at hmove
      split
      · exact ⟨hmove, show statusCancelled ≠ statusSuccess by decide⟩
      · exact ⟨hmove, hstatus⟩
  | toPending pc =>
    rcases transitionWaitRecord_cases c waitRegistering waitPending pc hpc with
      ⟨pc', hpc', heq⟩ | ⟨hstate, heq⟩ | ⟨hstate, heq⟩
    · simp only [handleWaitForChange, heq, call_run]
      exact ⟨.keep _ _, hpc'⟩
    · simp only [handleWaitForChange, heq, call_ret]
      have hnot : c.view.state ≠ .registering := fun h => hstate (code_of_view_state h (by simp))
      split
      · rename_i htorn
        exact ⟨.sawTeardown c.view r (view_state htorn), trivial⟩
      · rename_i htorn
        have hnot' : c.view.state ≠ .teardown := fun h => htorn (code_of_view_state h (by simp))
        refine ⟨.sawCancelled c.view _ r (.inl rfl) ?_, trivial⟩
        exact (hok.1.resolve_left hnot).resolve_left hnot'
    · simp only [handleWaitForChange, heq, call_ret]
      refine ⟨?_, trivial⟩
      rw [view_shifted]
      exact .pend c.view r (view_state hstate)
  | resnapshot pc =>
    simp only [handleWaitForChange, call]
    cases readinessSnapshot e pc <;> exact ⟨.keep _ _, trivial⟩
  | loadCapture => exact ⟨.keep _ _, trivial⟩
  | loadInjection =>
    simp only [handleWaitForChange]
    split <;> exact ⟨.keep _ _, trivial⟩
  | claim condition pc =>
    obtain ⟨hmove, hrun⟩ := claimWait_move (c := c) e t condition (some r) pc hpc
    simp only [handleWaitForChange, call]
    cases hflow : (claimWaitForPassiveCompletion e c t condition (some r) pc).2 with
    | run pc' =>
      rw [hflow] at hrun
      exact ⟨hmove, hrun⟩
    | ret value => exact ⟨hmove, trivial⟩
  | toUnmarking pc =>
    rcases transitionWaitRecord_cases c waitTeardown waitUnmarking pc hpc with
      ⟨pc', hpc', heq⟩ | ⟨hstate, heq⟩ | ⟨hstate, heq⟩
    · simp only [handleWaitForChange, heq, call_run]
      exact ⟨.keep _ _, hpc'⟩
    · simp only [handleWaitForChange, heq, call_ret]
      have hnot : c.view.state ≠ .teardown := fun h => hstate (code_of_view_state h (by simp))
      exact ⟨.sawCancelled c.view _ r (.inr rfl) (hok.1.resolve_left hnot), trivial⟩
    · simp only [handleWaitForChange, heq, call_ret]
      refine ⟨?_, trivial⟩
      rw [view_shifted]
      exact .resolveTorn c.view r (view_state hstate)
  | unmark pc =>
    have hmove := unmarkAndCompleteWait_move statusCancelled 0 choice pc hpc hok
    simp only [handleWaitForChange, call]
    cases hflow : (unmarkAndCompleteWait c r statusCancelled 0 choice pc).2 <;>
    · rw [hflow] at hmove
      exact hmove
  | finish pc status =>
    have hmove := finishWait_move c r pc status.isSome
    simp only [handleWaitForChange, call]
    cases hflow : (finishWait c pc).2 <;>
    · rw [hflow] at hmove
      cases status <;> exact ⟨hmove, hpc⟩
  | complete status =>
    simp only [handleWaitForChange, view_completeRequest]
    exact ⟨.complete c.view r, trivial⟩

theorem cancelWaitFromWdf_move (pc : CancelPc) (hpc : pc.Ok) (hok : StageOk c.view (pc.stage r)) :
    Move c.view (pc.stage r) (cancelWaitFromWdf c r pc).1.view
        ((cancelWaitFromWdf c r pc).2.stage (CancelPc.stage r))
      ∧ (cancelWaitFromWdf c r pc).2.Running CancelPc.Ok := by
  cases pc with
  | active =>
    have hslot : c.waitRequest = some r := hok.1
    simp only [cancelWaitFromWdf, hslot, if_true]
    exact ⟨.keep _ _, trivial⟩
  | load =>
    obtain ⟨-, -, -, -, hfree, hcancelled, -⟩ := hok
    simp only [cancelWaitFromWdf]
    split
    · rename_i hstate
      exact ⟨.keep _ _, trivial, hstate⟩
    · rename_i hstate
      split
      · rename_i hun
        exact ⟨.cancelSees c.view r (view_state hun), trivial⟩
      · rename_i hun
        -- No other state is left: the request is published and the callback is undecided.
        exfalso
        simp only [Core.view, RecordState.ofCode] at hfree hcancelled
        split_ifs at hfree hcancelled <;> simp_all
  | transition source pc =>
    obtain ⟨hpc, hsource⟩ := hpc
    rcases transitionWaitRecord_cases c source waitCancelled pc hpc with
      ⟨pc', hpc', heq⟩ | ⟨hstate, heq⟩ | ⟨hstate, heq⟩
    · simp only [cancelWaitFromWdf, heq, call_run]
      exact ⟨.keep _ _, hpc', hsource⟩
    · simp only [cancelWaitFromWdf, heq, call_ret]
      exact ⟨.keep _ _, trivial⟩
    · simp only [cancelWaitFromWdf, heq, call_ret]
      rw [view_shifted]
      rcases hsource with rfl | rfl | rfl | rfl
      · exact ⟨.cancelRegistration c.view r false (.inl (view_state hstate)), trivial⟩
      · exact ⟨.cancelRegistration c.view r false (.inr (view_state hstate)), trivial⟩
      · exact ⟨.cancelPending c.view r false (.inl (view_state hstate)), trivial⟩
      · exact ⟨.cancelPending c.view r false (.inr (view_state hstate)), trivial⟩
  | handoff =>
    by_cases hleft : c.waitCancelHandoff = .unmarkCancelled
    · simp only [cancelWaitFromWdf, hleft, if_true]
      exact ⟨.cancelHanded c.view r hleft, trivial⟩
    · simp only [cancelWaitFromWdf, hleft, if_false]
      exact ⟨.cancelLeave c.view r hleft, trivial⟩
  | finish pc =>
    have hmove := finishWait_move c r pc true
    simp only [cancelWaitFromWdf, call]
    cases hflow : (finishWait c pc).2 <;>
    · rw [hflow] at hmove
      exact ⟨hmove, trivial⟩
  | complete =>
    simp only [cancelWaitFromWdf, view_completeRequest]
    exact ⟨.complete c.view r, trivial⟩

theorem cancelWaitRequestForTeardown_move (expected : Option Request) (choice : Choice)
    (pc : TeardownPc) (hpc : pc.Ok) (hok : StageOk c.view pc.stage) :
    Move c.view pc.stage (cancelWaitRequestForTeardown c expected choice pc).1.view
        ((cancelWaitRequestForTeardown c expected choice pc).2.stage TeardownPc.stage)
      ∧ (cancelWaitRequestForTeardown c expected choice pc).2.Running TeardownPc.Ok := by
  cases pc with
  | load =>
    simp only [cancelWaitRequestForTeardown]
    split
    · rename_i hstate
      exact ⟨.keep _ _, hstate⟩
    · exact ⟨.keep _ _, trivial⟩
  | request observed =>
    simp only [cancelWaitRequestForTeardown]
    split_ifs
    · exact ⟨.keep _ _, trivial⟩
    · exact ⟨.keep _ _, trivial, hpc⟩
    · exact ⟨.keep _ _, trivial⟩
    · exact ⟨.keep _ _, trivial, hpc⟩
  | transition observed pc =>
    obtain ⟨hpc, hobserved⟩ := hpc
    rcases transitionWaitRecord_cases c observed
        (if observed = waitRegistering then waitTeardown else waitUnmarking) pc hpc with
      ⟨pc', hpc', heq⟩ | ⟨hstate, heq⟩ | ⟨hstate, heq⟩
    · simp only [cancelWaitRequestForTeardown, heq, call_run]
      exact ⟨.keep _ _, hpc', hobserved⟩
    · simp only [cancelWaitRequestForTeardown, heq, call_ret]
      exact ⟨.keep _ _, trivial⟩
    · simp only [cancelWaitRequestForTeardown, heq, call_ret]
      rcases hobserved with rfl | rfl | rfl
      · rw [view_shifted]
        exact ⟨.tear c.view (view_state hstate), trivial⟩
      · rw [view_shifted]
        exact ⟨.take c.view (.inl (view_state hstate)), trivial⟩
      · rw [view_shifted]
        exact ⟨.take c.view (.inr (view_state hstate)), trivial⟩
  | reread =>
    obtain ⟨-, q, hslot, -⟩ := hok
    simp only [cancelWaitRequestForTeardown, show c.waitRequest = some q from hslot]
    exact ⟨.readSlot c.view q hslot, trivial⟩
  | finish => exact hok.elim
  | unmark q pc =>
    have hmove := unmarkAndCompleteWait_move statusCancelled 0 choice pc hpc hok
    simp only [cancelWaitRequestForTeardown, call]
    cases hflow : (unmarkAndCompleteWait c q statusCancelled 0 choice pc).2 <;>
    · rw [hflow] at hmove
      exact hmove

theorem workerRound_move (e : Env) (choice : Choice) (pc : WorkerPc) (hpc : pc.Ok)
    (hok : StageOk c.view pc.stage) :
    Move c.view pc.stage (workerRound e c choice pc).1.view
        ((workerRound e c choice pc).2.stage WorkerPc.stage)
      ∧ (workerRound e c choice pc).2.Running WorkerPc.Ok := by
  cases pc with
  | take pc =>
    rcases transitionWaitRecord_cases c waitScheduled waitUnmarking pc hpc with
      ⟨pc', hpc', heq⟩ | ⟨hstate, heq⟩ | ⟨hstate, heq⟩
    · simp only [workerRound, heq, call_run]
      exact ⟨.keep _ _, hpc'⟩
    · simp only [workerRound, heq, call_ret]
      exact ⟨.keep _ _, trivial⟩
    · simp only [workerRound, heq, call_ret]
      rw [view_shifted]
      exact ⟨.take c.view (.inr (view_state hstate)), trivial⟩
  | request claimed =>
    obtain ⟨-, q, hslot, -⟩ := hok
    simp only [workerRound, show c.waitRequest = some q from hslot]
    exact ⟨.readSlot c.view q hslot, trivial⟩
  | finish => exact hok.elim
  | interest | loadInterest => all_goals exact ⟨.keep _ _, trivial⟩
  | snapshot q claimed interest pc =>
    simp only [workerRound]
    cases readinessSnapshot e pc with
    | run pc' => exact ⟨.keep _ _, trivial⟩
    | ret value =>
      rw [view_note c (.refresh q value.1) fun _ => ⟨rfl, rfl⟩]
      exact ⟨.keep _ _, trivial⟩
  | lifecycle =>
    simp only [workerRound]
    split <;> exact ⟨.keep _ _, trivial⟩
  | started q satisfied interest pc =>
    simp only [workerRound, call]
    cases waitInterestQueuesStarted e interest pc with
    | run pc' => exact ⟨.keep _ _, trivial⟩
    | ret started => cases started <;> exact ⟨.keep _ _, trivial⟩
  | unmark q status satisfied pc =>
    have hmove := unmarkAndCompleteWait_move status satisfied choice pc hpc hok
    simp only [workerRound, call]
    cases hflow : (unmarkAndCompleteWait c q status satisfied choice pc).2 <;>
    · rw [hflow] at hmove
      exact hmove

/-! ### Every step is a move -/

variable {t : ThreadId} {th th' : WaitThread}

theorem resume_move {π ρ : Type} {x : Stage} {result : Core × Flow π ρ} {thread : π → WaitThread}
    {after : ρ → WaitThread} (stage : π → Stage) {ok : π → Prop}
    (hstage : ∀ pc, (thread pc).stage = stage pc) (hok : ∀ pc, ok pc → (thread pc).PcOk)
    (hafter : ∀ value, (after value).stage = .none ∧ (after value).PcOk)
    (hstep : Move c.view x result.1.view (result.2.stage stage) ∧ result.2.Running ok) :
    Move c.view x (resume result thread after).1.view (resume result thread after).2.stage
      ∧ (resume result thread after).2.PcOk := by
  obtain ⟨hmove, hrun⟩ := hstep
  unfold resume
  cases hflow : result.2 with
  | run pc =>
    rw [hflow] at hmove hrun
    exact ⟨(hstage pc).symm ▸ hmove, hok pc hrun⟩
  | ret value =>
    rw [hflow] at hmove
    exact ⟨(hafter value).1.symm ▸ hmove, (hafter value).2⟩

theorem advanceThread_move {e : Env} {choice : Choice} {c' : Core} (hpc : th.PcOk)
    (hok : StageOk c.view th.stage) (hstep : advanceThread e c t choice th = some (c', th')) :
    Move c.view th.stage c'.view th'.stage ∧ th'.PcOk := by
  cases th with
  | idle => simp [advanceThread] at hstep
  | register r input pc =>
    obtain ⟨rfl, rfl⟩ := Prod.mk.inj (Option.some.inj hstep)
    exact resume_move (RegisterPc.stage r) (fun _ => rfl) (fun _ => id) (fun _ => ⟨rfl, trivial⟩)
      (handleWaitForChange_move e t input choice pc hpc hok)
  | cancel r pc =>
    obtain ⟨rfl, rfl⟩ := Prod.mk.inj (Option.some.inj hstep)
    exact resume_move (CancelPc.stage r) (fun _ => rfl) (fun _ => id) (fun _ => ⟨rfl, trivial⟩)
      (cancelWaitFromWdf_move pc hpc hok)
  | worker pc =>
    obtain ⟨rfl, rfl⟩ := Prod.mk.inj (Option.some.inj hstep)
    exact resume_move WorkerPc.stage (fun _ => rfl) (fun _ => id)
      (fun took => by cases took <;> exact ⟨rfl, trivial⟩) (workerRound_move e choice pc hpc hok)
  | workerRest =>
    obtain ⟨rfl, rfl⟩ := Prod.mk.inj (Option.some.inj hstep)
    split <;> exact ⟨.keep _ _, trivial⟩
  | teardown expected pc =>
    obtain ⟨rfl, rfl⟩ := Prod.mk.inj (Option.some.inj hstep)
    exact resume_move TeardownPc.stage (fun _ => rfl) (fun _ => id) (fun _ => ⟨rfl, trivial⟩)
      (cancelWaitRequestForTeardown_move expected choice pc hpc hok)
  | claim condition expected pc =>
    obtain ⟨rfl, rfl⟩ := Prod.mk.inj (Option.some.inj hstep)
    obtain ⟨hmove, hrun⟩ := claimWait_move (c := c) e t condition expected pc hpc
    refine resume_move (fun _ => .none) (fun _ => rfl) (fun _ => id) (fun _ => ⟨rfl, trivial⟩)
      ⟨?_, hrun⟩
    cases (claimWaitForPassiveCompletion e c t condition expected pc).2 <;> exact hmove

/-! ### What a step is -/

inductive WaitStart (c : Core) : Core → WaitThread → Prop
  | register (r : Request) (input : WaitInput) (habsent : c.cancel r = .absent) :
      WaitStart c (dispatchRequest c r input.interest) (.register r input .validate)
  | cancel (r : Request) (howed : c.cancel r = .owed) : WaitStart c (setCancel c r .called) (.cancel r .active)
  | work (hqueued : c.workQueued = true) : WaitStart c { c with workQueued := false } (.worker (.take .load))
  | teardown (expected : Option Request) : WaitStart c c (.teardown expected .load)
  | claim (condition : Mask) (expected : Option Request) : WaitStart c c (.claim condition expected .enabled)

/-- A step of the framework or of the rest of the driver, the start of a thread, or a step of one. -/
inductive WaitCases (s : WaitWorld) : WaitWorld → Prop
  | environment (env : Env) : WaitCases s { s with env := env }
  | queueWork : WaitCases s { s with core := { s.core with workQueued := true } }
  | owe (r : Request) (hmarked : s.core.cancel r = .marked) : WaitCases s { s with core := setCancel s.core r .owed }
  | start {t : ThreadId} {c : Core} {th : WaitThread} (lock : Option ThreadId) (hidle : s.thr t = .idle)
      (hstart : WaitStart s.core c th) : WaitCases s { (s.setThread t th) with controlLock := lock, core := c }
  | advance {t : ThreadId} {choice : Choice} {c : Core} {th : WaitThread}
      (hth : advanceThread s.env s.core t choice (s.thr t) = some (c, th)) : WaitCases s (s.advance t (c, th))

theorem stepWait_cases {s s' : WaitWorld} {a : WaitAction} (hstep : stepWait s a = some s') : WaitCases s s' := by
  cases a <;> simp only [stepWait, Option.ite_none_right_eq_some, Option.some.injEq] at hstep
  case environment | queueWork =>
    subst hstep
    constructor
  case advance t choice =>
    obtain ⟨⟨c', th'⟩, hth, rfl⟩ := Option.map_eq_some_iff.mp hstep
    exact .advance hth
  case cancelRequest r =>
    obtain ⟨hmarked, rfl⟩ := hstep
    exact .owe r hmarked
  case register t r input =>
    obtain ⟨⟨hidle, -, habsent⟩, rfl⟩ := hstep
    exact .start _ hidle (.register r input habsent)
  case cancel t r =>
    obtain ⟨⟨hidle, howed⟩, rfl⟩ := hstep
    exact .start _ hidle (.cancel r howed)
  case work t =>
    obtain ⟨⟨hidle, hqueued⟩, rfl⟩ := hstep
    exact .start _ hidle (.work hqueued)
  case teardown t expected =>
    obtain ⟨hidle, rfl⟩ := hstep
    exact .start s.controlLock hidle (.teardown expected)
  case claim t condition expected =>
    obtain ⟨hidle, rfl⟩ := hstep
    exact .start s.controlLock hidle (.claim condition expected)

/-- Ownership, in the state the protocol is in. -/
structure WaitInv (s : WaitWorld) : Prop where
  own : Own s.core.view fun t => (s.thr t).stage
  pcs : ∀ t, (s.thr t).PcOk

variable {s s' : WaitWorld}

theorem WaitInv.thread {x : WaitThread} (h : WaitInv s) (hthr : s'.thr = Function.update s.thr t x)
    (hmove : Move s.core.view (s.thr t).stage s'.core.view x.stage) (hpc : x.PcOk) : WaitInv s' := by
  constructor
  · have hstages : (fun u => (s'.thr u).stage)
        = Function.update (fun u => (s.thr u).stage) t x.stage := by
      funext u
      rw [hthr]
      exact Function.apply_update (fun _ => WaitThread.stage) s.thr t x u
    rw [hstages]
    exact h.own.move rfl hmove
  · intro u
    rw [hthr]
    by_cases hu : u = t
    · subst hu
      rwa [Function.update_self]
    · rw [Function.update_of_ne hu]
      exact h.pcs u

theorem WaitInv.outside (h : WaitInv s) (hthr : s'.thr = s.thr)
    (hmove : ∀ x, Move s.core.view x s'.core.view x) : WaitInv s' := by
  refine h.thread (t := 0) (x := s.thr 0) ?_ (hmove _) (h.pcs 0)
  rw [hthr, Function.update_eq_self]

/-- Every step of the protocol is a move, so it keeps ownership. -/
theorem WaitInv.step (h : WaitInv s) {a : WaitAction} (hstep : stepWait s a = some s') : WaitInv s' := by
  cases stepWait_cases hstep with
  | environment | queueWork => exact h.outside rfl fun x => .keep _ x
  | owe r hmarked => exact h.outside rfl fun x => .owe s.core.view x r hmarked
  | start lock hidle hstart =>
    cases hstart with
    | register r input habsent =>
      refine h.thread rfl ?_ trivial
      have hview : (dispatchRequest s.core r input.interest).view = s.core.view.setCancel r .unmarked :=
        view_note (setCancel s.core r .unmarked) _ fun _ => ⟨rfl, rfl⟩
      rw [hidle, hview]
      exact .dispatch s.core.view r habsent
    | cancel r howed =>
      refine h.thread rfl ?_ trivial
      rw [hidle]
      exact .arrive s.core.view r howed
    | work | teardown | claim =>
      refine h.thread rfl ?_ trivial
      rw [hidle]
      exact .keep _ _
  | advance hth =>
    obtain ⟨hmove, hpc⟩ := advanceThread_move (h.pcs _) (h.own.stage _) hth
    exact h.thread rfl hmove hpc

theorem WaitInv.init (hinit : waitSystem.init s) : WaitInv s := by
  obtain ⟨hcore, -, hidle⟩ := hinit
  constructor
  · have hview : s.core.view = View.initial := by rw [hcore]; rfl
    rw [hview]
    simp only [hidle]
    exact Own.initial
  · intro t
    rw [hidle t]
    trivial

/-- Ownership holds in every state an interleaving reaches. -/
theorem WaitReach.inv (h : WaitReach s) : WaitInv s :=
  Reach.invariant (fun _ => WaitInv.init) (fun _ _ _ _ hinv _ hstep => hinv.step hstep) h

end WinTap

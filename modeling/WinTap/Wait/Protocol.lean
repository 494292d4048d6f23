import WinTap.Base.Machine
import WinTap.Wait.Routines

/-!
# The adaptive-wait protocol

The parties that race over the wait record, each as the source runs it: `handle_wait_for_change`, the
cancellation callback, the passive worker, teardown, and a readiness claim. `waitSystem` interleaves any
number of them. Registrations hold the control queue's synchronization lock, so two of them never
overlap; nothing else is serialized. The rest of the driver is an arbitrary environment: it may change
everything in `Env` between any two steps and may queue the work item for reasons of its own.
-/

namespace WinTap

/-! ### `handle_wait_for_change` -/

/-- The arguments of a `WAIT_FOR_CHANGE` request, with the outcome of retrieving its input buffer. -/
structure WaitInput where
  inputLength : Nat
  outputLength : Nat
  retrieveStatus : NtStatus
  actualInputLength : Nat
  version : BitVec 32
  interest : Mask
  deriving DecidableEq, Repr

def adaptivePollingProtocolVersion : BitVec 32 := 1#32

/-- The size of `AdaptiveWaitRequest`. -/
def adaptiveWaitRequestSize : Nat := 8

/-- The size of `AdaptiveWaitResponse`. -/
def adaptiveWaitResponseSize : Nat := 4

/-- The status a malformed request is completed with, or none for a request that goes on. -/
def waitInputError (input : WaitInput) : Option NtStatus :=
  if input.inputLength ≠ adaptiveWaitRequestSize ∨ input.outputLength ≠ adaptiveWaitResponseSize then
    some statusInvalidBufferSize
  else if input.retrieveStatus ≠ statusSuccess ∨ input.actualInputLength ≠ adaptiveWaitRequestSize then
    some (if input.retrieveStatus = statusSuccess then statusInvalidBufferSize
      else input.retrieveStatus)
  else if input.version ≠ adaptivePollingProtocolVersion ∨ input.interest = 0
      ∨ input.interest &&& ~~~adaptiveInterestSupported ≠ 0 then
    some statusNotSupported
  else none

inductive RegisterPc where
  | validate
  | lifecycle
  | started (pc : StartedPc)
  | adaptive
  | begin (pc : TransitionPc)
  | publish
  | snapshot (pc : SnapshotPc)
  | storeInterest (capture injection : Word)
  | storeCapture (capture injection : Word)
  | storeInjection (injection : Word)
  | storeHandoff
  | recheckLifecycle
  | recheckAdaptive
  | recheckStarted (pc : StartedPc)
  | mark
  | toPending (pc : TransitionPc)
  | resnapshot (pc : SnapshotPc)
  | loadCapture (ready : Mask) (capture injection : Word)
  | loadInjection (ready : Mask) (capture injection registered : Word)
  | claim (condition : Mask) (pc : ClaimPc)
  | toUnmarking (pc : TransitionPc)
  | unmark (pc : UnmarkPc)
  /-- Retiring the record; then completing the request with a status, unless the cancellation callback
  has already completed it. -/
  | finish (pc : FinishPc) (status : Option NtStatus)
  | complete (status : NtStatus)
  deriving DecidableEq, Repr

def handleWaitForChange (e : Env) (c : Core) (t : ThreadId) (r : Request) (input : WaitInput)
    (choice : Choice) : RegisterPc → Core × Flow RegisterPc Unit
  | .validate =>
    (c, match waitInputError input with
      | some status => .run (.complete status)
      | none => .run .lifecycle)
  | .lifecycle =>
    (c, if e.lifecycle ≠ .instanceOpen then .run (.complete statusDeviceNotReady)
      else .run (.started .tx))
  | .started pc =>
    call (c, waitInterestQueuesStarted e input.interest pc) .started fun started =>
      if started then .run .adaptive else .run (.complete statusDeviceNotReady)
  | .adaptive =>
    (c, if !e.adaptiveEnabled then .run (.complete statusInvalidDeviceRequest)
      else .run (.begin .load))
  | .begin pc =>
    call (beginWaitRecord c pc) .begin fun claimed =>
      if claimed then .run .publish else .run (.complete statusDeviceBusy)
  | .publish =>
    if c.waitRequest = none then
      ({ c with waitRequest := some r }, .run (.snapshot .captureGeneration))
    else (c, .run (.finish .interest (some statusDeviceBusy)))
  | .snapshot pc =>
    call (c, readinessSnapshot e pc) .snapshot fun (_, capture, injection) =>
      .run (.storeInterest capture injection)
  | .storeInterest capture injection =>
    ({ c with waitInterest := input.interest }, .run (.storeCapture capture injection))
  | .storeCapture capture injection =>
    ({ c with waitRegistrationCaptureGeneration := capture }, .run (.storeInjection injection))
  | .storeInjection injection =>
    ({ c with waitRegistrationInjectionGeneration := injection }, .run .storeHandoff)
  | .storeHandoff => ({ c with waitCancelHandoff := .none }, .run .recheckLifecycle)
  | .recheckLifecycle =>
    (c, if e.lifecycle ≠ .instanceOpen then .run (.finish .interest (some statusCancelled))
      else .run .recheckAdaptive)
  | .recheckAdaptive =>
    (c, if !e.adaptiveEnabled then .run (.finish .interest (some statusCancelled))
      else .run (.recheckStarted .tx))
  | .recheckStarted pc =>
    call (c, waitInterestQueuesStarted e input.interest pc) .recheckStarted fun started =>
      if started then .run .mark else .run (.finish .interest (some statusCancelled))
  | .mark =>
    let (c', status) := markCancelableEx c r choice
    (c', if status = statusCancelled then .run (.finish .interest (some statusCancelled))
      else if status ≠ statusSuccess then .run (.finish .interest (some status))
      else .run (.toPending .load))
  | .toPending pc =>
    call (transitionWaitRecord c waitRegistering waitPending pc) .toPending fun
      | .ok _ => .run (.resnapshot .captureGeneration)
      | .error observed =>
        if waitRecordState observed = waitTeardown then .run (.toUnmarking .load)
        else .run (.finish .interest none)
  | .resnapshot pc =>
    call (c, readinessSnapshot e pc) .resnapshot fun (ready, capture, injection) =>
      .run (.loadCapture ready capture injection)
  | .loadCapture ready capture injection =>
    (c, .run (.loadInjection ready capture injection c.waitRegistrationCaptureGeneration))
  | .loadInjection ready capture injection registered =>
    (c, if ready &&& input.interest ≠ 0 ∨ capture ≠ registered
          ∨ injection ≠ c.waitRegistrationInjectionGeneration then
        .run (.claim (ready &&& input.interest) .enabled)
      else .ret ())
  | .claim condition pc =>
    call (claimWaitForPassiveCompletion e c t condition (some r) pc) (.claim condition) fun _ => .ret ()
  | .toUnmarking pc =>
    call (transitionWaitRecord c waitTeardown waitUnmarking pc) .toUnmarking fun
      | .ok _ => .run (.unmark .unmark)
      | .error _ => .run (.finish .interest none)
  | .unmark pc => call (unmarkAndCompleteWait c r statusCancelled 0 choice pc) .unmark .ret
  | .finish pc status =>
    call (finishWait c pc) (.finish · status) fun _ =>
      match status with
      | some status => .run (.complete status)
      | none => .ret ()
  | .complete status => (completeRequest c r status, .ret ())

/-! ### The cancellation callback -/

inductive CancelPc where
  | active
  | load
  | transition (source : BitVec 8) (pc : TransitionPc)
  | handoff
  | finish (pc : FinishPc)
  | complete
  deriving DecidableEq, Repr

/-- `cancel_wait_from_wdf`. -/
def cancelWaitFromWdf (c : Core) (r : Request) : CancelPc → Core × Flow CancelPc Unit
  | .active => (c, if c.waitRequest = some r then .run .load else .run .complete)
  | .load =>
    let observed := waitRecordState c.waitState
    (c, if observed = waitRegistering ∨ observed = waitTeardown ∨ observed = waitPending
          ∨ observed = waitScheduled then .run (.transition observed .load)
      else if observed = waitUnmarking then .run .handoff
      else .ret ())
  | .transition source pc =>
    call (transitionWaitRecord c source waitCancelled pc) (.transition source) fun
      | .ok _ =>
        if source = waitRegistering ∨ source = waitTeardown then .run .complete
        else .run (.finish .interest)
      | .error _ => .run .load
  | .handoff =>
    ({ c with waitCancelHandoff := .cancelArrived },
      if c.waitCancelHandoff = .unmarkCancelled then .run (.finish .interest) else .ret ())
  | .finish pc => call (finishWait c pc) .finish fun _ => .run .complete
  | .complete => (completeRequest c r statusCancelled, .ret ())

/-! ### Teardown -/

inductive TeardownPc where
  | load
  | request (observed : BitVec 8)
  | transition (observed : BitVec 8) (pc : TransitionPc)
  | reread
  | finish (pc : FinishPc)
  | unmark (r : Request) (pc : UnmarkPc)
  deriving DecidableEq, Repr

/-- `cancel_wait_request_for_teardown`. -/
def cancelWaitRequestForTeardown (c : Core) (expected : Option Request) (choice : Choice) :
    TeardownPc → Core × Flow TeardownPc Bool
  | .load =>
    let observed := waitRecordState c.waitState
    (c, if observed = waitRegistering ∨ observed = waitPending ∨ observed = waitScheduled then
        .run (.request observed)
      else .ret false)
  | .request observed =>
    let other := expected ≠ none ∧ c.waitRequest ≠ expected
    (c, if observed = waitRegistering then
        if other then .ret false else .run (.transition observed .load)
      else if c.waitRequest = none ∨ other then .ret false
      else .run (.transition observed .load))
  | .transition observed pc =>
    let target := if observed = waitRegistering then waitTeardown else waitUnmarking
    call (transitionWaitRecord c observed target pc) (.transition observed) fun
      | .ok _ => if observed = waitRegistering then .ret false else .run .reread
      | .error _ => .run .load
  | .reread =>
    (c, match c.waitRequest with
      | none => .run (.finish .interest)
      | some r => .run (.unmark r .unmark))
  | .finish pc => call (finishWait c pc) .finish fun _ => .ret false
  | .unmark r pc =>
    call (unmarkAndCompleteWait c r statusCancelled 0 choice pc) (.unmark r) fun _ =>
      .ret (expected = none || expected = some r)

/-! ### The passive worker -/

inductive WorkerPc where
  | take (pc : TransitionPc)
  | request (claimed : Word)
  | finish (pc : FinishPc)
  | interest (r : Request) (claimed : Word)
  | snapshot (r : Request) (claimed : Word) (interest : Mask) (pc : SnapshotPc)
  | loadInterest (r : Request) (satisfied : Mask)
  | lifecycle (r : Request) (satisfied interest : Mask)
  | started (r : Request) (satisfied interest : Mask) (pc : StartedPc)
  | unmark (r : Request) (status : NtStatus) (satisfied : Mask) (pc : UnmarkPc)
  deriving DecidableEq, Repr

/-- One round of the worker over the wait record: `take_scheduled_wait`, and for a wait it took
`complete_scheduled_wait_at_passive`. It returns whether it took one, in which case the worker goes
round again. -/
def workerRound (e : Env) (c : Core) (choice : Choice) : WorkerPc → Core × Flow WorkerPc Bool
  | .take pc =>
    call (transitionWaitRecord c waitScheduled waitUnmarking pc) .take fun
      | .ok claimed => .run (.request claimed)
      | .error _ => .ret false
  | .request claimed =>
    (c, match c.waitRequest with
      | none => .run (.finish .interest)
      | some r => .run (.interest r claimed))
  | .finish pc => call (finishWait c pc) .finish fun _ => .ret false
  | .interest r claimed => (c, .run (.snapshot r claimed c.waitInterest .captureGeneration))
  | .snapshot r claimed interest pc =>
    match readinessSnapshot e pc with
    | .run pc' => (c, .run (.snapshot r claimed interest pc'))
    | .ret (ready, _, _) =>
      ({ c with calls := .refresh r ready :: c.calls },
        .run (.loadInterest r (waitRecordSatisfied claimed ||| (ready &&& interest))))
  | .loadInterest r satisfied => (c, .run (.lifecycle r satisfied c.waitInterest))
  | .lifecycle r satisfied interest =>
    (c, if e.lifecycle ≠ .instanceOpen then .run (.unmark r statusCancelled 0 .unmark)
      else .run (.started r satisfied interest .tx))
  | .started r satisfied interest pc =>
    call (c, waitInterestQueuesStarted e interest pc) (.started r satisfied interest) fun started =>
      if started then .run (.unmark r statusSuccess satisfied .unmark)
      else .run (.unmark r statusCancelled 0 .unmark)
  | .unmark r status satisfied pc =>
    call (unmarkAndCompleteWait c r status satisfied choice pc) (.unmark r status satisfied) fun _ =>
      .ret true

/-! ### The system -/

/-- A thread of the protocol. -/
inductive WaitThread where
  | idle
  | register (r : Request) (input : WaitInput) (pc : RegisterPc)
  | cancel (r : Request) (pc : CancelPc)
  | worker (pc : WorkerPc)
  /-- The worker found no scheduled wait and is in its READ part. -/
  | workerRest
  | teardown (expected : Option Request) (pc : TeardownPc)
  | claim (condition : Mask) (expected : Option Request) (pc : ClaimPc)
  deriving DecidableEq, Repr

structure WaitWorld where
  env : Env
  core : Core
  /-- The control queue's synchronization lock: the dispatch it is held by. -/
  controlLock : Option ThreadId
  thr : ThreadId → WaitThread

inductive WaitAction where
  /-- The rest of the driver moves. -/
  | environment (env : Env)
  /-- The rest of the driver queues the read work item. -/
  | queueWork
  /-- A `WAIT_FOR_CHANGE` request is dispatched. -/
  | register (t : ThreadId) (r : Request) (input : WaitInput)
  /-- A marked request is cancelled. -/
  | cancelRequest (r : Request)
  /-- The framework runs a cancellation callback it owes. -/
  | cancel (t : ThreadId) (r : Request)
  /-- The framework starts the queued work item. -/
  | work (t : ThreadId)
  | teardown (t : ThreadId) (expected : Option Request)
  | claim (t : ThreadId) (condition : Mask) (expected : Option Request)
  /-- The thread takes its next atomic operation. -/
  | advance (t : ThreadId) (choice : Choice)
  deriving DecidableEq, Repr

/-- Put a stepped routine back into its thread. -/
def resume {π ρ : Type} (result : Core × Flow π ρ) (thread : π → WaitThread) (after : ρ → WaitThread) :
    Core × WaitThread :=
  (result.1, match result.2 with
    | .run pc => thread pc
    | .ret value => after value)

/-- The next atomic operation of a thread. -/
def advanceThread (e : Env) (c : Core) (t : ThreadId) (choice : Choice) :
    WaitThread → Option (Core × WaitThread)
  | .idle => none
  | .register r input pc =>
    some (resume (handleWaitForChange e c t r input choice pc) (.register r input) fun _ => .idle)
  | .cancel r pc => some (resume (cancelWaitFromWdf c r pc) (.cancel r) fun _ => .idle)
  | .worker pc =>
    some (resume (workerRound e c choice pc) .worker fun took =>
      if took then .worker (.take .load) else .workerRest)
  -- The READ part of the worker goes round again or ends the callback.
  | .workerRest => some (c, if choice = none then .idle else .worker (.take .load))
  | .teardown expected pc =>
    some (resume (cancelWaitRequestForTeardown c expected choice pc) (.teardown expected) fun _ => .idle)
  | .claim condition expected pc =>
    some (resume (claimWaitForPassiveCompletion e c t condition expected pc) (.claim condition expected)
      fun _ => .idle)

/-- Whether the thread holds the control queue's lock. -/
def WaitThread.dispatching : WaitThread → Bool
  | .register .. => true
  | _ => false

namespace WaitWorld

def setThread (s : WaitWorld) (t : ThreadId) (th : WaitThread) : WaitWorld :=
  { s with thr := Function.update s.thr t th }

/-- A registration that returns releases the control queue's lock. -/
def advance (s : WaitWorld) (t : ThreadId) (next : Core × WaitThread) : WaitWorld :=
  { (s.setThread t next.2) with
    core := next.1
    controlLock :=
      if (s.thr t).dispatching && !next.2.dispatching then none else s.controlLock }

end WaitWorld

def stepWait (s : WaitWorld) : WaitAction → Option WaitWorld
  | .environment env => some { s with env := env }
  | .queueWork => some { s with core := { s.core with workQueued := true } }
  | .register t r input =>
    if s.thr t = .idle ∧ s.controlLock = none ∧ s.core.cancel r = .absent then
      some { (s.setThread t (.register r input .validate)) with
        controlLock := some t
        core := dispatchRequest s.core r input.interest }
    else none
  | .cancelRequest r =>
    if s.core.cancel r = .marked then some { s with core := setCancel s.core r .owed } else none
  | .cancel t r =>
    if s.thr t = .idle ∧ s.core.cancel r = .owed then
      some { (s.setThread t (.cancel r .active)) with core := setCancel s.core r .called }
    else none
  | .work t =>
    if s.thr t = .idle ∧ s.core.workQueued then
      some { (s.setThread t (.worker (.take .load))) with core := { s.core with workQueued := false } }
    else none
  | .teardown t expected =>
    if s.thr t = .idle then some (s.setThread t (.teardown expected .load)) else none
  | .claim t condition expected =>
    if s.thr t = .idle then some (s.setThread t (.claim condition expected .enabled)) else none
  | .advance t choice => (advanceThread s.env s.core t choice (s.thr t)).map (s.advance t)

/-- The wait fields as `InstanceState::new` sets them. -/
def Core.initial : Core where
  waitState := waitRecordWord 0 0 waitFree
  waitRequest := none
  waitCancelHandoff := .none
  waitInterest := 0
  waitRegistrationCaptureGeneration := 0
  waitRegistrationInjectionGeneration := 0
  workQueued := false
  cancel := fun _ => .absent
  calls := []
  registrations := 0

/-- Any interleaving of the parties of the wait protocol, in any environment. -/
def waitSystem : Machine.System WaitWorld WaitAction where
  init s := s.core = Core.initial ∧ s.controlLock = none ∧ ∀ t, s.thr t = .idle
  step := stepWait

/-- A state some interleaving of the wait protocol reaches. -/
def WaitReach : WaitWorld → Prop := Machine.Reach waitSystem Machine.Free

end WinTap

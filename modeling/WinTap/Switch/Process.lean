import WinTap.Base.Machine
import WinTap.Switch.Runtime

/-!
# The switch process

`Runtime::start`, one of the two run loops, `Runtime::shutdown` and the drop of the runtime, one call of a routine after
the other. A step is labelled with what the calls in it answer: the ring, the clock, the driver and the request to stop.
-/

namespace WinTap.SwitchRuntime

open SwitchCore Machine

/-- Where the process is. -/
inductive Pc where
  /-- `start`: a read is posted for every slot. -/
  | post (slot : Nat)
  | submitFirst
  | enter
  /-- `run_until_stopped_legacy`. -/
  | legacy
  | legacyWait
  | legacyBatch
  | legacySubmit
  /-- `run_until_stopped_adaptive`. -/
  | adaptive
  | adaptivePop (sawCompletion madeProgress : Bool)
  | adaptiveSubmit (madeProgress : Bool)
  | adaptiveIdle
  /-- `wait_for_adaptive_change`: the waits of the two endpoints, and its `WaitForMultipleObjects` loop. -/
  | armFirst
  | armSecond (immediatelyReady : Bool)
  | asleep
  | postIdle (slot : Nat)
  | submitIdle
  /-- `shutdown`. -/
  | shutdown
  | retire (slot : Nat)
  | submitRemaining
  | drain
  | drainWait
  | cancelling
  | queueCancellations (slot count : Nat) (queued : Bool)
  | submitCancellations
  | reap
  | reapWait
  /-- The runtime is dropped next. -/
  | returned
  | closed
  | aborted
  deriving DecidableEq, Repr

/-- What `PopIoRingCompletion` answers. A completion is of any entry that was submitted. -/
inductive PopAnswer where
  | empty
  | failed (status : HResult)
  | popped (index : Nat) (resultCode : HResult) (information : Nat) (contents : Nat → UInt8)

/-- What `WaitForMultipleObjects` answers, and what is made of it. -/
inductive WakeAnswer where
  | timeout
  | stopped
  | failed (message : String)
  /-- The wait of one endpoint has ended. -/
  | signaled (first : Bool)
  /-- The wait of one endpoint has ended with a response that is not valid. -/
  | invalid (first : Bool)

inductive Answer where
  | advance
  | stopRequested
  /-- The status of the `BuildIoRing` call in the step, if there is one. -/
  | built (status : HResult)
  | submitted (status : HResult)
  | waited (status : HResult) (taken : Bool)
  | pop (answer : PopAnswer) (built : HResult)
  | elapsed (expired : Bool)
  | wait (answer : WaitAnswer)
  | wake (answer : WakeAnswer)
  /-- The first error of `cancel_adaptive_waits`. -/
  | cancelled (message : Option String)

structure Process where
  pc : Pc
  runtime : Runtime
  /-- The switch of the run loop. -/
  switch : Option Switch
  /-- `cancellation_error` of `shutdown`. -/
  cancellationError : Option RuntimeError
  /-- The errors that the routines have returned. -/
  errors : List RuntimeError

namespace Process

variable (s : Process)

def goto (pc : Pc) (runtime : Runtime) : Process := { s with pc := pc, runtime := runtime }

/-- An error is passed up to where `failed` stands. -/
def throw (error : RuntimeError) (runtime : Runtime) (failed : Pc) : Process :=
  { s with pc := failed, runtime := runtime, errors := s.errors ++ [error] }

/-- A call has returned. -/
def call {α : Type} (called : Called α) (failed : Pc) (next : α → Pc) : Process :=
  match called with
  | (.error error, r) => s.throw error r failed
  | (.ok a, r) => s.goto (next a) r

end Process

/-- The wait of the first or of the second endpoint is not pending any more. -/
def Runtime.endWait (r : Runtime) (first : Bool) : Runtime :=
  let ended := fun (wait : Option AdaptiveWait) => wait.map fun wait => { wait with pending := false }
  { r with waits := if first then (ended r.waits.1, r.waits.2) else (r.waits.1, ended r.waits.2) }

/-- The pop that a run loop makes, and the completion it processes. -/
def popAndProcess (c : Config) (s : Process) (answer : PopAnswer) (built : HResult) (empty : Pc)
    (next : Option Bool → Pc) : Option Process :=
  match answer with
  | .empty => some (s.goto empty s.runtime)
  | .failed status => some (s.throw (.hresult "PopIoRingCompletion" status) s.runtime .shutdown)
  | .popped index resultCode information contents =>
    match s.runtime.ring.submitted[index]?, s.switch with
    | some entry, some switch =>
      let (called, switch) := (s.runtime.remove index).processCompletion c switch
        ⟨entry.userData, resultCode, information, contents⟩ built
      some { s.call called .shutdown next with switch := some switch }
    | _, _ => none

/-- `try_process_shutdown_completion`. -/
def popAndReap (c : Config) (s : Process) (answer : PopAnswer) (empty next : Pc) : Option Process :=
  match answer with
  | .empty => some (s.goto empty s.runtime)
  | .failed status => some (s.throw (.hresult "PopIoRingCompletion" status) s.runtime .returned)
  | .popped index resultCode _ _ =>
    match s.runtime.ring.submitted[index]? with
    | some entry =>
      match (s.runtime.remove index).processShutdownCompletion c entry.userData resultCode with
      | (.error error, r) => some (s.throw error r .returned)
      | (.ok error, r) => some { s.goto next r with cancellationError := s.cancellationError.or error }
    | none => none

/-- `start`, and the start of the run loop. -/
def stepStart (c : Config) (s : Process) (answer : Answer) : Option Process :=
  let r := s.runtime
  match s.pc, answer with
  | .post slot, .built status =>
    if c.totalDepth ≤ slot then some (s.goto .submitFirst r)
    else some (s.call (r.postRead c slot status) .returned fun _ => .post (slot + 1))
  | .submitFirst, .submitted status =>
    some (s.call (r.submitPendingOperations status) .shutdown fun _ => .enter)
  | .enter, .advance =>
    match Switch.fromEndpoints [c.first.id, c.second.id] with
    | .error error => some (s.throw (.forwarding "selected endpoint collection" error) r .shutdown)
    | .ok switch =>
      some { s.goto (if c.adaptivePolling then .adaptive else .legacy) r with switch := some switch }
  | _, _ => none

/-- `run_until_stopped_legacy`. -/
def stepLegacy (c : Config) (s : Process) (answer : Answer) : Option Process :=
  let r := s.runtime
  match s.pc, answer with
  | .legacy, .stopRequested => some (s.goto .shutdown r)
  | .legacy, .pop answer built => popAndProcess c s answer built .legacyWait fun _ => .legacyBatch
  | .legacyWait, .waited status taken =>
    some (s.call (r.waitForCompletion status taken) .shutdown fun _ => .legacy)
  | .legacyBatch, .pop answer built => popAndProcess c s answer built .legacySubmit fun _ => .legacyBatch
  | .legacySubmit, .submitted status =>
    some (s.call (r.submitPendingOperations status) .shutdown fun _ => .legacy)
  | _, _ => none

/-- `run_until_stopped_adaptive`. -/
def stepAdaptive (c : Config) (s : Process) (answer : Answer) : Option Process :=
  let r := s.runtime
  match s.pc, answer with
  | .adaptive, .stopRequested => some (s.goto .shutdown r)
  | .adaptive, .advance => some (s.goto (.adaptivePop false false) r)
  | .adaptivePop sawCompletion madeProgress, .pop answer built =>
    popAndProcess c s answer built (if sawCompletion then .adaptiveSubmit madeProgress else .adaptiveIdle)
      fun processed => .adaptivePop true (madeProgress || processed.isSome)
  | .adaptiveSubmit madeProgress, .submitted status =>
    some (s.call (r.submitPendingOperations status) .shutdown fun _ =>
      if madeProgress then .adaptive else .adaptiveIdle)
  | .adaptiveIdle, .elapsed expired => some (s.goto (if expired then .armFirst else .adaptive) r)
  | .postIdle slot, .built status =>
    if c.totalDepth ≤ slot then some (s.goto .submitIdle r)
    else if (r.active slot).isSome then some (s.goto (.postIdle (slot + 1)) r)
    else some (s.call (r.postRead c slot status) .shutdown fun _ => .postIdle (slot + 1))
  | .submitIdle, .submitted status =>
    some (s.call (r.submitPendingOperations status) .shutdown fun _ => .adaptive)
  | _, _ => none

/-- `wait_for_adaptive_change`. -/
def stepWaiting (c : Config) (s : Process) (answer : Answer) : Option Process :=
  let r := s.runtime
  match s.pc, answer with
  | .armFirst, .wait answer =>
    let (ready, wait) := submitAdaptiveWait r.waits.1 (r.adaptiveInterestForEndpoint c c.first.handle) answer
    some (s.call (ready, { r with waits := (wait, r.waits.2) }) .shutdown .armSecond)
  | .armSecond immediatelyReady, .wait answer =>
    let (ready, wait) := submitAdaptiveWait r.waits.2 (r.adaptiveInterestForEndpoint c c.second.handle) answer
    some (s.call (ready, { r with waits := (r.waits.1, wait) }) .shutdown fun ready =>
      if immediatelyReady || ready then .postIdle 0 else .asleep)
  | .asleep, .wake .timeout => some s
  | .asleep, .wake .stopped => some (s.goto .adaptive r)
  | .asleep, .wake (.failed message) => some (s.throw (.text message) r .shutdown)
  | .asleep, .wake (.signaled first) => some (s.goto (.postIdle 0) (r.endWait first))
  | .asleep, .wake (.invalid first) =>
    some (s.throw (.text "WAIT_FOR_CHANGE returned an invalid readiness response") (r.endWait first) .shutdown)
  | _, _ => none

/-- `shutdown`, up to the cancellations. -/
def stepShutdown (c : Config) (s : Process) (answer : Answer) : Option Process :=
  let r := s.runtime
  match s.pc, answer with
  | .shutdown, .cancelled message =>
    some { s.goto (.retire 0) ((r.endWait true).endWait false) with cancellationError := message.map .text }
  | .retire slot, .advance =>
    if c.totalDepth ≤ slot then some (s.goto .submitRemaining r.markDrains)
    else some (s.call (r.retireUnqueuedOperation slot) .returned fun _ => .retire (slot + 1))
  | .submitRemaining, .submitted status =>
    some (s.call (r.submitPendingOperations status) .returned fun _ => .drain)
  | .drain, .pop answer _ =>
    if r.anyDrains c then popAndReap c s answer .drainWait .drain else some (s.goto .cancelling r)
  | .drainWait, .waited status taken =>
    some (s.call (r.waitForCompletion status taken) .returned fun _ => .drain)
  | _, _ => none

/-- The cancellations of `shutdown`, and the drop of the runtime. -/
def stepCancelling (c : Config) (s : Process) (answer : Answer) : Option Process :=
  let r := s.runtime
  match s.pc, answer with
  | .cancelling, .advance =>
    if r.anyActive c || r.anyCancellation c then some (s.goto (.queueCancellations 0 0 false) r)
    else some (s.call (s.cancellationError.elim (.ok ()) .error, { r with operationsMayBeInFlight := false }) .returned
      fun _ => .returned)
  | .queueCancellations slot count queued, .built status =>
    if c.totalDepth ≤ slot ∨ count = c.submissionQueueSize then
      some (s.goto (if queued then .submitCancellations else .reap) r)
    else match r.wantsCancellation slot with
      | none => some (s.goto (.queueCancellations (slot + 1) count queued) r)
      | some operation =>
        if status = ioringSubmissionQueueFull then some (s.goto .submitCancellations r)
        else match checkHr status "BuildIoRingCancelRequest" with
          | .error error => some (s.throw error r .returned)
          | .ok () =>
            some (s.goto (.queueCancellations (slot + 1) (count + 1) true) (r.queueCancellation slot operation))
  | .submitCancellations, .submitted status =>
    match checkHr status "SubmitIoRing cancellation batch" with
    | .error error => some (s.throw error r .returned)
    | .ok () => some (s.goto .reap { r with ring := r.ring.submit })
  | .reap, .pop answer _ => popAndReap c s answer .reapWait .cancelling
  | .reapWait, .waited status taken =>
    some (s.call (r.waitForCompletion status taken) .returned fun _ => .cancelling)
  | .returned, .advance =>
    some (s.goto (if r.operationsMayBeInFlight && r.anyActive c then .aborted else .closed) r)
  | _, _ => none

/-- One step of the process. -/
def stepProcess (c : Config) (s : Process) (answer : Answer) : Option Process :=
  match s.pc with
  | .post _ | .submitFirst | .enter => stepStart c s answer
  | .legacy | .legacyWait | .legacyBatch | .legacySubmit => stepLegacy c s answer
  | .adaptive | .adaptivePop _ _ | .adaptiveSubmit _ | .adaptiveIdle | .postIdle _ | .submitIdle =>
    stepAdaptive c s answer
  | .armFirst | .armSecond _ | .asleep => stepWaiting c s answer
  | .shutdown | .retire _ | .submitRemaining | .drain | .drainWait => stepShutdown c s answer
  | .cancelling | .queueCancellations _ _ _ | .submitCancellations | .reap | .reapWait | .returned =>
    stepCancelling c s answer
  | .closed | .aborted => none

/-- The runtime as `start` has built it. -/
def startRuntime (c : Config) : Runtime where
  ring := { queue := [], submitted := [] }
  pool := ⟨List.replicate c.totalDepth ⟨0, .free⟩⟩
  active := fun _ => none
  cancellations := fun _ => none
  operationsMayBeInFlight := false
  waits := (none, none)

def startProcess (c : Config) : Process where
  pc := .post 0
  runtime := startRuntime c
  switch := none
  cancellationError := none
  errors := []

def switchSystem (c : Config) : System Process Answer where
  init s := s = startProcess c
  step := stepProcess c

abbrev SwitchReach (c : Config) (ok : Process → Answer → Prop) : Process → Prop := Reach (switchSystem c) ok

end WinTap.SwitchRuntime

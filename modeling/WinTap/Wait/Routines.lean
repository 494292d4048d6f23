import WinTap.Wait.Record

/-!
# The routines of the adaptive wait

One atomic operation of the source is one step here. A routine is a program counter together with the
local variables the source holds at that point, and its step function says what the next operation does
to the shared state and where control goes. A routine that returns hands its value to the caller through
`call`, so a callback that calls `finishWait` has the program counters of `finishWait` inside its own.

`Core` is the part of the instance that the wait protocol writes: the packed record, the request slot,
the cancellation handoff, the interest mask, the registration generations, the read work item, and what
the framework knows about the cancellation of each request. The part the protocol only reads is `Env`.
Two fields are history: `calls` lists the framework calls made so far, newest first, and `registrations`
counts the records begun.

A weak compare-exchange that fails spuriously leads back to the load before it, which is the same as not
having taken that load yet, so only real failures appear.
-/

namespace WinTap

/-- A request as the framework dispatched it. Each dispatch is a new request. -/
abbrev Request := Nat

abbrev ThreadId := Nat

/-! ### Control flow -/

/-- Where control is after a step: still in the routine, or back in its caller. -/
inductive Flow (π ρ : Type) where
  | run (pc : π)
  | ret (value : ρ)
  deriving DecidableEq, Repr

/-- A value read off where control is. -/
def Flow.on {π ρ α : Type} (flow : Flow π ρ) (inside : π → α) (after : α) : α :=
  match flow with
  | .run pc => inside pc
  | .ret _ => after

@[simp] theorem Flow.on_run {π ρ α : Type} (pc : π) (inside : π → α) (after : α) :
    (Flow.run pc : Flow π ρ).on inside after = inside pc := rfl

@[simp] theorem Flow.on_ret {π ρ α : Type} (value : ρ) (inside : π → α) (after : α) :
    (Flow.ret value : Flow π ρ).on inside after = after := rfl

/-- One step of a called routine, seen from the caller. -/
def call {κ π ρ π' ρ' : Type} (step : κ × Flow π ρ) (inside : π → π') (after : ρ → Flow π' ρ') :
    κ × Flow π' ρ' :=
  (step.1, match step.2 with
    | .run pc => .run (inside pc)
    | .ret value => after value)

@[simp] theorem call_run {κ π ρ π' ρ' : Type} (c : κ) (pc : π) (inside : π → π')
    (after : ρ → Flow π' ρ') : call (c, .run pc) inside after = (c, .run (inside pc)) := rfl

@[simp] theorem call_ret {κ π ρ π' ρ' : Type} (c : κ) (value : ρ) (inside : π → π')
    (after : ρ → Flow π' ρ') : call (c, .ret value) inside after = (c, after value) := rfl

/-! ### Shared state -/

/-- `INSTANCE_*`: the lifecycle of an adapter instance. -/
inductive Lifecycle where
  | instanceOpen
  | instanceSuspended
  | instanceClosing
  | instanceClosed
  | instanceOwnerClosing
  deriving DecidableEq, Repr

/-- `WAIT_HANDOFF_*`. -/
inductive Handoff where
  | none
  | cancelArrived
  | unmarkCancelled
  deriving DecidableEq, Repr

/-- What the framework knows about the cancellation of a request. -/
inductive CancelState where
  /-- Not dispatched yet. -/
  | absent
  /-- Dispatched; no cancellation routine is set. -/
  | unmarked
  /-- A cancellation routine is set. -/
  | marked
  /-- Cancelled while marked; the framework owes the callback. -/
  | owed
  /-- The framework called the cancellation routine. -/
  | called
  /-- The callback never runs any more. -/
  | cleared
  deriving DecidableEq, Repr

/-- The framework calls of the protocol, with what they were called for. -/
inductive Call where
  /-- The framework dispatches a `WAIT_FOR_CHANGE` request with this interest. -/
  | dispatch (r : Request) (interest : Mask)
  /-- `WdfRequestComplete`, or `WdfRequestCompleteWithInformation` with the mask it returns. -/
  | complete (r : Request) (status : NtStatus) (satisfied : Option Mask)
  /-- `WdfRequestUnmarkCancelable`. -/
  | unmark (r : Request)
  /-- A claim whose compare-exchange succeeded: the request then published, the readiness bits it
  contributed, and whether it found the record pending. -/
  | claim (t : ThreadId) (r : Option Request) (bits : Mask) (pending : Bool)
  /-- `WdfWorkItemEnqueue` by a claim. -/
  | enqueue (t : ThreadId)
  /-- The worker refreshed a wait it took with this readiness. -/
  | refresh (r : Request) (ready : Mask)
  deriving DecidableEq, Repr

/-- The shared state the wait protocol writes. -/
structure Core where
  waitState : Word
  waitRequest : Option Request
  waitCancelHandoff : Handoff
  waitInterest : Mask
  waitRegistrationCaptureGeneration : Word
  waitRegistrationInjectionGeneration : Word
  /-- The read work item is queued and has not started. -/
  workQueued : Bool
  cancel : Request → CancelState
  calls : List Call
  registrations : Nat

/-- The shared state the wait protocol only reads. -/
structure Env where
  lifecycle : Lifecycle
  adaptiveEnabled : Bool
  txQueueStarted : Bool
  rxQueueStarted : Bool
  captureGeneration : Word
  injectionGeneration : Word
  /-- The capture queue holds a frame. -/
  readable : Bool
  /-- The injection queue is open and below its frame limit. -/
  writable : Bool
  deriving DecidableEq, Repr

/-- What the framework decides at a call: nothing, or the status it fails with. -/
abbrev Choice := Option NtStatus

def adaptiveInterestReadable : Mask := 1#32
def adaptiveInterestWritable : Mask := 2#32
def adaptiveInterestSupported : Mask := adaptiveInterestReadable ||| adaptiveInterestWritable

/-! ### Framework calls -/

def setCancel (c : Core) (r : Request) (state : CancelState) : Core :=
  { c with cancel := Function.update c.cancel r state }

/-- A new request arrives. -/
def dispatchRequest (c : Core) (r : Request) (interest : Mask) : Core :=
  { setCancel c r .unmarked with calls := .dispatch r interest :: c.calls }

def completeRequest (c : Core) (r : Request) (status : NtStatus) : Core :=
  { c with calls := .complete r status none :: c.calls }

/-- `WdfRequestMarkCancelableEx`. When it fails the callback never runs. -/
def markCancelableEx (c : Core) (r : Request) (choice : Choice) : Core × NtStatus :=
  match choice with
  | none => (setCancel c r .marked, statusSuccess)
  | some status =>
    if status = statusSuccess then (setCancel c r .marked, statusSuccess)
    else (setCancel c r .cleared, status)

/-- `WdfRequestUnmarkCancelable`. On a marked request it succeeds, or fails with another status than
`STATUS_CANCELLED`; either way the callback never runs. Once the request was cancelled it returns
`STATUS_CANCELLED`. -/
def unmarkCancelable (c : Core) (r : Request) (choice : Choice) : Core × NtStatus :=
  let called := { c with calls := .unmark r :: c.calls }
  match c.cancel r with
  | .marked =>
    match choice with
    | none => (setCancel called r .cleared, statusSuccess)
    | some status =>
      if status = statusCancelled then (setCancel called r .cleared, statusSuccess)
      else (setCancel called r .cleared, status)
  | .owed | .called => (called, statusCancelled)
  | .absent | .unmarked | .cleared => (called, statusInvalidDeviceRequest)

/-- `complete_wait_response`. The choice is the outcome of `WdfRequestRetrieveOutputBuffer`; a success
status there stands for a buffer that came back too short. -/
def completeWaitResponse (c : Core) (r : Request) (status : NtStatus) (satisfied : Mask)
    (choice : Choice) : Core :=
  if status ≠ statusSuccess then completeRequest c r status
  else match choice with
    | none => { c with calls := .complete r statusSuccess (some satisfied) :: c.calls }
    | some outputStatus =>
      completeRequest c r
        (if outputStatus = statusSuccess then statusBufferTooSmall else outputStatus)

/-! ### Record transitions -/

inductive TransitionPc where
  | load
  | exchange (observed : Word)
  deriving DecidableEq, Repr

/-- `transition_wait_record`: move the record from one state to another, keeping its sequence and
satisfied mask. Only the state is compared before the exchange; the exchange compares the word. -/
def transitionWaitRecord (c : Core) (source target : BitVec 8) :
    TransitionPc → Core × Flow TransitionPc (Except Word Word)
  | .load =>
    if waitRecordState c.waitState ≠ source then (c, .ret (.error c.waitState))
    else (c, .run (.exchange c.waitState))
  | .exchange observed =>
    let next := waitRecordWord (waitRecordSequence observed) (waitRecordSatisfied observed) target
    if c.waitState = observed then ({ c with waitState := next }, .ret (.ok next))
    else (c, .run .load)

/-- `begin_wait_record`: claim a fresh record. The sequence advances and the satisfied mask is cleared
by the same exchange. -/
def beginWaitRecord (c : Core) : TransitionPc → Core × Flow TransitionPc Bool
  | .load =>
    if waitRecordState c.waitState ≠ waitFree then (c, .ret false)
    else (c, .run (.exchange c.waitState))
  | .exchange observed =>
    let registering := waitRecordWord (waitRecordSequence observed + 1) 0 waitRegistering
    if c.waitState = observed then
      ({ c with waitState := registering, registrations := c.registrations + 1 }, .ret true)
    else (c, .run .load)

/-! ### Retiring a wait -/

inductive FinishPc where
  | interest
  | captureGeneration
  | injectionGeneration
  | handoff
  | request
  | load
  | store (observed : Word)
  deriving DecidableEq, Repr

/-- `finish_wait`. -/
def finishWait (c : Core) : FinishPc → Core × Flow FinishPc Unit
  | .interest => ({ c with waitInterest := 0 }, .run .captureGeneration)
  | .captureGeneration =>
    ({ c with waitRegistrationCaptureGeneration := 0 }, .run .injectionGeneration)
  | .injectionGeneration =>
    ({ c with waitRegistrationInjectionGeneration := 0 }, .run .handoff)
  | .handoff => ({ c with waitCancelHandoff := .none }, .run .request)
  | .request => ({ c with waitRequest := none }, .run .load)
  | .load => (c, .run (.store c.waitState))
  | .store observed =>
    ({ c with waitState := waitRecordWord (waitRecordSequence observed + 1) 0 waitFree }, .ret ())

/-! ### Reading readiness -/

inductive SnapshotPc where
  | captureGeneration
  | injectionGeneration (capture : Word)
  | capture (capture injection : Word)
  | injection (capture injection : Word) (ready : Mask)
  deriving DecidableEq, Repr

/-- `readiness_snapshot`: both generations, then each queue under its own lock. -/
def readinessSnapshot (e : Env) : SnapshotPc → Flow SnapshotPc (Mask × Word × Word)
  | .captureGeneration => .run (.injectionGeneration e.captureGeneration)
  | .injectionGeneration capture => .run (.capture capture e.injectionGeneration)
  | .capture capture injection =>
    .run (.injection capture injection (if e.readable then adaptiveInterestReadable else 0))
  | .injection capture injection ready =>
    .ret (ready ||| (if e.writable then adaptiveInterestWritable else 0), capture, injection)

inductive StartedPc where
  | tx
  | rx (readableStarted : Bool)
  deriving DecidableEq, Repr

/-- `wait_interest_queues_started`. -/
def waitInterestQueuesStarted (e : Env) (interest : Mask) : StartedPc → Flow StartedPc Bool
  | .tx => .run (.rx (interest &&& adaptiveInterestReadable = 0 || e.txQueueStarted))
  | .rx readableStarted =>
    .ret (readableStarted && (interest &&& adaptiveInterestWritable = 0 || e.rxQueueStarted))

/-! ### Claiming a wait for a readiness transition -/

inductive ClaimPc where
  | enabled
  | load
  | request (observed : Word)
  | interest (observed : Word)
  | exchange (observed : Word) (satisfied : Mask)
  | enqueue
  deriving DecidableEq, Repr

/-- The word a claim publishes over the one it observed. -/
def claimedWord (observed : Word) (satisfied : Mask) : Word :=
  waitRecordWord (waitRecordSequence observed) (waitRecordSatisfied observed ||| satisfied) waitScheduled

/-- `claim_wait_for_passive_completion`. -/
def claimWaitForPassiveCompletion (e : Env) (c : Core) (t : ThreadId) (condition : Mask)
    (expected : Option Request) : ClaimPc → Core × Flow ClaimPc Bool
  | .enabled => (c, if condition = 0 ∨ !e.adaptiveEnabled then .ret false else .run .load)
  | .load =>
    let state := waitRecordState c.waitState
    (c, if state ≠ waitPending ∧ state ≠ waitScheduled then .ret false
      else .run (.request c.waitState))
  | .request observed =>
    (c, if c.waitRequest = none ∨ (expected ≠ none ∧ c.waitRequest ≠ expected) then .ret false
      else .run (.interest observed))
  | .interest observed =>
    let satisfied := c.waitInterest &&& condition
    (c, if satisfied = 0 then .ret false
      else if claimedWord observed satisfied = observed then .ret false
      else .run (.exchange observed satisfied))
  | .exchange observed satisfied =>
    if c.waitState = observed then
      let pending := decide (waitRecordState observed = waitPending)
      ({ c with
          waitState := claimedWord observed satisfied
          calls := .claim t c.waitRequest satisfied pending :: c.calls },
        if pending then .run .enqueue else .ret false)
    else (c, .run .load)
  | .enqueue => ({ c with workQueued := true, calls := .enqueue t :: c.calls }, .ret true)

/-! ### Unmarking and completing -/

/-- How the unmarking owner completes the request it retired. -/
inductive Completion where
  | response
  | status (status : NtStatus)
  deriving DecidableEq, Repr

inductive UnmarkPc where
  | unmark
  | handoff
  | finish (pc : FinishPc) (completion : Completion)
  | complete (completion : Completion)
  deriving DecidableEq, Repr

/-- `unmark_and_complete_wait`, entered by the exclusive `WAIT_UNMARKING` owner. -/
def unmarkAndCompleteWait (c : Core) (r : Request) (terminalStatus : NtStatus) (satisfied : Mask)
    (choice : Choice) : UnmarkPc → Core × Flow UnmarkPc Unit
  | .unmark =>
    let (c', status) := unmarkCancelable c r choice
    (c', if status = statusSuccess then .run (.finish .interest .response)
      else if status = statusCancelled then .run .handoff
      else .run (.finish .interest (.status status)))
  | .handoff =>
    ({ c with waitCancelHandoff := .unmarkCancelled },
      if c.waitCancelHandoff = .cancelArrived then
        .run (.finish .interest (.status statusCancelled))
      else .ret ())
  | .finish pc completion =>
    call (finishWait c pc) (.finish · completion) fun _ => .run (.complete completion)
  | .complete .response => (completeWaitResponse c r terminalStatus satisfied choice, .ret ())
  | .complete (.status status) => (completeRequest c r status, .ret ())

end WinTap

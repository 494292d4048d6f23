import Mathlib.Algebra.Group.Nat.Defs
import Mathlib.Logic.Function.Basic
import WinTap.Switch.BufferPool
import WinTap.Switch.Forwarding

/-!
# The runtime of the switch

The user-mode switch keeps a read or the write that answers it in flight for every one of its buffers, on an I/O ring.
Two tables say what a slot is used for: the states of `BufferPool`, and the operations that were built for the ring.
Here are the routines that work on them, each with the answers of the ring calls it makes.

An operation is built into the submission queue of the ring, submitted with everything else in the queue, and done when
its completion is popped. The ring completes what was submitted in any order, and gives each completion the user data
that the operation was built with.
-/

namespace WinTap.SwitchRuntime

open SwitchCore

/-! ### The identity of an operation -/

abbrev HResult := BitVec 32
abbrev UserData := Nat
abbrev Handle := Nat

def sOk : HResult := 0
def waitTimeout : HResult := 0x800705B4
def ioringSubmissionQueueFull : HResult := 0x80460002
def hresultFromNtStatusDeviceBusy : HResult := 0x90000011
def hresultFromNtStatusNoMoreEntries : HResult := 0x9000001A
def statusNoMoreEntries : HResult := 0x8000001A
def hresultFromWin32ErrorNoMoreItems : HResult := 0x80070103
def hresultFromWin32InvalidUserBuffer : HResult := 0x800706F8
def hresultFromWin32ErrorBusy : HResult := 0x800700AA

def slotBits : Nat := 31
def generationShift : Nat := slotBits
def generationBits : Nat := 32
def slotMask : Nat := 2 ^ slotBits - 1
def generationMask : Nat := 2 ^ generationBits - 1
def cancelCompletionMarker : UserData := 2 ^ 63
/-- `!CANCEL_COMPLETION_MARKER`, in 64 bits. -/
def cancelCompletionRest : UserData := 2 ^ 63 - 1

def adaptiveInterestReadable : Nat := 1
def adaptiveInterestWritable : Nat := 2

def maxBusyRetries : Nat := 8
def endpointCount : Nat := 2

/-- The errors that the routines return, by the text they are formatted with. -/
inductive RuntimeError where
  | text (message : String)
  /-- `"{message}: {error:?}"`. -/
  | pool (message : String) (error : SlotError)
  | forwarding (message : String) (error : ForwardingError)
  /-- `"{operation} failed with HRESULT 0x{status:08X}"`. -/
  | hresult (operation : String) (status : HResult)
  /-- `"{message} {slot}"`. -/
  | slot (message : String) (slot : Nat)
  deriving DecidableEq, Repr

def encodeCompletion (slot generation : Nat) : Except RuntimeError UserData :=
  if slotMask < slot then .error (.text "slot count exceeds completion identity capacity")
  else if generation = 0 ∨ generationMask < generation then
    .error (.text "slot generation exceeds completion identity capacity")
  else .ok (slot ||| generation <<< generationShift)

def decodeCompletion (value : UserData) : Except RuntimeError (Nat × Nat) :=
  if value &&& cancelCompletionMarker ≠ 0 then .error (.text "completion identity contains cancellation marker")
  else
    let generation := value >>> generationShift &&& generationMask
    if generation = 0 then .error (.text "completion identity contains invalid generation")
    else .ok (value &&& slotMask, generation)

def isDeviceBusy (status : HResult) : Bool :=
  status = hresultFromNtStatusDeviceBusy || status = hresultFromWin32InvalidUserBuffer ||
    status = hresultFromWin32ErrorBusy

def isNoMoreEntries (status : HResult) : Bool :=
  status = hresultFromNtStatusNoMoreEntries || status = statusNoMoreEntries ||
    status = hresultFromWin32ErrorNoMoreItems

def checkHr (status : HResult) (operation : String) : Except RuntimeError Unit :=
  if status = sOk then .ok () else .error (.hresult operation status)

/-! ### The I/O ring -/

/-- An entry of the ring. A read or a write names the buffer it works on, a cancellation the operation it cancels. -/
inductive Entry where
  | read (handle : Handle) (buffer length : Nat) (userData : UserData)
  | write (handle : Handle) (buffer length : Nat) (userData : UserData)
  | cancel (handle : Handle) (operation userData : UserData)
  deriving DecidableEq, Repr

def Entry.userData : Entry → UserData
  | .read _ _ _ userData | .write _ _ _ userData | .cancel _ _ userData => userData

/-- The entries of the ring whose completions have not been popped. -/
structure IoRing where
  /-- Built and not yet submitted. -/
  queue : List Entry
  submitted : List Entry
  deriving DecidableEq, Repr

namespace IoRing

/-- The `BuildIoRing` calls. -/
def build (ring : IoRing) (status : HResult) (entry : Entry) : IoRing :=
  if status = sOk then { ring with queue := ring.queue ++ [entry] } else ring

/-- `SubmitIoRing`, when it takes the queue. -/
def submit (ring : IoRing) : IoRing := { queue := [], submitted := ring.submitted ++ ring.queue }

/-- The completion of a submitted entry is popped. -/
def remove (ring : IoRing) (index : Nat) : IoRing := { ring with submitted := ring.submitted.eraseIdx index }

end IoRing

structure Completion where
  userData : UserData
  resultCode : HResult
  information : Nat
  /-- The bytes of the buffer when the operation completed. -/
  contents : Nat → UInt8

/-! ### The state -/

structure Endpoint where
  id : EndpointId
  handle : Handle
  deriving DecidableEq, Repr

/-- What the runtime is started with. `Runtime::start` checks the conditions. -/
structure Config where
  totalDepth : Nat
  frameMaximum : Nat
  adaptivePolling : Bool
  first : Endpoint
  second : Endpoint
  positive : 0 < totalDepth
  even : totalDepth % endpointCount = 0
  fits : totalDepth ≤ slotMask + 1

structure ActiveOperation where
  completion : SlotCompletion
  handle : Handle
  userData : UserData
  isWrite : Bool
  length : Nat
  queued : Bool
  submitted : Bool
  busyRetries : Nat
  drainBeforeCancellation : Bool
  deriving DecidableEq, Repr

namespace ActiveOperation

/-- The entry that an operation is built with. -/
def entry (operation : ActiveOperation) (slot : Nat) : Entry :=
  if operation.isWrite then .write operation.handle slot operation.length operation.userData
  else .read operation.handle slot operation.length operation.userData

/-- An operation that the device was too busy for, before it is built again. -/
def retried (operation : ActiveOperation) : ActiveOperation :=
  { operation with queued := false, submitted := false, busyRetries := operation.busyRetries + 1 }

def markSubmitted (operation : ActiveOperation) : ActiveOperation :=
  if operation.queued && !operation.submitted then { operation with submitted := true } else operation

def markDrain (operation : ActiveOperation) : ActiveOperation :=
  if operation.isWrite && operation.queued && !operation.submitted then
    { operation with drainBeforeCancellation := true }
  else operation

end ActiveOperation

structure AdaptiveWait where
  interest : Nat
  pending : Bool
  deriving DecidableEq, Repr

/-- `Runtime`. The tables `active` and `cancellations` have an entry for each of the `totalDepth` slots. -/
structure Runtime where
  ring : IoRing
  pool : BufferPool
  active : Nat → Option ActiveOperation
  cancellations : Nat → Option UserData
  operationsMayBeInFlight : Bool
  /-- The `adaptive_wait` of the first and of the second endpoint. -/
  waits : Option AdaptiveWait × Option AdaptiveWait

/-- A call that may fail: its result, and the runtime it leaves. -/
abbrev Called (α : Type) := Except RuntimeError α × Runtime

variable (c : Config)

namespace Config

def readsPerEndpoint : Nat := c.totalDepth / endpointCount

def endpointForSlot (slot : Nat) : Endpoint := if slot / c.readsPerEndpoint = 0 then c.first else c.second

def submissionQueueSize : Nat := c.totalDepth

def slots : List Nat := List.range c.totalDepth

end Config

namespace Runtime

variable (r : Runtime)

def setActive (slot : Nat) (operation : Option ActiveOperation) : Runtime :=
  { r with active := Function.update r.active slot operation }

def setCancellation (slot : Nat) (operation : Option UserData) : Runtime :=
  { r with cancellations := Function.update r.cancellations slot operation }

def setPool (pool : BufferPool) : Runtime := { r with pool := pool }

def build (status : HResult) (entry : Entry) : Runtime := { r with ring := r.ring.build status entry }

/-- A completion is popped. -/
def remove (index : Nat) : Runtime := { r with ring := r.ring.remove index }

/-- A pool call: the pool it leaves, and its error with a text. -/
def withPool {α : Type} (message : String) (result : Except SlotError α × BufferPool) : Called α :=
  (result.1.mapError (.pool message), r.setPool result.2)

def anyActive : Bool := c.slots.any fun slot => (r.active slot).isSome

/-! ### Building and submitting -/

def postRead (slot : Nat) (status : HResult) : Called Unit :=
  match r.withPool "begin read" (r.pool.beginRead slot) with
  | (.error e, r) => (.error e, r)
  | (.ok completion, r) => match encodeCompletion slot completion.generation with
    | .error e => (.error e, r)
    | .ok userData =>
      let handle := (c.endpointForSlot slot).handle
      let r := r.build status (.read handle slot c.frameMaximum userData)
      match checkHr status "BuildIoRingReadFile" with
      | .error e => (.error e, r)
      | .ok () => (.ok (), r.setActive slot (some {
          completion := completion
          handle := handle
          userData := userData
          isWrite := false
          length := c.frameMaximum
          queued := true
          submitted := false
          busyRetries := 0
          drainBeforeCancellation := false }))

def submitPendingOperations (status : HResult) : Called Unit :=
  match checkHr status "SubmitIoRing" with
  | .error e => (.error e, r)
  | .ok () => (.ok (), { r with
      ring := r.ring.submit
      active := fun slot => (r.active slot).map ActiveOperation.markSubmitted
      operationsMayBeInFlight := true })

/-- `wait_for_completion`. A call that times out may have taken the queue or not. -/
def waitForCompletion (status : HResult) (taken : Bool) : Called Bool :=
  if status = waitTimeout then (.ok false, if taken then { r with ring := r.ring.submit } else r)
  else match checkHr status "SubmitIoRing wait" with
    | .error e => (.error e, r)
    | .ok () => (.ok true, { r with ring := r.ring.submit })

/-! ### Completions -/

def validateCompletion (userData : UserData) : Except RuntimeError (Nat × Nat × ActiveOperation) :=
  match decodeCompletion userData with
  | .error e => .error e
  | .ok (slot, generation) =>
    if c.totalDepth ≤ slot then .error (.slot "completion references invalid slot" slot)
    else match r.active slot with
      | none => .error (.slot "completion references inactive slot" slot)
      | some operation =>
        if operation.completion.slot ≠ slot ∨ operation.completion.generation ≠ generation ∨
            operation.userData ≠ userData then
          .error (.slot "stale or unexpected completion for slot" slot)
        else .ok (slot, generation, operation)

def retryBusyOperation (slot : Nat) (status : HResult) : Called Unit :=
  match r.active slot with
  | none => (.error (.slot "busy completion references inactive slot" slot), r)
  | some operation =>
    if !operation.submitted then
      (.error (.slot "busy completion references inactive operation slot" slot), r)
    else if maxBusyRetries ≤ operation.busyRetries then
      match r.withPool "busy retry exhaustion cleanup" (r.pool.cancel operation.completion) with
      | (.error e, r) => (.error e, r)
      | (.ok (), r) => (.error (.slot "I/O-ring busy retry limit exceeded for slot" slot), r.setActive slot none)
    else
      let operation := operation.retried
      let r := (r.setActive slot (some operation)).build status (operation.entry slot)
      match checkHr status
          (if operation.isWrite then "BuildIoRingWriteFile retry" else "BuildIoRingReadFile retry") with
      | .error e => (.error e, r)
      | .ok () => (.ok (), r.setActive slot (some { operation with queued := true }))

/-- A slot that a frame is done with is read into again. -/
def completeAndPost (message : String) (result : Except SlotError Unit × BufferPool) (slot : Nat)
    (status : HResult) : Called Unit :=
  match r.withPool message result with
  | (.error e, r) => (.error e, r)
  | (.ok (), r) => r.postRead c slot status

/-- The write that passes a frame on to its recipient. -/
def postWrite (completion : SlotCompletion) (destination : EndpointId) (length : Nat) (status : HResult) :
    Called Unit :=
  let peer := if destination = c.first.id then c.first.handle else c.second.handle
  match r.withPool "begin write" (r.pool.beginWrites completion 1) with
  | (.error e, r) => (.error e, r)
  | (.ok (), r) => match encodeCompletion completion.slot completion.generation with
    | .error e => (.error e, r)
    | .ok userData =>
      let r := r.build status (.write peer completion.slot length userData)
      match checkHr status "BuildIoRingWriteFile" with
      | .error e => (.error e, r)
      | .ok () => (.ok (), r.setActive completion.slot (some {
          completion := completion
          handle := peer
          userData := userData
          isWrite := true
          length := length
          queued := true
          submitted := false
          busyRetries := 0
          drainBeforeCancellation := false }))

/-- A read has completed: its frame is forwarded, or dropped. -/
def dispatchRead (switch : Switch) (completion : SlotCompletion) (popped : Completion) (status : HResult) :
    Called Unit × Switch :=
  match r.withPool "read completion" (r.pool.beginDispatch completion) with
  | (.error e, r) => ((.error e, r), switch)
  | (.ok (), r) =>
    if popped.information ≤ c.frameMaximum then
      let bytes := (List.range popped.information).map popped.contents
      let (switch, result) := switch.forward (c.endpointForSlot completion.slot).id bytes
      match result with
      | .error (.invalidFrame _) =>
        (r.completeAndPost c "invalid frame" (r.pool.completeDispatch completion) completion.slot status, switch)
      | .error error => ((.error (.forwarding "forwarding failure" error), r), switch)
      | .ok (destination :: _) => (r.postWrite c completion destination popped.information status, switch)
      | .ok [] =>
        (r.completeAndPost c "drop completion" (r.pool.completeDispatch completion) completion.slot status, switch)
    else
      (r.completeAndPost c "invalid frame completion" (r.pool.completeDispatch completion) completion.slot status,
        switch)

/-- What `process_completion` answers: whether it took a read, or nothing. -/
def processCompletion (switch : Switch) (popped : Completion) (status : HResult) : Called (Option Bool) × Switch :=
  match r.validateCompletion c popped.userData with
  | .error e => ((.error e, r), switch)
  | .ok (slot, generation, operation) =>
    let completion : SlotCompletion := ⟨slot, generation⟩
    if isDeviceBusy popped.resultCode then
      let (result, r) := r.retryBusyOperation slot status
      ((result.map fun _ => none, r), switch)
    else
      let r := r.setActive slot none
      if c.adaptivePolling && !operation.isWrite && isNoMoreEntries popped.resultCode then
        let (result, r) := r.withPool "empty adaptive read completion" (r.pool.cancel completion)
        ((result.map fun _ => none, r), switch)
      else if popped.resultCode ≠ sOk then
        match r.withPool "failed operation completion" (r.pool.cancel completion) with
        | (.error e, r) => ((.error e, r), switch)
        | (.ok (), r) => ((.error (.hresult "I/O-ring operation" popped.resultCode), r), switch)
      else if operation.isWrite then
        let (result, r) := r.completeAndPost c "write completion" (r.pool.completeWrite completion) slot status
        ((result.map fun _ => some false, r), switch)
      else
        let ((result, r), switch) := r.dispatchRead c switch completion popped status
        ((result.map fun _ => some true, r), switch)

/-! ### Shutdown -/

/-- One slot of `retire_unqueued_operations`. -/
def retireUnqueuedOperation (slot : Nat) : Called Unit :=
  match r.active slot with
  | none => (.ok (), r)
  | some operation =>
    if operation.queued then (.ok (), r)
    else match r.withPool "retire unscheduled operation" (r.pool.cancel operation.completion) with
      | (.error e, r) => (.error e, r)
      | (.ok (), r) => (.ok (), r.setActive slot none)

/-- The writes that were not submitted yet are drained before anything is cancelled. -/
def markDrains : Runtime := { r with active := fun slot => (r.active slot).map ActiveOperation.markDrain }

def anyDrains : Bool := c.slots.any fun slot => (r.active slot).any ActiveOperation.drainBeforeCancellation

def anyCancellation : Bool := c.slots.any fun slot => (r.cancellations slot).isSome

/-- One slot of `queue_shutdown_cancellations` calls for a cancellation. -/
def wantsCancellation (slot : Nat) : Option ActiveOperation :=
  match r.active slot with
  | none => none
  | some operation =>
    if !operation.queued || !operation.submitted || (r.cancellations slot).isSome then none else some operation

def queueCancellation (slot : Nat) (operation : ActiveOperation) : Runtime :=
  (r.build sOk (.cancel operation.handle operation.userData
    (cancelCompletionMarker ||| operation.userData))).setCancellation slot (some operation.userData)

/-- `try_process_shutdown_completion`, once a completion was popped: the error that a cancellation reports. -/
def processShutdownCompletion (userData : UserData) (resultCode : HResult) : Called (Option RuntimeError) :=
  if userData &&& cancelCompletionMarker ≠ 0 then
    let operation := userData &&& cancelCompletionRest
    match decodeCompletion operation with
    | .error e => (.error e, r)
    | .ok (slot, _) =>
      if c.totalDepth ≤ slot then (.error (.slot "cancellation references invalid slot" slot), r)
      else if r.cancellations slot ≠ some operation then
        (.error (.slot "unexpected cancellation completion for slot" slot), r)
      else
        (.ok (if resultCode ≠ sOk then some (.hresult "I/O-ring cancellation" resultCode) else none),
          r.setCancellation slot none)
  else match r.validateCompletion c userData with
    | .error e => (.error e, r)
    | .ok (slot, generation, _) =>
      match r.withPool "cancel completion" (r.pool.cancel ⟨slot, generation⟩) with
      | (.error e, r) => (.error e, r)
      | (.ok (), r) => (.ok none, r.setActive slot none)

/-! ### Waiting for the driver -/

/-- `adaptive_interest_for_endpoint`. -/
def adaptiveInterestForEndpoint (handle : Handle) : Nat :=
  let backpressuredWrite := c.slots.any fun slot => (r.active slot).any fun operation =>
    operation.isWrite && operation.handle = handle && operation.busyRetries ≠ 0
  adaptiveInterestReadable ||| if backpressuredWrite then adaptiveInterestWritable else 0

end Runtime

/-- What the calls of `submit_adaptive_wait` answer: the event is not created, a wait for something else is not
cancelled, the request fails, the driver has a change at once, or the driver keeps the request. -/
inductive WaitAnswer where
  | createFailed (message : String)
  | cancelFailed (message : String)
  | requestFailed (message : String)
  | ready
  | pended
  deriving DecidableEq, Repr

/-- `submit_adaptive_wait`: whether there is a change, and the wait it leaves. -/
def submitAdaptiveWait (wait : Option AdaptiveWait) (interest : Nat) (answer : WaitAnswer) :
    Except RuntimeError Bool × Option AdaptiveWait :=
  let kept := wait.getD { interest := 0, pending := false }
  match answer with
  | .createFailed message => (.error (.text message), wait)
  | answer =>
    if kept.pending && kept.interest = interest then (.ok false, some kept)
    else match answer with
      | .createFailed message | .cancelFailed message => (.error (.text message), some kept)
      | .requestFailed message => (.error (.text message), some { interest := interest, pending := false })
      | .ready => (.ok true, some { interest := interest, pending := false })
      | .pended => (.ok false, some { interest := interest, pending := true })

end WinTap.SwitchRuntime

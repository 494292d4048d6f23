import WinTap.Driver.State

/-!
# READ, WRITE and the passive worker

The callbacks that move frames between the two frame queues and the user's requests. As in the wait
routines, a program counter holds the locals of the source at that point and one step is one atomic
operation or one section under a queue lock. A step that has to wait for a lock is not enabled.
-/

namespace WinTap

/-! ### The capture queue -/

inductive StorePc where
  | enqueue
  | generation (wasEmpty : Bool)
  | claim (pc : ClaimPc)
  deriving DecidableEq, Repr

/-- `enqueue_existing_capture_frame`. It returns whether the queue took the frame. -/
def enqueueExistingCaptureFrame (d : Device) (t : ThreadId) (f : Frame) :
    StorePc → Device × Flow StorePc Bool
  | .enqueue =>
    match d.capture.queue.enqueue f with
    | .error _ => (d, .ret false)
    | .ok queue =>
      ({ d with capture.queue := queue, log := .captured f :: d.log },
        .run (.generation d.capture.queue.isEmpty))
  | .generation wasEmpty =>
    ({ d with capture.generation := d.capture.generation + 1 },
      if wasEmpty then .run (.claim .enabled) else .ret true)
  | .claim pc =>
    call (onCore d (claimWaitForPassiveCompletion d.env d.core t adaptiveInterestReadable none pc))
      .claim fun _ => .ret true

inductive TakePc where
  | dequeue
  | generation (f : Frame)
  deriving DecidableEq, Repr

/-- `dequeue_capture_frame`. -/
def dequeueCaptureFrame (d : Device) : TakePc → Device × Flow TakePc (Option Frame)
  | .dequeue =>
    match d.capture.queue.dequeue with
    | none => (d, .ret none)
    | some (f, queue) => ({ d with capture.queue := queue }, .run (.generation f))
  | .generation f => ({ d with capture.generation := d.capture.generation + 1 }, .ret (some f))

inductive RequeuePc where
  | lease
  | lifecycle
  | owner
  | store (pc : StorePc)
  | drop
  deriving DecidableEq, Repr

/-- `requeue_capture_frame_and_schedule_wait`: put a frame back, under a lease of its own, unless its
owner has been retired. Whether the queue took it is ignored. -/
def requeueCaptureFrameAndScheduleWait (d : Device) (t : ThreadId) (f : Frame) (ownerGeneration : Word) :
    RequeuePc → Device × Flow RequeuePc Unit
  | .lease =>
    match acquireLease d.capture.callbackLeases with
    | none => (d, .ret ())
    | some leases => ({ d with capture.callbackLeases := leases }, .run .lifecycle)
  | .lifecycle => (d, .run (if d.lifecycle = .instanceOpen then .owner else .drop))
  | .owner => (d, .run (if d.ownerGeneration = ownerGeneration then .store .enqueue else .drop))
  | .store pc => call (enqueueExistingCaptureFrame d t f pc) .store fun _ => .run .drop
  | .drop =>
    ({ d with capture.callbackLeases := dropLease d.capture.callbackLeases }, .ret ())

/-! ### `evt_io_read` -/

inductive ReadPc where
  | lease
  | lifecycle
  | owner
  | adaptive (ownerGeneration : Word)
  | poll (ownerGeneration : Word) (pc : TakePc)
  | tryAdmit (ownerGeneration : Word)
  | take (ownerGeneration : Word) (pc : TakePc)
  | release (ownerGeneration : Word) (f : Frame)
  | deliver (ownerGeneration : Word) (f : Frame)
  | requeue (ownerGeneration : Word) (f : Frame) (status : NtStatus) (pc : RequeuePc)
  | forward
  | forwardFailed (status : NtStatus)
  | releaseRequest
  | complete (status : NtStatus)
  | drop
  /-- Completing a request that was refused its lease. -/
  | refuse
  deriving DecidableEq, Repr

def evtIoRead (d : Device) (t : ThreadId) (r : Read) (choice : Choice) :
    ReadPc → Device × Flow ReadPc Unit
  | .lease =>
    match acquireLease d.capture.callbackLeases with
    | none => (d, .run .refuse)
    | some leases => ({ d with capture.callbackLeases := leases }, .run .lifecycle)
  | .lifecycle =>
    (d, if d.lifecycle ≠ .instanceOpen then .run (.complete statusDeviceNotReady) else .run .owner)
  | .owner => (d, .run (.adaptive d.ownerGeneration))
  | .adaptive gen =>
    (d, if d.adaptiveEnabled then .run (.poll gen .dequeue) else .run (.tryAdmit gen))
  | .poll gen pc =>
    call (dequeueCaptureFrame d pc) (.poll gen) fun
      | some f => .run (.deliver gen f)
      | none => .run (.complete statusNoMoreEntries)
  | .tryAdmit gen =>
    match tryAdmit d.pendingReads pendingReadLimit with
    | none => (d, .run (.complete statusDeviceBusy))
    | some count => ({ d with pendingReads := count }, .run (.take gen .dequeue))
  | .take gen pc =>
    call (dequeueCaptureFrame d pc) (.take gen) fun
      | some f => .run (.release gen f)
      | none => .run .forward
  | .release gen f =>
    ({ d with pendingReads := releaseRequest d.pendingReads }, .run (.deliver gen f))
  | .deliver gen f =>
    let (d', status) := completeCapturedFrameToRead d r f choice
    (d', if status = statusSuccess then .run .drop else .run (.requeue gen f status .lease))
  | .requeue gen f status pc =>
    call (requeueCaptureFrameAndScheduleWait d t f gen pc) (.requeue gen f status) fun _ =>
      .run (.complete status)
  | .forward =>
    if d.readQueue.accepting ∧ choice = none then (parkRead d r, .run .drop)
    else (d, .run (.forwardFailed (failureStatus choice)))
  | .forwardFailed status => (completeRead d r status none, .run .releaseRequest)
  | .releaseRequest => ({ d with pendingReads := releaseRequest d.pendingReads }, .run .drop)
  | .complete status => (completeRead d r status none, .run .drop)
  | .drop =>
    ({ d with capture.callbackLeases := dropLease d.capture.callbackLeases }, .ret ())
  | .refuse => (completeRead d r statusDeviceNotReady none, .ret ())

/-! ### The READ part of the worker -/

inductive DrainPc where
  | lease
  | lifecycle
  | owner
  | retrieve (ownerGeneration : Word)
  | take (ownerGeneration : Word) (r : Read) (pc : TakePc)
  | release (ownerGeneration : Word) (r : Read) (f : Frame)
  | deliver (ownerGeneration : Word) (r : Read) (f : Frame)
  | requeue (ownerGeneration : Word) (r : Read) (f : Frame) (status : NtStatus) (pc : RequeuePc)
  | complete (r : Read) (status : NtStatus)
  /-- The lease goes out of scope and the loop goes round. -/
  | again
  | forward (r : Read)
  | forwardFailed (r : Read) (status : NtStatus)
  | releaseRequest
  /-- The lease goes out of scope and the callback returns. -/
  | stop
  deriving DecidableEq, Repr

/-- One turn of the loop of `evt_read_completion_work_item` after it found no scheduled wait. It returns
whether the loop goes round. -/
def drainReads (d : Device) (t : ThreadId) (choice : Choice) : DrainPc → Device × Flow DrainPc Bool
  | .lease =>
    match acquireLease d.capture.callbackLeases with
    | none => (d, .ret false)
    | some leases => ({ d with capture.callbackLeases := leases }, .run .lifecycle)
  | .lifecycle => (d, .run (if d.lifecycle ≠ .instanceOpen then .stop else .owner))
  | .owner => (d, .run (.retrieve d.ownerGeneration))
  | .retrieve gen =>
    match retrieveNextRequest d with
    | none => (d, .run .stop)
    | some (r, d') => (d', .run (.take gen r .dequeue))
  | .take gen r pc =>
    call (dequeueCaptureFrame d pc) (.take gen r) fun
      | some f => .run (.release gen r f)
      | none => .run (.forward r)
  | .release gen r f =>
    ({ d with pendingReads := releaseRequest d.pendingReads }, .run (.deliver gen r f))
  | .deliver gen r f =>
    let (d', status) := completeCapturedFrameToRead d r f choice
    (d', if status = statusSuccess then .run .again else .run (.requeue gen r f status .lease))
  | .requeue gen r f status pc =>
    call (requeueCaptureFrameAndScheduleWait d t f gen pc) (.requeue gen r f status) fun _ =>
      .run (.complete r status)
  | .complete r status => (completeRead d r status none, .run .again)
  | .again => ({ d with capture.callbackLeases := dropLease d.capture.callbackLeases }, .ret true)
  | .forward r =>
    if d.readQueue.accepting ∧ choice = none then (parkRead d r, .run .stop)
    else (d, .run (.forwardFailed r (failureStatus choice)))
  | .forwardFailed r status => (completeRead d r status none, .run .releaseRequest)
  | .releaseRequest => ({ d with pendingReads := releaseRequest d.pendingReads }, .run .stop)
  | .stop => ({ d with capture.callbackLeases := dropLease d.capture.callbackLeases }, .ret false)

/-- The worker is taking a scheduled wait, or draining READs. -/
inductive WorkPc where
  | wait (pc : WorkerPc)
  | drain (pc : DrainPc)
  deriving DecidableEq, Repr

def evtReadCompletionWorkItem (d : Device) (t : ThreadId) (choice : Choice) :
    WorkPc → Device × Flow WorkPc Unit
  | .wait pc =>
    call (onCore d (workerRound d.env d.core choice pc)) .wait fun took =>
      if took then .run (.wait (.take .load)) else .run (.drain .lease)
  | .drain pc =>
    call (drainReads d t choice pc) .drain fun goesRound =>
      if goesRound then .run (.wait (.take .load)) else .ret ()

/-! ### `evt_io_write` -/

/-- The arguments of a WRITE, with the outcome of retrieving its input buffer. -/
structure WriteInput where
  length : Nat
  retrieveStatus : NtStatus
  inputLength : Nat
  deriving DecidableEq, Repr

/-- The status a WRITE of this length is completed with before it is admitted, if any. -/
def writeLengthStatus (frameMaximum : Nat) (input : WriteInput) : Option NtStatus :=
  if input.length = 0 then some statusSuccess
  else if ¬(frameMinimum ≤ input.length ∧ input.length ≤ frameMaximum) then
    some statusInvalidParameter
  else none

/-- The status a WRITE with this buffer is completed with after it is admitted, if any. -/
def writeBufferStatus (frameMaximum : Nat) (input : WriteInput) : Option NtStatus :=
  if input.retrieveStatus ≠ statusSuccess then some input.retrieveStatus
  else if frameMaximum < input.inputLength then some statusInvalidBufferSize
  else none

/-- The status a WRITE is completed with when the queue refuses its frame. -/
def queueErrorStatus : QueueError → NtStatus
  | .full => statusDeviceBusy
  | .closed => statusDeviceNotReady
  | .invalidFrameLength => statusInvalidBufferSize
  | .insufficientResources => statusInsufficientResources

inductive WritePc where
  | lock
  | lifecycle
  | tryAdmit
  | capacity
  | allocate
  | enqueue (f : Frame)
  | generation
  | notification
  | releaseAccepted (notify : Bool)
  | completeAccepted (notify : Bool)
  | notify
  | release (status : NtStatus)
  | complete (status : NtStatus)
  | unlock
  deriving DecidableEq, Repr

/-- `evt_io_write`. The choice at `allocate` fails the frame allocation. -/
def evtIoWrite (d : Device) (t : ThreadId) (h : Handle) (input : WriteInput) (choice : Choice) :
    WritePc → Option (Device × Flow WritePc Unit)
  | .lock =>
    if d.writeLifetimeLock = none then
      some ({ d with writeLifetimeLock := some t }, .run .lifecycle)
    else none
  | .lifecycle =>
    some (d, .run <|
      if d.lifecycle ≠ .instanceOpen then .complete statusDeviceNotReady
      else match writeLengthStatus d.frameMaximum input with
        | some status => .complete status
        | none => .tryAdmit)
  | .tryAdmit =>
    match tryAdmit d.pendingWrites pendingWriteLimit with
    | none => some (d, .run (.complete statusDeviceBusy))
    | some count =>
      some ({ d with pendingWrites := count }, .run <|
        match writeBufferStatus d.frameMaximum input with
        | some status => .release status
        | none => .capacity)
  | .capacity =>
    some (d, .run <| match d.injection.queue.checkCapacity input.inputLength with
      | .error e => .release (queueErrorStatus e)
      | .ok () => .allocate)
  | .allocate =>
    if ¬(frameMinimum ≤ input.inputLength ∧ input.inputLength ≤ WinTap.frameMaximum) then
      some (d, .run (.release (queueErrorStatus .invalidFrameLength)))
    else if choice ≠ none then
      some (d, .run (.release (queueErrorStatus .insufficientResources)))
    else
      some ({ d with nextSerial := d.nextSerial + 1 },
        .run (.enqueue ⟨d.nextSerial, input.inputLength⟩))
  | .enqueue f =>
    match d.injection.queue.enqueue f with
    | .error e => some (d, .run (.release (queueErrorStatus e)))
    | .ok queue =>
      some ({ d with injection.queue := queue, log := .injected h f :: d.log }, .run .generation)
  | .generation =>
    some ({ d with injection.generation := d.injection.generation + 1 }, .run .notification)
  | .notification =>
    some ({ d with rxNotificationArmed := false }, .run (.releaseAccepted d.rxNotificationArmed))
  | .releaseAccepted notify =>
    some ({ d with pendingWrites := releaseRequest d.pendingWrites }, .run (.completeAccepted notify))
  | .completeAccepted notify =>
    some ({ d with log := .completed h statusSuccess input.inputLength :: d.log },
      .run (if notify then .notify else .unlock))
  | .notify => some ({ d with log := .notified :: d.log }, .run .unlock)
  | .release status =>
    some ({ d with pendingWrites := releaseRequest d.pendingWrites }, .run (.complete status))
  | .complete status =>
    some ({ d with log := .completed h status 0 :: d.log }, .run .unlock)
  | .unlock => some ({ d with writeLifetimeLock := none }, .ret ())

end WinTap

import WinTap.Wait.Protocol
import WinTap.Driver.FrameQueue
import WinTap.Driver.Lease

/-!
# The instance and the framework around it

`Device` is what the callbacks of one adapter instance share: the fields of `InstanceState` that they
read or write, the spin and wait locks, and the part of the framework's own bookkeeping that decides what
a framework call does. The wait protocol keeps its fields in `core`, and reads the rest through `env`.

A lock is the thread that holds it. The first operation of a section under the state lock takes the lock
and the last one releases it; a section with a single operation is one step that needs the lock free. The
two queue locks guard a single operation each, so they do not appear.

Three fields are history: `nextRead` and `nextSerial` number the READ requests and the frames, and `log`
lists, newest first, what the callbacks did that somebody outside can see.
-/

namespace WinTap

/-- An open of the control device. -/
abbrev Handle := Nat

def pendingReadLimit : Nat := 256
def pendingWriteLimit : Nat := 256

/-- A READ request: the handle it was issued through and the size of its output buffer. -/
structure Read where
  id : Nat
  handle : Handle
  outputLength : Nat
  deriving DecidableEq, Repr

/-- One direction of the datapath: its frame queue, the generation of that queue, and the lease word. -/
structure Channel where
  queue : FrameQueue
  generation : Word
  callbackLeases : Word
  deriving DecidableEq, Repr

/-- The manual queue `read_queue`, as the framework keeps it. -/
structure ManualQueue where
  waiting : List Read
  /-- Retrieved by the driver, and neither completed nor forwarded back. -/
  delivered : List Read
  /-- Requests can be forwarded to it. -/
  accepting : Bool
  deriving DecidableEq, Repr

/-- Where the device is in its power cycle. -/
inductive Power where
  | up
  | exiting
  | down
  | entering
  deriving DecidableEq, Repr

/-- How far the life of a handle has come. `drained` is a handle whose cleanup has waited out the
callback leases and has not returned. -/
inductive HandlePhase where
  | absent
  | opening
  | refused
  | opened
  | cleaning
  | drained
  | closed
  deriving DecidableEq, Repr

/-- What the callbacks did. -/
inductive Event where
  /-- A `WdfRequestComplete*` call on a READ, with the frame it returns. -/
  | readCompleted (r : Read) (status : NtStatus) (frame : Option Frame)
  /-- A READ was forwarded to `read_queue`. -/
  | readParked (r : Read)
  /-- A WRITE, ENABLE or CREATE request of the handle was completed. -/
  | completed (h : Handle) (status : NtStatus) (information : Nat)
  /-- A frame was enqueued into the capture queue. -/
  | captured (f : Frame)
  /-- A WRITE of the handle enqueued its frame into the injection queue. -/
  | injected (h : Handle) (f : Frame)
  /-- A frame was handed to the network stack. -/
  | indicated (f : Frame)
  /-- `NetRxQueueNotifyMoreReceivedPacketsAvailable`. -/
  | notified
  /-- The record of a wait issued through the handle became pending. -/
  | waitRegistered (h : Handle)
  /-- `evt_file_cleanup` of the handle returned. -/
  | cleanedUp (h : Handle)
  deriving DecidableEq, Repr

/-- The shared state of one adapter instance. -/
structure Device where
  core : Core
  /-- `capture_queue`, `capture_generation` and `tx_callback_leases`. -/
  capture : Channel
  /-- `injection_queue`, `injection_generation` and `rx_callback_leases`. -/
  injection : Channel
  readQueue : ManualQueue
  lifecycle : Lifecycle
  ownerGeneration : Word
  controlOpen : Bool
  adaptiveEnabled : Bool
  /-- The adapter object exists. -/
  adapter : Bool
  txQueueStarted : Bool
  rxQueueStarted : Bool
  rxNotificationArmed : Bool
  pendingReads : Nat
  pendingWrites : Nat
  legacyDirectReadClaims : Nat
  /-- `frame_maximum`: the MTU and the Ethernet header. -/
  frameMaximum : Nat
  stateLock : Option ThreadId
  legacyDirectReadLock : Option ThreadId
  writeLifetimeLock : Option ThreadId
  /-- The control queue dispatches one request at a time. -/
  controlLock : Option ThreadId
  /-- The packet queue callbacks of one direction are called one at a time. -/
  txCallback : Option ThreadId
  rxCallback : Option ThreadId
  /-- Work item callbacks that have started and not returned. -/
  workersRunning : Nat
  power : Power
  handles : Handle → HandlePhase
  nextRead : Nat
  nextSerial : Nat
  log : List Event

/-- What the wait protocol reads of the rest of the instance. -/
def Device.env (d : Device) : Env where
  lifecycle := d.lifecycle
  adaptiveEnabled := d.adaptiveEnabled
  txQueueStarted := d.txQueueStarted
  rxQueueStarted := d.rxQueueStarted
  captureGeneration := d.capture.generation
  injectionGeneration := d.injection.generation
  readable := !d.capture.queue.isEmpty
  writable := d.injection.queue.state = .opened && d.injection.queue.len < frameQueueLimit

/-- A step of a wait routine, on the whole instance. -/
def onCore {π ρ : Type} (d : Device) (step : Core × Flow π ρ) : Device × Flow π ρ :=
  ({ d with core := step.1 }, step.2)

@[simp] theorem onCore_fst {π ρ : Type} (d : Device) (step : Core × Flow π ρ) :
    (onCore d step).1 = { d with core := step.1 } := rfl

@[simp] theorem onCore_snd {π ρ : Type} (d : Device) (step : Core × Flow π ρ) :
    (onCore d step).2 = step.2 := rfl

/-! ### Framework calls -/

/-- The status a framework call fails with. -/
def failureStatus (choice : Choice) : NtStatus :=
  match choice with
  | none => statusDeviceNotReady
  | some status => if status = statusSuccess then statusDeviceNotReady else status

/-- A `WdfRequestComplete*` call on a READ. -/
def completeRead (d : Device) (r : Read) (status : NtStatus) (frame : Option Frame) : Device :=
  { d with
    readQueue.delivered := d.readQueue.delivered.erase r
    log := .readCompleted r status frame :: d.log }

/-- `WdfIoQueueRetrieveNextRequest` on the manual queue. -/
def retrieveNextRequest (d : Device) : Option (Read × Device) :=
  match d.readQueue.waiting with
  | [] => none
  | r :: rest =>
    some (r, { d with
      readQueue.waiting := rest
      readQueue.delivered := r :: d.readQueue.delivered })

/-- `WdfRequestForwardToIoQueue` to the manual queue, when it succeeds. -/
def parkRead (d : Device) (r : Read) : Device :=
  { d with
    readQueue.waiting := d.readQueue.waiting ++ [r]
    readQueue.delivered := d.readQueue.delivered.erase r
    log := .readParked r :: d.log }

/-- `complete_captured_frame_to_read`. The choice is the outcome of `WdfRequestRetrieveOutputBuffer`; a
success status there stands for a buffer that came back too short. -/
def completeCapturedFrameToRead (d : Device) (r : Read) (f : Frame) (choice : Choice) :
    Device × NtStatus :=
  match choice with
  | some status => (d, if status = statusSuccess then statusBufferTooSmall else status)
  | none =>
    if r.outputLength < f.length then (d, statusBufferTooSmall)
    else (completeRead d r statusSuccess (some f), statusSuccess)

/-- `WdfIoQueuePurgeSynchronously` on the manual queue, as it returns: the framework has cancelled what
was waiting, the driver has given back what it had retrieved, and nothing more is accepted. -/
def purgeQueue (d : Device) : Option Device :=
  if d.readQueue.delivered = [] then
    some { d with readQueue.waiting := [], readQueue.accepting := false }
  else none

/-- `resume_manual_queue`. -/
def resumeManualQueue (d : Device) : Device := { d with readQueue.accepting := true }

/-- `WdfWorkItemFlush`, as it returns. -/
def flushWorkItem (d : Device) : Option Device :=
  if d.core.workQueued = false ∧ d.workersRunning = 0 then some d else none

/-- `WdfWorkItemEnqueue`. -/
def enqueueWorkItem (d : Device) : Device := { d with core.workQueued := true }

/-! ### Counters -/

/-- `release_request` on a counter: it stays at zero. -/
def releaseRequest (count : Nat) : Nat := count - 1

/-- `try_admit` on a counter. -/
def tryAdmit (count limit : Nat) : Option Nat := if limit ≤ count then none else some (count + 1)

theorem tryAdmit_eq {count limit count' : Nat} (h : tryAdmit count limit = some count') :
    count' = count + 1 := by
  unfold tryAdmit at h
  split at h
  · cases h
  · exact (Option.some.inj h).symm

end WinTap

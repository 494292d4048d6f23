import WinTap.Driver.Packets
import WinTap.Driver.Lifecycle

/-!
# The driver as one system

Any number of callbacks run at once, each as a thread with its own program counter, and one step of the
system is one step of one of them, a callback that starts, or a move of the framework. What the framework
serializes is a guard on the start of a callback: the control queue dispatches one request at a time, the
packet queue callbacks of one direction do not overlap, and power transitions alternate. Nothing else is
serialized. In particular file callbacks run beside power callbacks, and the cleanup of a handle beside
the I/O of that handle that is already in progress.

A run starts with an instance that was brought up: its hardware is prepared, it is in D0, and no handle
is open.
-/

namespace WinTap

/-- A callback that is running, or none. -/
inductive Thread where
  | idle
  | read (r : Read) (pc : ReadPc)
  | write (h : Handle) (input : WriteInput) (pc : WritePc)
  | transmit (passive : Bool) (pc : TxPc)
  | receive (pc : RxPc)
  | worker (pc : WorkPc)
  | register (h : Handle) (r : Request) (input : WaitInput) (pc : RegisterPc)
  | cancel (r : Request) (pc : CancelPc)
  | enable (h : Handle) (input : EnableInput) (pc : EnablePc)
  | stopRead (r : Read) (pc : StopReadPc)
  | stopControl (r : Request) (pc : StopControlPc)
  | create (h : Handle) (pc : CreatePc)
  | cleanup (h : Handle) (pc : CleanupPc)
  | d0Entry (pc : D0EntryPc)
  | d0Exit (pc : D0ExitPc)
  | queueStop (isTransmit : Bool) (pc : QueueStopPc)
  | notification (pc : NotificationPc)
  deriving DecidableEq, Repr

structure Driver where
  dev : Device
  thr : ThreadId → Thread

inductive Action where
  /-- The framework opens a handle. -/
  | create (t : ThreadId) (h : Handle)
  /-- The framework closes a handle. -/
  | cleanup (t : ThreadId) (h : Handle)
  | read (t : ThreadId) (h : Handle) (outputLength : Nat)
  | write (t : ThreadId) (h : Handle) (input : WriteInput)
  | register (t : ThreadId) (h : Handle) (r : Request) (input : WaitInput)
  | enable (t : ThreadId) (h : Handle) (input : EnableInput)
  | transmit (t : ThreadId) (passive : Bool)
  | receive (t : ThreadId)
  /-- The framework starts the queued work item. -/
  | work (t : ThreadId)
  /-- A marked wait is cancelled. -/
  | cancelRequest (r : Request)
  /-- The framework runs a cancellation callback it owes. -/
  | cancel (t : ThreadId) (r : Request)
  /-- A READ waiting in the manual queue is cancelled; the framework completes it. -/
  | cancelRead (r : Read)
  /-- The framework stops the manual queue for a READ that the driver has retrieved. -/
  | stopRead (t : ThreadId) (r : Read)
  | stopControl (t : ThreadId) (r : Request)
  | d0Entry (t : ThreadId)
  | d0Exit (t : ThreadId)
  | queueStart (isTransmit : Bool)
  | queueStop (t : ThreadId) (isTransmit : Bool)
  | setNotificationEnabled (t : ThreadId) (enabled : Bool)
  | queueCancel
  /-- The TX callback finds a packet of this length in its ring. -/
  | packet (t : ThreadId) (length : Nat)
  /-- The thread takes its next step. -/
  | advance (t : ThreadId) (choice : Choice)
  deriving DecidableEq, Repr

/-- The thread that an action is about. -/
def Action.thread : Action → Option ThreadId
  | .create t _ | .cleanup t _ | .read t _ _ | .write t _ _ | .register t _ _ _ | .enable t _ _
  | .transmit t _ | .receive t | .work t | .cancel t _ | .stopRead t _ | .stopControl t _ | .d0Entry t
  | .d0Exit t | .queueStop t _ | .setNotificationEnabled t _ | .packet t _ | .advance t _ => some t
  | .cancelRequest _ | .cancelRead _ | .queueStart _ | .queueCancel => none

/-! ### One step of a thread -/

/-- What the framework does when a callback returns. -/
def Thread.finish (d : Device) : Thread → Device
  | .transmit .. => { d with txCallback := none }
  | .receive .. | .notification .. => { d with rxCallback := none }
  | .queueStop isTransmit _ =>
    if isTransmit then { d with txCallback := none } else { d with rxCallback := none }
  | .worker .. => { d with workersRunning := d.workersRunning - 1 }
  | .register .. | .enable .. | .stopControl .. => { d with controlLock := none }
  | .cleanup h _ =>
    { d with handles := Function.update d.handles h .closed, log := .cleanedUp h :: d.log }
  | .d0Entry .. => { d with power := .up }
  | .d0Exit .. => { d with power := .down }
  | _ => d

/-- Put a stepped callback back into its thread. -/
def Thread.settle {π : Type} (th : Thread) (inside : π → Thread) (result : Device × Flow π Unit) :
    Device × Thread :=
  match result.2 with
  | .run pc => (result.1, inside pc)
  | .ret () => (th.finish result.1, .idle)

/-- The step with which the record of a registration becomes pending. -/
def becomesPending : RegisterPc → Flow RegisterPc Unit → Bool
  | .toPending _, .run (.resnapshot .captureGeneration) => true
  | _, _ => false

/-- A step of `handle_wait_for_change`, on the whole instance. -/
def registerWait (d : Device) (t : ThreadId) (h : Handle) (r : Request) (input : WaitInput)
    (choice : Choice) (pc : RegisterPc) : Device × Flow RegisterPc Unit :=
  let result := onCore d (handleWaitForChange d.env d.core t r input choice pc)
  if becomesPending pc result.2 then
    ({ result.1 with log := .waitRegistered h :: d.log }, result.2)
  else result

def stepThread (d : Device) (t : ThreadId) (choice : Choice) (th : Thread) :
    Option (Device × Thread) :=
  match th with
  | .idle => none
  | .read r pc => some (th.settle (.read r) (evtIoRead d t r choice pc))
  | .write h input pc => (evtIoWrite d t h input choice pc).map (th.settle (.write h input))
  | .transmit passive pc =>
    some (th.settle (.transmit passive) (advanceTransmit d t passive choice pc))
  | .receive pc => some (th.settle .receive (advanceReceive d t choice pc))
  | .worker pc => some (th.settle .worker (evtReadCompletionWorkItem d t choice pc))
  | .register h r input pc =>
    some (th.settle (.register h r input) (registerWait d t h r input choice pc))
  | .cancel r pc => some (th.settle (.cancel r) (onCore d (cancelWaitFromWdf d.core r pc)))
  | .enable h input pc =>
    (handleEnableAdaptivePolling d t h input pc).map (th.settle (.enable h input))
  | .stopRead r pc => some (th.settle (.stopRead r) (WinTap.stopRead d r pc))
  | .stopControl r pc => some (th.settle (.stopControl r) (WinTap.stopControl d r choice pc))
  | .create h pc => some (th.settle (.create h) (evtFileCreate d h pc))
  | .cleanup h pc => (evtFileCleanup d t h choice pc).map (th.settle (.cleanup h))
  | .d0Entry pc => (evtDeviceD0Entry d pc).map (th.settle .d0Entry)
  | .d0Exit pc => (evtDeviceD0Exit d t choice pc).map (th.settle .d0Exit)
  | .queueStop isTransmit pc =>
    (evtPacketQueueStop d isTransmit choice pc).map (th.settle (.queueStop isTransmit))
  | .notification pc => some (th.settle .notification (setNotificationEnabled d pc))

/-- A TX callback finds a packet in its ring. -/
def packetThread (d : Device) (length : Nat) : Thread → Option (Device × Thread)
  | .transmit passive pc => (takePacket d length pc).map fun (d', pc') => (d', .transmit passive pc')
  | _ => none

/-! ### The system -/

namespace Driver

def setThread (s : Driver) (t : ThreadId) (d : Device) (th : Thread) : Driver where
  dev := d
  thr := Function.update s.thr t th

end Driver

/-- Start a callback on an idle thread, when the framework lets it. -/
def startThread (s : Driver) (t : ThreadId) (allowed : Prop) [Decidable allowed] (d : Device)
    (th : Thread) : Option Driver :=
  if s.thr t = .idle ∧ allowed then some (s.setThread t d th) else none

def stepDriver (s : Driver) : Action → Option Driver
  | .create t h =>
    startThread s t (s.dev.handles h = .absent)
      { s.dev with handles := Function.update s.dev.handles h .opening } (.create h .claim)
  | .cleanup t h =>
    startThread s t (s.dev.handles h = .opened)
      { s.dev with handles := Function.update s.dev.handles h .cleaning } (.cleanup h .retire)
  | .read t h outputLength =>
    startThread s t (s.dev.handles h = .opened) { s.dev with nextRead := s.dev.nextRead + 1 }
      (.read ⟨s.dev.nextRead, h, outputLength⟩ .lease)
  | .write t h input => startThread s t (s.dev.handles h = .opened) s.dev (.write h input .lock)
  | .register t h r input =>
    startThread s t
      (s.dev.handles h = .opened ∧ s.dev.controlLock = none ∧ s.dev.core.cancel r = .absent)
      { s.dev with core := dispatchRequest s.dev.core r input.interest, controlLock := some t }
      (.register h r input .validate)
  | .enable t h input =>
    startThread s t (s.dev.handles h = .opened ∧ s.dev.controlLock = none)
      { s.dev with controlLock := some t } (.enable h input .validate)
  | .transmit t passive =>
    startThread s t (s.dev.txCallback = none) { s.dev with txCallback := some t }
      (.transmit passive .lease)
  | .receive t =>
    startThread s t (s.dev.rxCallback = none) { s.dev with rxCallback := some t } (.receive .lease)
  | .work t =>
    startThread s t (s.dev.core.workQueued = true)
      { s.dev with core.workQueued := false, workersRunning := s.dev.workersRunning + 1 }
      (.worker (.wait (.take .load)))
  | .cancelRequest r =>
    if s.dev.core.cancel r = .marked then
      some { s with dev.core := setCancel s.dev.core r .owed }
    else none
  | .cancel t r =>
    startThread s t (s.dev.core.cancel r = .owed)
      { s.dev with core := setCancel s.dev.core r .called } (.cancel r .active)
  | .cancelRead r =>
    if r ∈ s.dev.readQueue.waiting then
      some { s with dev.readQueue.waiting := s.dev.readQueue.waiting.erase r }
    else none
  | .stopRead t r =>
    startThread s t (r ∈ s.dev.readQueue.delivered) s.dev (.stopRead r .release)
  | .stopControl t r =>
    startThread s t (s.dev.controlLock = none) { s.dev with controlLock := some t }
      (.stopControl r .active)
  | .d0Entry t =>
    startThread s t (s.dev.power = .down) { s.dev with power := .entering } (.d0Entry .adaptive)
  | .d0Exit t =>
    startThread s t (s.dev.power = .up) { s.dev with power := .exiting } (.d0Exit .suspend)
  | .queueStart isTransmit =>
    if isTransmit then
      if s.dev.txCallback = none then some { s with dev.txQueueStarted := true } else none
    else if s.dev.rxCallback = none then some { s with dev.rxQueueStarted := true } else none
  | .queueStop t isTransmit =>
    if isTransmit then
      startThread s t (s.dev.txCallback = none) { s.dev with txCallback := some t }
        (.queueStop true .stop)
    else
      startThread s t (s.dev.rxCallback = none) { s.dev with rxCallback := some t }
        (.queueStop false .stop)
  | .setNotificationEnabled t enabled =>
    startThread s t (s.dev.rxCallback = none) { s.dev with rxCallback := some t }
      (.notification (.arm enabled))
  | .queueCancel =>
    if s.dev.rxCallback = none then some { s with dev.rxNotificationArmed := false } else none
  | .packet t length =>
    (packetThread s.dev length (s.thr t)).map fun (d, th) => s.setThread t d th
  | .advance t choice =>
    (stepThread s.dev t choice (s.thr t)).map fun (d, th) => s.setThread t d th

def defaultMtu : Nat := 1500
def maximumMtu : Nat := 65521

/-- One direction of an instance that was brought up: `create_tap_device` made its queue, and the first
entry into D0 reopened it. -/
def Channel.initial (mtu : Nat) : Channel where
  queue := .tryNew frameQueueLimit (frameQueueLimit * (mtu + frameMinimum))
  generation := 1
  callbackLeases := 0

/-- An instance that was brought up and has no handle open. -/
def Device.initial (mtu : Nat) : Device where
  core := Core.initial
  capture := .initial mtu
  injection := .initial mtu
  readQueue := { waiting := [], delivered := [], accepting := true }
  lifecycle := .instanceOpen
  ownerGeneration := 0
  controlOpen := false
  adaptiveEnabled := false
  adapter := true
  txQueueStarted := false
  rxQueueStarted := false
  rxNotificationArmed := false
  pendingReads := 0
  pendingWrites := 0
  legacyDirectReadClaims := 0
  frameMaximum := mtu + frameMinimum
  stateLock := none
  legacyDirectReadLock := none
  writeLifetimeLock := none
  controlLock := none
  txCallback := none
  rxCallback := none
  workersRunning := 0
  power := .up
  handles := fun _ => .absent
  nextRead := 0
  nextSerial := 0
  log := []

/-- Any interleaving of the callbacks, from any instance that was brought up. -/
def driverSystem : Machine.System Driver Action where
  init s := (∃ mtu, defaultMtu ≤ mtu ∧ mtu ≤ maximumMtu ∧ s.dev = .initial mtu) ∧
    ∀ t, s.thr t = .idle
  step := stepDriver

/-- A state that some run of the driver reaches, with every step meeting `ok`. -/
abbrev DriverReach (ok : Driver → Action → Prop) : Driver → Prop := Machine.Reach driverSystem ok

end WinTap

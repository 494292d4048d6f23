import WinTap.Driver.System

/-!
# The hardware callbacks

An instance from the moment its device was added: the adapter exists, both queues are open, and the hardware closer is
set. `evt_device_prepare_hardware` starts the adapter and releases that closer, and `evt_device_release_hardware` takes
everything down again. The framework calls them one at a time, prepares the hardware before the first entry into D0
and releases it after an exit from D0; everything else runs beside them as it does in `driverSystem`. A device whose
hardware could not be prepared is not started.
-/

namespace WinTap

/-! ### `evt_device_prepare_hardware` -/

inductive PreparePc where
  | closeLifecycle
  | checkAdapter (adapter : Bool)
  | readmitCallbacks (pc : ReadmitPc)
  | startAdapter
  deriving DecidableEq, Repr

/-- How a call ends: the adapter is gone, or `NetAdapterStart` was reached and returned a status. -/
inductive PrepareOutcome where
  | noAdapter
  | started (status : NtStatus)
  deriving DecidableEq, Repr

/-- The status that is returned to the framework. -/
def PrepareOutcome.status : PrepareOutcome → NtStatus
  | .noAdapter => statusInsufficientResources
  | .started status => status

/-- `evt_device_prepare_hardware`. Setting the capabilities of the adapter changes nothing of the instance. -/
def evtDevicePrepareHardware (d : Device) (choice : Choice) :
    PreparePc → Option (Device × Flow PreparePc PrepareOutcome)
  | .closeLifecycle =>
    if d.stateLock = none then
      some ({ d with lifecycle := .instanceClosing }, .run (.checkAdapter d.adapter))
    else none
  | .checkAdapter adapter =>
    some (d, if adapter then .run (.readmitCallbacks .receive) else .ret .noAdapter)
  | .readmitCallbacks pc =>
    some (call (resumeDatapathCallbacks d .hardware pc) .readmitCallbacks fun _ => .run .startAdapter)
  | .startAdapter =>
    some (d, .ret (.started (if choice = none then statusSuccess else failureStatus choice)))

/-! ### `evt_device_release_hardware` -/

inductive ReleasePc where
  | closeLifecycle
  | stopAdapter (adapter adaptive : Bool)
  | quiesce (adaptive : Bool) (pc : QuiescePc)
  | lockDirect (adaptive : Bool)
  | lockWrite (adaptive : Bool)
  | teardown (adaptive : Bool) (pc : TeardownPc)
  | flush (adaptive : Bool)
  | purge (adaptive : Bool)
  | flushAgain
  | clear (pc : SweepPc)
  | zeroReads
  | zeroWrites
  | stopTransmit
  | stopReceive
  | disarm
  | dropAdapter
  | closed
  | unlockWrite
  | unlockDirect
  deriving DecidableEq, Repr

/-- `evt_device_release_hardware`. The hardware closer stays set. The calls of the adapter's own stop reach the packet
queue callbacks, which are callbacks of their own here. -/
def evtDeviceReleaseHardware (d : Device) (t : ThreadId) (choice : Choice) :
    ReleasePc → Option (Device × Flow ReleasePc Unit)
  | .closeLifecycle =>
    if d.stateLock = none then
      some ({ d with lifecycle := .instanceClosing }, .run (.stopAdapter d.adapter d.adaptiveEnabled))
    else none
  | .stopAdapter _ adaptive => some (d, .run (.quiesce adaptive .shutReceive))
  | .quiesce adaptive pc =>
    callBlocking (quiesceDatapathCallbacks d .hardware pc) (.quiesce adaptive) fun _ =>
      .run (.lockDirect adaptive)
  | .lockDirect adaptive =>
    if d.legacyDirectReadLock = none then
      some ({ d with legacyDirectReadLock := some t }, .run (.lockWrite adaptive))
    else none
  | .lockWrite adaptive =>
    if d.writeLifetimeLock = none then
      some ({ d with writeLifetimeLock := some t }, .run (.teardown adaptive .load))
    else none
  | .teardown adaptive pc =>
    some (call (cancelWaitForTeardown d choice pc) (.teardown adaptive) fun _ => .run (.flush adaptive))
  | .flush adaptive => (flushWorkItem d).map fun d' => (d', .run (.purge adaptive))
  | .purge adaptive =>
    if adaptive then some (d, .run .flushAgain)
    else (purgeQueue d).map fun d' => (d', .run .flushAgain)
  | .flushAgain => (flushWorkItem d).map fun d' => (d', .run (.clear .injection))
  | .clear pc => some (call (clearFrameQueues d pc) .clear fun _ => .run .zeroReads)
  | .zeroReads =>
    if d.stateLock = none then
      some ({ d with pendingReads := 0, stateLock := some t }, .run .zeroWrites)
    else none
  | .zeroWrites => some ({ d with pendingWrites := 0 }, .run .stopTransmit)
  | .stopTransmit => some ({ d with txQueueStarted := false }, .run .stopReceive)
  | .stopReceive => some ({ d with rxQueueStarted := false }, .run .disarm)
  | .disarm => some ({ d with rxNotificationArmed := false }, .run .dropAdapter)
  | .dropAdapter => some ({ d with adapter := false }, .run .closed)
  | .closed => some ({ d with lifecycle := .instanceClosed, stateLock := none }, .run .unlockWrite)
  | .unlockWrite => some ({ d with writeLifetimeLock := none }, .run .unlockDirect)
  | .unlockDirect => some ({ d with legacyDirectReadLock := none }, .ret ())

/-! ### The system -/

/-- Where the framework is with the hardware of the device. -/
inductive Hardware where
  | unprepared
  | preparing (t : ThreadId) (pc : PreparePc)
  | prepared
  | failed
  | releasing (t : ThreadId) (pc : ReleasePc)
  deriving DecidableEq, Repr

/-- The thread that a hardware callback runs on. -/
def Hardware.thread : Hardware → Option ThreadId
  | .preparing t _ | .releasing t _ => some t
  | .unprepared | .prepared | .failed => none

inductive HardwareEvent where
  | prepareReturned (outcome : PrepareOutcome)
  | released
  deriving DecidableEq, Repr

structure Instance where
  driver : Driver
  hardware : Hardware
  /-- What the hardware callbacks returned. -/
  hardwareLog : List HardwareEvent

inductive InstanceAction where
  | prepareHardware (t : ThreadId)
  | releaseHardware (t : ThreadId)
  /-- The hardware callback takes its next step. -/
  | hardware (choice : Choice)
  | driver (a : Action)
  deriving DecidableEq, Repr

namespace Instance

/-- Put a stepped `evt_device_prepare_hardware` back. -/
def settlePrepare (s : Instance) (t : ThreadId) (result : Device × Flow PreparePc PrepareOutcome) : Instance :=
  match result.2 with
  | .run pc => { s with driver.dev := result.1, hardware := .preparing t pc }
  | .ret outcome =>
    { driver := { s.driver with dev := result.1 }
      hardware := if outcome.status = statusSuccess then .prepared else .failed
      hardwareLog := .prepareReturned outcome :: s.hardwareLog }

/-- Put a stepped `evt_device_release_hardware` back. -/
def settleRelease (s : Instance) (t : ThreadId) (result : Device × Flow ReleasePc Unit) : Instance :=
  match result.2 with
  | .run pc => { s with driver.dev := result.1, hardware := .releasing t pc }
  | .ret () =>
    { driver := { s.driver with dev := result.1 }, hardware := .unprepared
      hardwareLog := .released :: s.hardwareLog }

end Instance

/-- One step of the hardware callback that is running. -/
def stepHardware (s : Instance) (choice : Choice) : Option Instance :=
  match s.hardware with
  | .preparing t pc => (evtDevicePrepareHardware s.driver.dev choice pc).map (s.settlePrepare t)
  | .releasing t pc => (evtDeviceReleaseHardware s.driver.dev t choice pc).map (s.settleRelease t)
  | .unprepared | .prepared | .failed => none

/-- A callback of the driver may take a step: it is on a thread of its own, and the device enters D0 only with its
hardware prepared. -/
def Hardware.allows (hw : Hardware) (a : Action) : Bool :=
  a.thread.all (fun t => hw.thread ≠ some t) &&
    match a with
    | .d0Entry _ => hw = .prepared
    | _ => true

def stepInstance (s : Instance) : InstanceAction → Option Instance
  | .prepareHardware t =>
    if s.hardware = .unprepared ∧ s.driver.thr t = .idle then
      some { s with hardware := .preparing t .closeLifecycle }
    else none
  | .releaseHardware t =>
    if (s.hardware = .prepared ∨ s.hardware = .failed) ∧ s.driver.dev.power = .down ∧ s.driver.thr t = .idle then
      some { s with hardware := .releasing t .closeLifecycle }
    else none
  | .hardware choice => stepHardware s choice
  | .driver a =>
    if s.hardware.allows a then (stepDriver s.driver a).map fun driver => { s with driver := driver } else none

/-- An instance whose device was added and not started. -/
def Device.added (mtu : Nat) : Device :=
  { Device.initial mtu with
    capture := { Channel.initial mtu with generation := 0, callbackLeases := Closer.hardware.mask }
    injection := { Channel.initial mtu with generation := 0, callbackLeases := Closer.hardware.mask }
    power := .down }

def Instance.added (mtu : Nat) : Instance where
  driver := { dev := .added mtu, thr := fun _ => .idle }
  hardware := .unprepared
  hardwareLog := []

/-- Any interleaving of the callbacks, from any device that was added. -/
def instanceSystem : Machine.System Instance InstanceAction where
  init s := ∃ mtu, defaultMtu ≤ mtu ∧ mtu ≤ maximumMtu ∧ s = .added mtu
  step := stepInstance

abbrev InstanceReach (ok : Instance → InstanceAction → Prop) : Instance → Prop :=
  Machine.Reach instanceSystem ok

end WinTap

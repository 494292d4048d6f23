import WinTap.Driver.DataPath

/-!
# Opening, closing and power

The callbacks that change what the datapath may do: opening a handle, enabling adaptive polling, the
cleanup of a handle, and the power transitions. The three teardown paths share their parts, each with its
own program counter: quiescing the packet callbacks, cancelling the wait, and sweeping both frame queues.
-/

namespace WinTap

/-! ### Shared parts -/

inductive QuiescePc where
  | shutReceive
  | shutCapture
  | drainReceive
  | drainCapture
  deriving DecidableEq, Repr

/-- `quiesce_datapath_callbacks`. A drain polls its word, so it goes on once it reads a count of zero. -/
def quiesceDatapathCallbacks (d : Device) (closer : Closer) :
    QuiescePc → Option (Device × Flow QuiescePc Unit)
  | .shutReceive =>
    some ({ d with injection.callbackLeases := shutLeases d.injection.callbackLeases closer },
      .run .shutCapture)
  | .shutCapture =>
    some ({ d with capture.callbackLeases := shutLeases d.capture.callbackLeases closer },
      .run .drainReceive)
  | .drainReceive =>
    if leaseCount d.injection.callbackLeases = 0 then some (d, .run .drainCapture) else none
  | .drainCapture => if leaseCount d.capture.callbackLeases = 0 then some (d, .ret ()) else none

inductive ReadmitPc where
  | receive
  | capture
  deriving DecidableEq, Repr

/-- `resume_datapath_callbacks`. -/
def resumeDatapathCallbacks (d : Device) (closer : Closer) : ReadmitPc → Device × Flow ReadmitPc Unit
  | .receive =>
    ({ d with injection.callbackLeases := resumeLeases d.injection.callbackLeases closer },
      .run .capture)
  | .capture =>
    ({ d with capture.callbackLeases := resumeLeases d.capture.callbackLeases closer }, .ret ())

inductive SweepPc where
  | injection
  | injectionGeneration
  | capture
  | captureGeneration
  deriving DecidableEq, Repr

/-- Do the same to both frame queues, and count each as changed. -/
def sweepFrameQueues (d : Device) (change : FrameQueue → FrameQueue) :
    SweepPc → Device × Flow SweepPc Unit
  | .injection =>
    ({ d with injection.queue := change d.injection.queue }, .run .injectionGeneration)
  | .injectionGeneration =>
    ({ d with injection.generation := d.injection.generation + 1 }, .run .capture)
  | .capture => ({ d with capture.queue := change d.capture.queue }, .run .captureGeneration)
  | .captureGeneration => ({ d with capture.generation := d.capture.generation + 1 }, .ret ())

/-- `clear_frame_queues`. -/
def clearFrameQueues (d : Device) : SweepPc → Device × Flow SweepPc Unit :=
  sweepFrameQueues d FrameQueue.close

/-- `reopen_frame_queues`. -/
def reopenFrameQueues (d : Device) : SweepPc → Device × Flow SweepPc Unit :=
  sweepFrameQueues d FrameQueue.reopen

/-- A step of a called routine that may be blocked, seen from the caller. -/
def callBlocking {κ π ρ π' ρ' : Type} (step : Option (κ × Flow π ρ)) (inside : π → π')
    (after : ρ → Flow π' ρ') : Option (κ × Flow π' ρ') :=
  step.map fun result => call result inside after

/-- `cancel_wait_for_teardown`, on the whole instance. -/
def cancelWaitForTeardown (d : Device) (choice : Choice) (pc : TeardownPc) :
    Device × Flow TeardownPc Bool :=
  onCore d (cancelWaitRequestForTeardown d.core none choice pc)

/-! ### Opening -/

inductive CreatePc where
  | claim
  | complete (status : NtStatus)
  deriving DecidableEq, Repr

/-- `evt_file_create`. -/
def evtFileCreate (d : Device) (h : Handle) : CreatePc → Device × Flow CreatePc Unit
  | .claim =>
    if d.controlOpen then (d, .run (.complete statusDeviceBusy))
    else ({ d with controlOpen := true }, .run (.complete statusSuccess))
  | .complete status =>
    ({ d with
        handles := Function.update d.handles h (if status = statusSuccess then .opened else .refused)
        log := .completed h status 0 :: d.log }, .ret ())

/-! ### Adaptive polling -/

/-- The arguments of an ENABLE request, with the outcomes of retrieving its buffers. -/
structure EnableInput where
  inputLength : Nat
  outputLength : Nat
  inputStatus : NtStatus
  actualInputLength : Nat
  version : BitVec 32
  flags : Mask
  outputStatus : NtStatus
  actualOutputLength : Nat
  deriving DecidableEq, Repr

/-- The size of `AdaptiveEnableRequest`. -/
def adaptiveEnableRequestSize : Nat := 8

/-- The size of `AdaptiveEnableResponse`. -/
def adaptiveEnableResponseSize : Nat := 8

/-- The status a malformed request is completed with, or none for a request that goes on. -/
def enableInputError (input : EnableInput) : Option NtStatus :=
  if input.inputLength ≠ adaptiveEnableRequestSize
      ∨ input.outputLength ≠ adaptiveEnableResponseSize then
    some statusInvalidBufferSize
  else if input.inputStatus ≠ statusSuccess
      ∨ input.actualInputLength ≠ adaptiveEnableRequestSize then
    some (if input.inputStatus = statusSuccess then statusInvalidBufferSize else input.inputStatus)
  else if input.version ≠ adaptivePollingProtocolVersion ∨ input.flags = 0
      ∨ input.flags &&& ~~~adaptiveInterestSupported ≠ 0 then
    some statusNotSupported
  else if input.outputStatus ≠ statusSuccess
      ∨ input.actualOutputLength < adaptiveEnableResponseSize then
    some (if input.outputStatus = statusSuccess then statusBufferTooSmall else input.outputStatus)
  else none

inductive EnablePc where
  | validate
  | lockDirect
  | lifecycle
  | adaptive
  | pendingReads
  | directReadClaims
  | store
  | completeLocked (status : NtStatus)
  | unlockDirect
  | complete (status : NtStatus)
  deriving DecidableEq, Repr

/-- `handle_enable_adaptive_polling`. -/
def handleEnableAdaptivePolling (d : Device) (t : ThreadId) (h : Handle) (input : EnableInput) :
    EnablePc → Option (Device × Flow EnablePc Unit)
  | .validate =>
    some (d, .run <| match enableInputError input with
      | some status => .complete status
      | none => .lockDirect)
  | .lockDirect =>
    if d.legacyDirectReadLock = none then
      some ({ d with legacyDirectReadLock := some t }, .run .lifecycle)
    else some (d, .run (.complete statusDeviceBusy))
  | .lifecycle =>
    if d.stateLock = none then
      if d.lifecycle ≠ .instanceOpen then some (d, .run (.completeLocked statusDeviceNotReady))
      else some ({ d with stateLock := some t }, .run .adaptive)
    else none
  | .adaptive =>
    if d.adaptiveEnabled then
      some ({ d with stateLock := none }, .run (.completeLocked statusDeviceBusy))
    else some (d, .run .pendingReads)
  | .pendingReads =>
    if d.pendingReads ≠ 0 then
      some ({ d with stateLock := none }, .run (.completeLocked statusDeviceBusy))
    else some (d, .run .directReadClaims)
  | .directReadClaims =>
    if d.legacyDirectReadClaims ≠ 0 then
      some ({ d with stateLock := none }, .run (.completeLocked statusDeviceBusy))
    else some (d, .run .store)
  | .store =>
    some ({ d with adaptiveEnabled := true, stateLock := none }, .run (.completeLocked statusSuccess))
  | .completeLocked status =>
    let information := if status = statusSuccess then adaptiveEnableResponseSize else 0
    some ({ d with log := .completed h status information :: d.log }, .run .unlockDirect)
  | .unlockDirect => some ({ d with legacyDirectReadLock := none }, .ret ())
  | .complete status => some ({ d with log := .completed h status 0 :: d.log }, .ret ())

/-! ### Cleanup of a handle -/

inductive CleanupPc where
  | retire
  | claimLifecycle
  | quiesce (owns : Bool) (pc : QuiescePc)
  | lockDirect (owns : Bool)
  | lockWrite (owns : Bool)
  | adaptive (owns : Bool)
  | teardown (owns adaptive : Bool) (pc : TeardownPc)
  | flush (owns adaptive : Bool)
  | purge (owns adaptive : Bool)
  | clear (owns : Bool) (pc : SweepPc)
  | shouldResume (owns : Bool)
  | zeroReads (resume : Bool)
  | zeroWrites (resume : Bool)
  | disableAdaptive (resume : Bool)
  | releaseControl (resume : Bool)
  | reopen (pc : SweepPc)
  | resume
  /-- The owner closer is released before the locks, once the lifecycle is open again. -/
  | readmitResumed (pc : ReadmitPc)
  | startReads
  | unlockWrite (resumed : Bool)
  | unlockDirect (resumed : Bool)
  /-- The owner closer goes out of scope last. -/
  | readmitCallbacks (pc : ReadmitPc)
  deriving DecidableEq, Repr

/-- The cleanup has waited out the callback leases: the phase of its handle says so. -/
def markDrained (d : Device) (h : Handle) : Device :=
  { d with handles := Function.update d.handles h .drained }

/-- `evt_file_cleanup`. The guards go out of scope in the reverse order of their acquisition. -/
def evtFileCleanup (d : Device) (t : ThreadId) (h : Handle) (choice : Choice) :
    CleanupPc → Option (Device × Flow CleanupPc Unit)
  | .retire =>
    if d.stateLock = none then
      some ({ d with ownerGeneration := d.ownerGeneration + 1, stateLock := some t },
        .run .claimLifecycle)
    else none
  | .claimLifecycle =>
    if d.lifecycle = .instanceOpen then
      some ({ d with lifecycle := .instanceOwnerClosing, stateLock := none },
        .run (.quiesce true .shutReceive))
    else some ({ d with stateLock := none }, .run (.quiesce false .shutReceive))
  | .quiesce owns pc =>
    match quiesceDatapathCallbacks d .owner pc with
    | none => none
    | some (d', .run pc') => some (d', .run (.quiesce owns pc'))
    | some (d', .ret ()) => some (markDrained d' h, .run (.lockDirect owns))
  | .lockDirect owns =>
    if d.legacyDirectReadLock = none then
      some ({ d with legacyDirectReadLock := some t }, .run (.lockWrite owns))
    else none
  | .lockWrite owns =>
    if d.writeLifetimeLock = none then
      some ({ d with writeLifetimeLock := some t }, .run (.adaptive owns))
    else none
  | .adaptive owns =>
    if d.stateLock = none then some (d, .run (.teardown owns d.adaptiveEnabled .load)) else none
  | .teardown owns adaptive pc =>
    some (call (cancelWaitForTeardown d choice pc) (.teardown owns adaptive) fun _ =>
      .run (.flush owns adaptive))
  | .flush owns adaptive => (flushWorkItem d).map fun d' => (d', .run (.purge owns adaptive))
  | .purge owns adaptive =>
    if adaptive then some (d, .run (.clear owns .injection))
    else (purgeQueue d).map fun d' => (d', .run (.clear owns .injection))
  | .clear owns pc => some (call (clearFrameQueues d pc) (.clear owns) fun _ => .run (.shouldResume owns))
  | .shouldResume owns =>
    if d.stateLock = none then
      some ({ d with stateLock := some t },
        .run (.zeroReads (owns && d.lifecycle = .instanceOwnerClosing && d.adapter)))
    else none
  | .zeroReads resume => some ({ d with pendingReads := 0 }, .run (.zeroWrites resume))
  | .zeroWrites resume => some ({ d with pendingWrites := 0 }, .run (.disableAdaptive resume))
  | .disableAdaptive resume =>
    some ({ d with adaptiveEnabled := false }, .run (.releaseControl resume))
  | .releaseControl resume =>
    some ({ d with controlOpen := false, stateLock := none },
      .run (if resume then .reopen .injection else .unlockWrite false))
  | .reopen pc => some (call (reopenFrameQueues d pc) .reopen fun _ => .run .resume)
  | .resume =>
    if d.stateLock = none then
      if d.lifecycle = .instanceOwnerClosing then
        some ({ d with lifecycle := .instanceOpen }, .run (.readmitResumed .receive))
      else some (d, .run (.unlockWrite false))
    else none
  | .readmitResumed pc =>
    some (call (resumeDatapathCallbacks d .owner pc) .readmitResumed fun _ => .run .startReads)
  | .startReads => some (resumeManualQueue d, .run (.unlockWrite true))
  | .unlockWrite resumed => some ({ d with writeLifetimeLock := none }, .run (.unlockDirect resumed))
  | .unlockDirect resumed =>
    some ({ d with legacyDirectReadLock := none }, if resumed then .ret () else .run (.readmitCallbacks .receive))
  | .readmitCallbacks pc => some (call (resumeDatapathCallbacks d .owner pc) .readmitCallbacks .ret)

/-! ### Power -/

inductive D0EntryPc where
  | adaptive
  | startReads
  | reopen (pc : SweepPc)
  | openLifecycle
  | readmitCallbacks (pc : ReadmitPc)
  deriving DecidableEq, Repr

/-- `evt_device_d0_entry`. -/
def evtDeviceD0Entry (d : Device) : D0EntryPc → Option (Device × Flow D0EntryPc Unit)
  | .adaptive =>
    if d.stateLock = none then
      some (d, .run (if d.adaptiveEnabled then .reopen .injection else .startReads))
    else none
  | .startReads => some (resumeManualQueue d, .run (.reopen .injection))
  | .reopen pc => some (call (reopenFrameQueues d pc) .reopen fun _ => .run .openLifecycle)
  | .openLifecycle =>
    if d.stateLock = none then
      some ({ d with lifecycle := .instanceOpen }, .run (.readmitCallbacks .receive))
    else none
  | .readmitCallbacks pc => some (call (resumeDatapathCallbacks d .power pc) .readmitCallbacks .ret)

inductive D0ExitPc where
  | suspend
  | quiesce (pc : QuiescePc)
  | lockDirect
  | lockWrite
  | adaptive
  | teardown (adaptive : Bool) (pc : TeardownPc)
  | flush (adaptive : Bool)
  | purge (adaptive : Bool)
  | clear (pc : SweepPc)
  | zeroReads
  | zeroWrites
  | disarm
  | unlockWrite
  | unlockDirect
  deriving DecidableEq, Repr

/-- `evt_device_d0_exit`. The power closer stays set. -/
def evtDeviceD0Exit (d : Device) (t : ThreadId) (choice : Choice) :
    D0ExitPc → Option (Device × Flow D0ExitPc Unit)
  | .suspend =>
    if d.stateLock = none then
      some ({ d with lifecycle := .instanceSuspended }, .run (.quiesce .shutReceive))
    else none
  | .quiesce pc =>
    callBlocking (quiesceDatapathCallbacks d .power pc) .quiesce fun _ => .run .lockDirect
  | .lockDirect =>
    if d.legacyDirectReadLock = none then
      some ({ d with legacyDirectReadLock := some t }, .run .lockWrite)
    else none
  | .lockWrite =>
    if d.writeLifetimeLock = none then
      some ({ d with writeLifetimeLock := some t }, .run .adaptive)
    else none
  | .adaptive =>
    if d.stateLock = none then some (d, .run (.teardown d.adaptiveEnabled .load)) else none
  | .teardown adaptive pc =>
    some (call (cancelWaitForTeardown d choice pc) (.teardown adaptive) fun _ => .run (.flush adaptive))
  | .flush adaptive => (flushWorkItem d).map fun d' => (d', .run (.purge adaptive))
  | .purge adaptive =>
    if adaptive then some (d, .run (.clear .injection))
    else (purgeQueue d).map fun d' => (d', .run (.clear .injection))
  | .clear pc => some (call (clearFrameQueues d pc) .clear fun _ => .run .zeroReads)
  | .zeroReads =>
    if d.stateLock = none then
      some ({ d with pendingReads := 0, stateLock := some t }, .run .zeroWrites)
    else none
  | .zeroWrites => some ({ d with pendingWrites := 0 }, .run .disarm)
  | .disarm => some ({ d with rxNotificationArmed := false, stateLock := none }, .run .unlockWrite)
  | .unlockWrite => some ({ d with writeLifetimeLock := none }, .run .unlockDirect)
  | .unlockDirect => some ({ d with legacyDirectReadLock := none }, .ret ())

/-! ### Stopping -/

inductive QueueStopPc where
  | stop
  | disarm
  | teardown (pc : TeardownPc)
  | flush
  deriving DecidableEq, Repr

/-- `evt_packet_queue_stop` on the TX or the RX queue. -/
def evtPacketQueueStop (d : Device) (isTransmit : Bool) (choice : Choice) :
    QueueStopPc → Option (Device × Flow QueueStopPc Unit)
  | .stop =>
    if isTransmit then some ({ d with txQueueStarted := false }, .run (.teardown .load))
    else some ({ d with rxQueueStarted := false }, .run .disarm)
  | .disarm => some ({ d with rxNotificationArmed := false }, .run (.teardown .load))
  | .teardown pc => some (call (cancelWaitForTeardown d choice pc) .teardown fun _ => .run .flush)
  | .flush => (flushWorkItem d).map fun d' => (d', .ret ())

inductive StopReadPc where
  | release
  | complete
  deriving DecidableEq, Repr

/-- `evt_io_stop` on the manual READ queue. -/
def stopRead (d : Device) (r : Read) : StopReadPc → Device × Flow StopReadPc Unit
  | .release => ({ d with pendingReads := releaseRequest d.pendingReads }, .run .complete)
  | .complete => (completeRead d r statusCancelled none, .ret ())

inductive StopControlPc where
  | active
  | teardown (pc : TeardownPc)
  deriving DecidableEq, Repr

/-- `evt_io_stop` on the control queue. -/
def stopControl (d : Device) (r : Request) (choice : Choice) :
    StopControlPc → Device × Flow StopControlPc Unit
  | .active => (d, if d.core.waitRequest = some r then .run (.teardown .load) else .ret ())
  | .teardown pc =>
    call (onCore d (cancelWaitRequestForTeardown d.core (some r) choice pc)) .teardown fun _ => .ret ()

end WinTap

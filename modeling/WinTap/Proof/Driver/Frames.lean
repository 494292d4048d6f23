import WinTap.Proof.Driver.Steps
import WinTap.Proof.Driver.Teardown

/-!
# What a step leaves alone

For each callback one frame equation names the fields of the instance that its steps can change; all the
others are then unchanged by `rw`. From them `stepThread_frames` says for every field which kinds of
callbacks can change it, and `stepThread_logs` which kinds can log an event, so that a proof about some
fields only has to look at the callbacks that change them.
-/

namespace WinTap

variable {d d' : Device} {t : ThreadId} {choice : Choice} {flow : Flow WritePc Unit} {th : Thread} {k : Kind}
  {next : Device × Thread} {a : Action} {h : Handle}

/-! ### Frames of the callbacks -/

section
variable (d t choice)

theorem enqueueExistingCaptureFrame_frame (f : Frame) (pc : StorePc) :
    ∃ core capture log, (enqueueExistingCaptureFrame d t f pc).1
      = { d with core := core, capture := capture, log := log } := by
  cases pc with
  | enqueue =>
    simp only [enqueueExistingCaptureFrame]
    split <;> exact ⟨_, _, _, rfl⟩
  | generation wasEmpty => exact ⟨_, _, _, rfl⟩
  | claim pc => exact ⟨_, _, _, rfl⟩

theorem dequeueCaptureFrame_frame (pc : TakePc) :
    ∃ capture, (dequeueCaptureFrame d pc).1 = { d with capture := capture } := by
  cases pc with
  | dequeue =>
    simp only [dequeueCaptureFrame]
    split <;> exact ⟨_, rfl⟩
  | generation f => exact ⟨_, rfl⟩

theorem requeueCaptureFrameAndScheduleWait_frame (f : Frame) (gen : Word) (pc : RequeuePc) :
    ∃ core capture log, (requeueCaptureFrameAndScheduleWait d t f gen pc).1
      = { d with core := core, capture := capture, log := log } := by
  cases pc with
  | lease =>
    simp only [requeueCaptureFrameAndScheduleWait]
    split <;> exact ⟨_, _, _, rfl⟩
  | lifecycle => exact ⟨_, _, _, rfl⟩
  | owner => exact ⟨_, _, _, rfl⟩
  | store pc => exact enqueueExistingCaptureFrame_frame d t f pc
  | drop => exact ⟨_, _, _, rfl⟩

theorem completeCapturedFrameToRead_frame (r : Read) (f : Frame) :
    ∃ readQueue log, (completeCapturedFrameToRead d r f choice).1
      = { d with readQueue := readQueue, log := log } := by
  unfold completeCapturedFrameToRead
  split
  · exact ⟨_, _, rfl⟩
  · split <;> exact ⟨_, _, rfl⟩

/-- A READ is completed with the frame, or the buffer does not fit and nothing changes. -/
theorem completeCapturedFrameToRead_cases (r : Read) (f : Frame) :
    (completeCapturedFrameToRead d r f choice = (completeRead d r statusSuccess (some f), statusSuccess)) ∨
      ∃ status, status ≠ statusSuccess ∧ completeCapturedFrameToRead d r f choice = (d, status) := by
  unfold completeCapturedFrameToRead
  have hsmall : statusBufferTooSmall ≠ statusSuccess := by decide
  split
  · rename_i status
    refine .inr ⟨_, ?_, rfl⟩
    split
    · exact hsmall
    · assumption
  · split
    · exact .inr ⟨_, hsmall, rfl⟩
    · exact .inl rfl

theorem evtIoRead_frame (r : Read) (pc : ReadPc) :
    ∃ core capture readQueue pendingReads log, (evtIoRead d t r choice pc).1
      = { d with
          core := core, capture := capture, readQueue := readQueue, pendingReads := pendingReads
          log := log } := by
  cases pc with
  | poll gen pc | take gen pc =>
    obtain ⟨capture, h⟩ := dequeueCaptureFrame_frame d pc
    exact ⟨_, capture, _, _, _, h⟩
  | requeue gen f status pc =>
    obtain ⟨core, capture, log, h⟩ := requeueCaptureFrameAndScheduleWait_frame d t f gen pc
    exact ⟨core, capture, _, _, log, h⟩
  | deliver gen f =>
    obtain ⟨readQueue, log, h⟩ := completeCapturedFrameToRead_frame d choice r f
    exact ⟨_, _, readQueue, _, log, h⟩
  | lease | tryAdmit gen | forward =>
    simp only [evtIoRead]
    split <;> exact ⟨_, _, _, _, _, rfl⟩
  | _ => exact ⟨_, _, _, _, _, rfl⟩

theorem drainReads_frame (pc : DrainPc) :
    ∃ core capture readQueue pendingReads log, (drainReads d t choice pc).1
      = { d with
          core := core, capture := capture, readQueue := readQueue, pendingReads := pendingReads
          log := log } := by
  cases pc with
  | take gen r pc =>
    obtain ⟨capture, h⟩ := dequeueCaptureFrame_frame d pc
    exact ⟨_, capture, _, _, _, h⟩
  | requeue gen r f status pc =>
    obtain ⟨core, capture, log, h⟩ := requeueCaptureFrameAndScheduleWait_frame d t f gen pc
    exact ⟨core, capture, _, _, log, h⟩
  | deliver gen r f =>
    obtain ⟨readQueue, log, h⟩ := completeCapturedFrameToRead_frame d choice r f
    exact ⟨_, _, readQueue, _, log, h⟩
  | retrieve gen =>
    simp only [drainReads, retrieveNextRequest]
    cases d.readQueue.waiting <;> exact ⟨_, _, _, _, _, rfl⟩
  | lease | forward r =>
    simp only [drainReads]
    split <;> exact ⟨_, _, _, _, _, rfl⟩
  | _ => exact ⟨_, _, _, _, _, rfl⟩

theorem evtReadCompletionWorkItem_frame (pc : WorkPc) :
    ∃ core capture readQueue pendingReads log, (evtReadCompletionWorkItem d t choice pc).1
      = { d with
          core := core, capture := capture, readQueue := readQueue, pendingReads := pendingReads
          log := log } := by
  cases pc with
  | wait pc => exact ⟨_, _, _, _, _, rfl⟩
  | drain pc => exact drainReads_frame d t choice pc

theorem evtIoWrite_frame (h : Handle) (input : WriteInput) (pc : WritePc)
    (hstep : evtIoWrite d t h input choice pc = some (d', flow)) :
    ∃ queue generation writeLifetimeLock pendingWrites nextSerial rxNotificationArmed log,
      d' = { d with
          injection.queue := queue, injection.generation := generation
          writeLifetimeLock := writeLifetimeLock, pendingWrites := pendingWrites
          nextSerial := nextSerial, rxNotificationArmed := rxNotificationArmed, log := log } := by
  cases pc <;> simp only [evtIoWrite] at hstep
  case lock | tryAdmit | enqueue =>
    split at hstep <;> cases hstep <;> exact ⟨_, _, _, _, _, _, _, rfl⟩
  case allocate =>
    split at hstep
    · cases hstep
      exact ⟨_, _, _, _, _, _, _, rfl⟩
    · split at hstep <;> cases hstep <;> exact ⟨_, _, _, _, _, _, _, rfl⟩
  all_goals
    cases hstep
    exact ⟨_, _, _, _, _, _, _, rfl⟩

theorem capturePacket_frame (passive : Bool) (gen : Word) (f : Frame) (pc : PacketPc) :
    ∃ core capture readQueue pendingReads legacyDirectReadClaims legacyDirectReadLock log,
      (capturePacket d t passive gen f choice pc).1
        = { d with
            core := core, capture := capture, readQueue := readQueue, pendingReads := pendingReads
            legacyDirectReadClaims := legacyDirectReadClaims
            legacyDirectReadLock := legacyDirectReadLock, log := log } := by
  cases pc with
  | store adaptive pc =>
    obtain ⟨core, capture, log, h⟩ := enqueueExistingCaptureFrame_frame d t f pc
    exact ⟨core, capture, _, _, _, _, log, h⟩
  | retrieve =>
    simp only [capturePacket, retrieveNextRequest]
    cases d.readQueue.waiting <;> exact ⟨_, _, _, _, _, _, _, rfl⟩
  | complete r =>
    simp only [capturePacket]
    split
    · obtain ⟨readQueue, log, h⟩ := completeCapturedFrameToRead_frame d choice r f
      exact ⟨_, _, readQueue, _, _, _, log, h⟩
    · exact ⟨_, _, _, _, _, _, _, rfl⟩
  | lockDirect =>
    simp only [capturePacket]
    split <;> exact ⟨_, _, _, _, _, _, _, rfl⟩
  | _ => exact ⟨_, _, _, _, _, _, _, rfl⟩

theorem advanceTransmit_frame (passive : Bool) (pc : TxPc) :
    ∃ core capture readQueue pendingReads legacyDirectReadClaims legacyDirectReadLock log,
      (advanceTransmit d t passive choice pc).1
        = { d with
            core := core, capture := capture, readQueue := readQueue, pendingReads := pendingReads
            legacyDirectReadClaims := legacyDirectReadClaims
            legacyDirectReadLock := legacyDirectReadLock, log := log } := by
  cases pc with
  | packet gen captured f pc => exact capturePacket_frame d t choice passive gen f pc
  | lease =>
    simp only [advanceTransmit]
    split <;> exact ⟨_, _, _, _, _, _, _, rfl⟩
  | _ => exact ⟨_, _, _, _, _, _, _, rfl⟩

theorem advanceReceive_frame (pc : RxPc) :
    ∃ core injection log, (advanceReceive d t choice pc).1
      = { d with core := core, injection := injection, log := log } := by
  cases pc with
  | lease | dequeue gen | place gen f wasFull | requeueEnqueue f =>
    simp only [advanceReceive]
    split <;> exact ⟨_, _, _, rfl⟩
  | _ => exact ⟨_, _, _, rfl⟩

theorem setNotificationEnabled_frame (pc : NotificationPc) :
    ∃ rxNotificationArmed log, (setNotificationEnabled d pc).1
      = { d with rxNotificationArmed := rxNotificationArmed, log := log } := by
  cases pc <;> exact ⟨_, _, rfl⟩

theorem registerWait_frame (h : Handle) (r : Request) (input : WaitInput) (pc : RegisterPc) :
    ∃ core log, (registerWait d t h r input choice pc).1 = { d with core := core, log := log } := by
  simp only [registerWait]
  split <;> exact ⟨_, _, rfl⟩

theorem handleEnableAdaptivePolling_frame (h : Handle) (input : EnableInput) (pc : EnablePc) {flow : Flow EnablePc Unit}
    (hstep : handleEnableAdaptivePolling d t h input pc = some (d', flow)) :
    ∃ adaptiveEnabled stateLock legacyDirectReadLock log,
      d' = { d with
          adaptiveEnabled := adaptiveEnabled, stateLock := stateLock
          legacyDirectReadLock := legacyDirectReadLock, log := log } := by
  cases pc <;> simp only [handleEnableAdaptivePolling] at hstep
  case lifecycle =>
    split at hstep
    · split at hstep <;> cases hstep <;> exact ⟨_, _, _, _, rfl⟩
    · cases hstep
  case lockDirect | adaptive | pendingReads | directReadClaims =>
    split at hstep <;> cases hstep <;> exact ⟨_, _, _, _, rfl⟩
  all_goals
    cases hstep
    exact ⟨_, _, _, _, rfl⟩

theorem evtFileCreate_frame (h : Handle) (pc : CreatePc) :
    ∃ controlOpen handles log, (evtFileCreate d h pc).1
      = { d with controlOpen := controlOpen, handles := handles, log := log } := by
  cases pc with
  | claim =>
    simp only [evtFileCreate]
    split <;> exact ⟨_, _, _, rfl⟩
  | complete status => exact ⟨_, _, _, rfl⟩

theorem evtFileCleanup_frame (h : Handle) (pc : CleanupPc) {flow : Flow CleanupPc Unit}
    (hstep : evtFileCleanup d t h choice pc = some (d', flow)) :
    ∃ core capture injection waiting accepting lifecycle ownerGeneration controlOpen adaptiveEnabled
      pendingReads pendingWrites stateLock legacyDirectReadLock writeLifetimeLock handles,
      d' = { d with
          core := core, capture := capture, injection := injection, readQueue.waiting := waiting
          readQueue.accepting := accepting, lifecycle := lifecycle
          ownerGeneration := ownerGeneration, controlOpen := controlOpen
          adaptiveEnabled := adaptiveEnabled, pendingReads := pendingReads
          pendingWrites := pendingWrites, stateLock := stateLock
          legacyDirectReadLock := legacyDirectReadLock, writeLifetimeLock := writeLifetimeLock
          handles := handles } := by
  cases evtFileCleanup_cases hstep <;> exact ⟨_, _, _, _, _, _, _, _, _, _, _, _, _, _, _, rfl⟩

theorem evtDeviceD0Entry_frame (pc : D0EntryPc) {flow : Flow D0EntryPc Unit}
    (hstep : evtDeviceD0Entry d pc = some (d', flow)) :
    ∃ capture injection accepting lifecycle,
      d' = { d with
          capture := capture, injection := injection, readQueue.accepting := accepting
          lifecycle := lifecycle } := by
  cases evtDeviceD0Entry_cases hstep <;> exact ⟨_, _, _, _, rfl⟩

theorem evtDeviceD0Exit_frame (pc : D0ExitPc) {flow : Flow D0ExitPc Unit}
    (hstep : evtDeviceD0Exit d t choice pc = some (d', flow)) :
    ∃ core capture injection waiting accepting lifecycle pendingReads pendingWrites rxNotificationArmed
      stateLock legacyDirectReadLock writeLifetimeLock,
      d' = { d with
          core := core, capture := capture, injection := injection, readQueue.waiting := waiting
          readQueue.accepting := accepting, lifecycle := lifecycle
          pendingReads := pendingReads, pendingWrites := pendingWrites
          rxNotificationArmed := rxNotificationArmed, stateLock := stateLock
          legacyDirectReadLock := legacyDirectReadLock
          writeLifetimeLock := writeLifetimeLock } := by
  cases evtDeviceD0Exit_cases hstep <;> exact ⟨_, _, _, _, _, _, _, _, _, _, _, _, rfl⟩

theorem evtPacketQueueStop_frame (isTransmit : Bool) (pc : QueueStopPc) {flow : Flow QueueStopPc Unit}
    (hstep : evtPacketQueueStop d isTransmit choice pc = some (d', flow)) :
    ∃ core txQueueStarted rxQueueStarted rxNotificationArmed,
      d' = { d with
          core := core, txQueueStarted := txQueueStarted, rxQueueStarted := rxQueueStarted
          rxNotificationArmed := rxNotificationArmed } := by
  cases evtPacketQueueStop_cases hstep <;> exact ⟨_, _, _, _, rfl⟩

theorem stopRead_frame (r : Read) (pc : StopReadPc) :
    ∃ delivered pendingReads log, (stopRead d r pc).1
      = { d with
          readQueue.delivered := delivered, pendingReads := pendingReads, log := log } := by
  cases pc <;> exact ⟨_, _, _, rfl⟩

theorem stopControl_frame (r : Request) (pc : StopControlPc) :
    ∃ core, (stopControl d r choice pc).1 = { d with core := core } := by
  cases pc <;> exact ⟨_, rfl⟩

end

/-- A return changes only what the framework keeps about callbacks and handles. -/
theorem Thread.settle_frame {π : Type} (th : Thread) (inside : π → Thread)
    (result : Device × Flow π Unit) :
    ∃ txCallback rxCallback workersRunning controlLock handles power log,
      (th.settle inside result).1 = { result.1 with
        txCallback := txCallback, rxCallback := rxCallback, workersRunning := workersRunning
        controlLock := controlLock, handles := handles, power := power, log := log } := by
  rw [Thread.settle_eq]
  obtain ⟨d, flow⟩ := result
  cases flow with
  | run pc => exact ⟨_, _, _, _, _, _, _, rfl⟩
  | ret value =>
    cases th
    case queueStop isTransmit pc => cases isTransmit <;> exact ⟨_, _, _, _, _, _, _, rfl⟩
    all_goals exact ⟨_, _, _, _, _, _, _, rfl⟩

/-- Only the return of a cleanup logs anything. -/
theorem Thread.settle_log {π : Type} (inside : π → Thread) (result : Device × Flow π Unit)
    (hth : ∀ h pc, th ≠ .cleanup h pc) : (th.settle inside result).1.log = result.1.log := by
  rw [Thread.settle_eq]
  obtain ⟨d, flow⟩ := result
  cases flow with
  | run pc => rfl
  | ret value =>
    cases th
    case queueStop isTransmit pc => cases isTransmit <;> rfl
    case cleanup h pc => exact absurd rfl (hth h pc)
    all_goals rfl

/-! ### Which callback changes what -/

/-- The callbacks, without their state. -/
inductive Kind where
  | idle
  | read
  | write
  | transmit
  | receive
  | worker
  | register
  | cancel
  | enable
  | stopRead
  | stopControl
  | create
  | cleanup
  | d0Entry
  | d0Exit
  | queueStop
  | notification
  deriving DecidableEq

def Thread.kind : Thread → Kind
  | .idle => .idle
  | .read .. => .read
  | .write .. => .write
  | .transmit .. => .transmit
  | .receive .. => .receive
  | .worker .. => .worker
  | .register .. => .register
  | .cancel .. => .cancel
  | .enable .. => .enable
  | .stopRead .. => .stopRead
  | .stopControl .. => .stopControl
  | .create .. => .create
  | .cleanup .. => .cleanup
  | .d0Entry .. => .d0Entry
  | .d0Exit .. => .d0Exit
  | .queueStop .. => .queueStop
  | .notification .. => .notification

/-- The callbacks that may log an event. -/
def Event.authors : Event → List Kind
  | .readCompleted .. => [.read, .worker, .transmit, .stopRead]
  | .readParked .. => [.read, .worker]
  | .completed .. => [.write, .enable, .create]
  | .captured .. => [.read, .worker, .transmit]
  | .injected .. => [.write]
  | .indicated .. => [.receive]
  | .notified => [.write, .notification]
  | .waitRegistered .. => [.register]
  | .cleanedUp .. => [.cleanup]

/-- At most one event is logged, by one of its authors. -/
def Logs (k : Kind) (d d' : Device) : Prop :=
  d'.log = d.log ∨ ∃ e, d'.log = e :: d.log ∧ k ∈ e.authors

/-- What a step of a callback of this kind leaves alone. -/
structure Frames (k : Kind) (d d' : Device) : Prop where
  nextRead : d'.nextRead = d.nextRead
  frameMaximum : d'.frameMaximum = d.frameMaximum
  adapter : d'.adapter = d.adapter
  core : k ∉ [.read, .transmit, .receive, .worker, .register, .cancel, .stopControl, .cleanup, .d0Exit,
    .queueStop] → d'.core = d.core
  captureQueue : k ∉ [.read, .transmit, .worker, .cleanup, .d0Entry, .d0Exit] →
    d'.capture.queue = d.capture.queue
  injectionQueue : k ∉ [.write, .receive, .cleanup, .d0Entry, .d0Exit] →
    d'.injection.queue = d.injection.queue
  captureLeases : k ∉ [.read, .transmit, .worker, .cleanup, .d0Entry, .d0Exit] →
    d'.capture.callbackLeases = d.capture.callbackLeases
  injectionLeases : k ∉ [.receive, .cleanup, .d0Entry, .d0Exit] →
    d'.injection.callbackLeases = d.injection.callbackLeases
  waiting : k ∉ [.read, .transmit, .worker, .cleanup, .d0Exit] →
    d'.readQueue.waiting = d.readQueue.waiting
  delivered : k ∉ [.read, .transmit, .worker, .stopRead] →
    d'.readQueue.delivered = d.readQueue.delivered
  lifecycle : k ∉ [.cleanup, .d0Entry, .d0Exit] → d'.lifecycle = d.lifecycle
  ownerGeneration : k ∉ [.cleanup] → d'.ownerGeneration = d.ownerGeneration
  controlOpen : k ∉ [.create, .cleanup] → d'.controlOpen = d.controlOpen
  adaptiveEnabled : k ∉ [.enable, .cleanup] → d'.adaptiveEnabled = d.adaptiveEnabled
  pendingReads : k ∉ [.read, .transmit, .worker, .stopRead, .cleanup, .d0Exit] →
    d'.pendingReads = d.pendingReads
  stateLock : k ∉ [.enable, .cleanup, .d0Exit] → d'.stateLock = d.stateLock
  legacyDirectReadLock : k ∉ [.transmit, .enable, .cleanup, .d0Exit] →
    d'.legacyDirectReadLock = d.legacyDirectReadLock
  writeLifetimeLock : k ∉ [.write, .cleanup, .d0Exit] → d'.writeLifetimeLock = d.writeLifetimeLock
  controlLock : k ∉ [.register, .enable, .stopControl] → d'.controlLock = d.controlLock
  txCallback : k ∉ [.transmit, .queueStop] → d'.txCallback = d.txCallback
  rxCallback : k ∉ [.receive, .notification, .queueStop] → d'.rxCallback = d.rxCallback
  txQueueStarted : k ∉ [.queueStop] → d'.txQueueStarted = d.txQueueStarted
  rxQueueStarted : k ∉ [.queueStop] → d'.rxQueueStarted = d.rxQueueStarted
  power : k ∉ [.d0Entry, .d0Exit] → d'.power = d.power
  handles : k ∉ [.create, .cleanup] → d'.handles = d.handles
  nextSerial : k ∉ [.write] → d'.nextSerial = d.nextSerial
  rxNotificationArmed : k ∉ [.write, .d0Exit, .queueStop, .notification] →
    d'.rxNotificationArmed = d.rxNotificationArmed

theorem Thread.finish_frames (d : Device) (th : Thread) : Frames th.kind d (th.finish d) := by
  cases th
  case queueStop isTransmit pc =>
    cases isTransmit <;> constructor <;>
      first | rfl | (intro hk; first | rfl | simp [Thread.kind] at hk)
  all_goals
    constructor <;> first | rfl | (intro hk; first | rfl | simp [Thread.kind] at hk)

theorem Frames.trans {d d' d'' : Device} (h : Frames k d d') (h' : Frames k d' d'') :
    Frames k d d'' where
  nextRead := h'.nextRead.trans h.nextRead
  frameMaximum := h'.frameMaximum.trans h.frameMaximum
  adapter := h'.adapter.trans h.adapter
  core hk := (h'.core hk).trans (h.core hk)
  captureQueue hk := (h'.captureQueue hk).trans (h.captureQueue hk)
  injectionQueue hk := (h'.injectionQueue hk).trans (h.injectionQueue hk)
  captureLeases hk := (h'.captureLeases hk).trans (h.captureLeases hk)
  injectionLeases hk := (h'.injectionLeases hk).trans (h.injectionLeases hk)
  waiting hk := (h'.waiting hk).trans (h.waiting hk)
  delivered hk := (h'.delivered hk).trans (h.delivered hk)
  lifecycle hk := (h'.lifecycle hk).trans (h.lifecycle hk)
  ownerGeneration hk := (h'.ownerGeneration hk).trans (h.ownerGeneration hk)
  controlOpen hk := (h'.controlOpen hk).trans (h.controlOpen hk)
  adaptiveEnabled hk := (h'.adaptiveEnabled hk).trans (h.adaptiveEnabled hk)
  pendingReads hk := (h'.pendingReads hk).trans (h.pendingReads hk)
  stateLock hk := (h'.stateLock hk).trans (h.stateLock hk)
  legacyDirectReadLock hk := (h'.legacyDirectReadLock hk).trans (h.legacyDirectReadLock hk)
  writeLifetimeLock hk := (h'.writeLifetimeLock hk).trans (h.writeLifetimeLock hk)
  controlLock hk := (h'.controlLock hk).trans (h.controlLock hk)
  txCallback hk := (h'.txCallback hk).trans (h.txCallback hk)
  rxCallback hk := (h'.rxCallback hk).trans (h.rxCallback hk)
  txQueueStarted hk := (h'.txQueueStarted hk).trans (h.txQueueStarted hk)
  rxQueueStarted hk := (h'.rxQueueStarted hk).trans (h.rxQueueStarted hk)
  power hk := (h'.power hk).trans (h.power hk)
  handles hk := (h'.handles hk).trans (h.handles hk)
  nextSerial hk := (h'.nextSerial hk).trans (h.nextSerial hk)
  rxNotificationArmed hk := (h'.rxNotificationArmed hk).trans (h.rxNotificationArmed hk)

theorem Frames.settle {π : Type} {inside : π → Thread} {result : Device × Flow π Unit} (h : Frames th.kind d result.1) :
    Frames th.kind d (th.settle inside result).1 := by
  rw [Thread.settle_eq]
  obtain ⟨d₁, flow⟩ := result
  cases flow with
  | run pc => exact h
  | ret value => exact h.trans (th.finish_frames d₁)

/-- A step of a callback changes only what its kind may change. -/
theorem stepThread_frames (hstep : stepThread d t choice th = some next) : Frames th.kind d next.1 := by
  cases th <;> simp only [stepThread] at hstep
  case idle => cases hstep
  case' read r pc =>
    cases hstep
    refine Frames.settle ?_
    obtain ⟨_, _, _, _, _, hframe⟩ := evtIoRead_frame d t choice r pc
    rw [hframe]
  case' worker pc =>
    cases hstep
    refine Frames.settle ?_
    obtain ⟨_, _, _, _, _, hframe⟩ := evtReadCompletionWorkItem_frame d t choice pc
    rw [hframe]
  case' transmit passive pc =>
    cases hstep
    refine Frames.settle ?_
    obtain ⟨_, _, _, _, _, _, _, hframe⟩ := advanceTransmit_frame d t choice passive pc
    rw [hframe]
  case' write h input pc =>
    obtain ⟨⟨d', flow⟩, hwrite, rfl⟩ := Option.map_eq_some_iff.mp hstep
    refine Frames.settle ?_
    obtain ⟨_, _, _, _, _, _, _, rfl⟩ := evtIoWrite_frame d t choice h input pc hwrite
  case' receive pc =>
    cases hstep
    refine Frames.settle ?_
    obtain ⟨_, _, _, hframe⟩ := advanceReceive_frame d t choice pc
    rw [hframe]
  case' register h r input pc =>
    cases hstep
    refine Frames.settle ?_
    obtain ⟨_, _, hframe⟩ := registerWait_frame d t choice h r input pc
    rw [hframe]
  case' cancel r pc =>
    cases hstep
    refine Frames.settle ?_
  case' enable h input pc =>
    obtain ⟨⟨d', flow⟩, henable, rfl⟩ := Option.map_eq_some_iff.mp hstep
    refine Frames.settle ?_
    obtain ⟨_, _, _, _, rfl⟩ := handleEnableAdaptivePolling_frame d t h input pc henable
  case' stopRead r pc =>
    cases hstep
    refine Frames.settle ?_
    obtain ⟨_, _, _, hframe⟩ := stopRead_frame d r pc
    rw [hframe]
  case' stopControl r pc =>
    cases hstep
    refine Frames.settle ?_
    obtain ⟨_, hframe⟩ := stopControl_frame d choice r pc
    rw [hframe]
  case' create h pc =>
    cases hstep
    refine Frames.settle ?_
    obtain ⟨_, _, _, hframe⟩ := evtFileCreate_frame d h pc
    rw [hframe]
  case' cleanup h pc =>
    obtain ⟨⟨d', flow⟩, hcleanup, rfl⟩ := Option.map_eq_some_iff.mp hstep
    refine Frames.settle ?_
    obtain ⟨_, _, _, _, _, _, _, _, _, _, _, _, _, _, _, rfl⟩ :=
      evtFileCleanup_frame d t choice h pc hcleanup
  case' d0Entry pc =>
    obtain ⟨⟨d', flow⟩, hentry, rfl⟩ := Option.map_eq_some_iff.mp hstep
    refine Frames.settle ?_
    obtain ⟨_, _, _, _, rfl⟩ := evtDeviceD0Entry_frame d pc hentry
  case' d0Exit pc =>
    obtain ⟨⟨d', flow⟩, hexit, rfl⟩ := Option.map_eq_some_iff.mp hstep
    refine Frames.settle ?_
    obtain ⟨_, _, _, _, _, _, _, _, _, _, _, _, rfl⟩ := evtDeviceD0Exit_frame d t choice pc hexit
  case' queueStop isTransmit pc =>
    obtain ⟨⟨d', flow⟩, hqueue, rfl⟩ := Option.map_eq_some_iff.mp hstep
    refine Frames.settle ?_
    obtain ⟨_, _, _, _, rfl⟩ := evtPacketQueueStop_frame d choice isTransmit pc hqueue
  case' notification pc =>
    cases hstep
    refine Frames.settle ?_
    obtain ⟨_, _, hframe⟩ := setNotificationEnabled_frame d pc
    rw [hframe]
  -- A field outside the list of the kind is the one of the state before.
  all_goals
    constructor <;> first | rfl | (intro hk; first | rfl | simp [Thread.kind] at hk)

/-- A callback goes on or ends. -/
theorem stepThread_kind (hstep : stepThread d t choice th = some next) : next.2 = .idle ∨ next.2.kind = th.kind := by
  have hsettle : ∀ {π : Type} {inside : π → Thread} (result : Device × Flow π Unit),
      (∀ pc, (inside pc).kind = th.kind) →
      (th.settle inside result).2 = .idle ∨ (th.settle inside result).2.kind = th.kind := by
    intro π inside result hinside
    rw [Thread.settle_eq]
    obtain ⟨d₁, flow⟩ := result
    cases flow with
    | run pc => exact .inr (hinside pc)
    | ret value => exact .inl rfl
  cases th <;> simp only [stepThread] at hstep
  case idle => cases hstep
  case write | enable | cleanup | d0Entry | d0Exit | queueStop =>
    obtain ⟨result, -, rfl⟩ := Option.map_eq_some_iff.mp hstep
    exact hsettle result fun _ => rfl
  all_goals
    cases hstep
    exact hsettle _ fun _ => rfl

/-- A callback does not turn into one of another kind. -/
theorem stepThread_kind_not_mem {ks : List Kind} (hstep : stepThread d t choice th = some next) (hidle : .idle ∉ ks)
    (hk : th.kind ∉ ks) : next.2.kind ∉ ks := by
  obtain hend | hsame := stepThread_kind hstep
  · rw [hend]
    exact hidle
  · rwa [hsame]

theorem stepThread_kind_ne {k : Kind} (hstep : stepThread d t choice th = some next) (hidle : .idle ≠ k)
    (hk : th.kind ≠ k) : next.2.kind ≠ k := by
  obtain hend | hsame := stepThread_kind hstep
  · rw [hend]
    exact hidle
  · rwa [hsame]

/-- The callback an action starts; none is `idle`. -/
def Action.kind : Action → Kind
  | .create .. => .create
  | .cleanup .. => .cleanup
  | .read .. => .read
  | .write .. => .write
  | .register .. => .register
  | .enable .. => .enable
  | .transmit .. => .transmit
  | .receive .. => .receive
  | .work .. => .worker
  | .cancel .. => .cancel
  | .stopRead .. => .stopRead
  | .stopControl .. => .stopControl
  | .d0Entry .. => .d0Entry
  | .d0Exit .. => .d0Exit
  | .queueStop .. => .queueStop
  | .setNotificationEnabled .. => .notification
  | _ => .idle

theorem Start.kind (h : Start d t a d' th) : th.kind = a.kind := by
  cases h <;> rfl

/-- In a run that starts no callback of some kinds, none is running. -/
theorem DriverReach.avoids {ok : Driver → Action → Prop} {s : Driver} (ks : List Kind)
    (h : DriverReach ok s) (hidle : .idle ∉ ks) (hks : ∀ s a, ok s a → a.kind ∉ ks) (t : ThreadId) :
    (s.thr t).kind ∉ ks := by
  induction h generalizing t with
  | init hs =>
    rw [hs.2 t]
    exact hidle
  | @step s s' a _ hok hs ih =>
    have hupdate : ∀ {i : ThreadId} {d : Device} {th : Thread}, th.kind ∉ ks →
        ((s.setThread i d th).thr t).kind ∉ ks := by
      intro i d th hth
      by_cases hi : t = i
      · subst hi
        simpa only [Driver.setThread, Function.update_self] using hth
      · simpa only [Driver.setThread, Function.update_of_ne hi] using ih t
    cases stepDriver_cases hs with
    | start _ hstart => exact hupdate (hstart.kind ▸ hks s a hok)
    | framework _ => exact ih t
    | @packet i length passive gen captured hthr _ =>
      refine hupdate ?_
      have hi := ih i
      rwa [hthr] at hi
    | @advance i choice next hadvance =>
      refine hupdate ?_
      obtain hend | hsame := stepThread_kind hadvance
      · rw [hend]
        exact hidle
      · exact hsame ▸ ih i

/-- Starting a callback changes nothing that the callbacks work on. -/
theorem Start.frame (h : Start d t a d' th) :
    ∃ core handles nextRead controlLock txCallback rxCallback workersRunning power,
      d' = { d with
          core := core, handles := handles, nextRead := nextRead, controlLock := controlLock
          txCallback := txCallback, rxCallback := rxCallback, workersRunning := workersRunning
          power := power } := by
  cases h <;> exact ⟨_, _, _, _, _, _, _, _, rfl⟩

/-! ### Which callback logs what -/

section
variable (d t choice)

theorem enqueueExistingCaptureFrame_log (f : Frame) (pc : StorePc) :
    (enqueueExistingCaptureFrame d t f pc).1.log = d.log ∨
      (enqueueExistingCaptureFrame d t f pc).1.log = .captured f :: d.log := by
  cases pc with
  | enqueue =>
    simp only [enqueueExistingCaptureFrame]
    split
    · exact .inl rfl
    · exact .inr rfl
  | generation wasEmpty => exact .inl rfl
  | claim pc => exact .inl rfl

theorem requeueCaptureFrameAndScheduleWait_log (f : Frame) (gen : Word) (pc : RequeuePc) :
    (requeueCaptureFrameAndScheduleWait d t f gen pc).1.log = d.log ∨
      (requeueCaptureFrameAndScheduleWait d t f gen pc).1.log = .captured f :: d.log := by
  cases pc with
  | lease =>
    simp only [requeueCaptureFrameAndScheduleWait]
    split <;> exact .inl rfl
  | store pc => exact enqueueExistingCaptureFrame_log d t f pc
  | _ => exact .inl rfl

theorem completeCapturedFrameToRead_log (r : Read) (f : Frame) :
    (completeCapturedFrameToRead d r f choice).1.log = d.log ∨
      (completeCapturedFrameToRead d r f choice).1.log
        = .readCompleted r statusSuccess (some f) :: d.log := by
  unfold completeCapturedFrameToRead
  split
  · exact .inl rfl
  · split
    · exact .inl rfl
    · exact .inr rfl

/-- One named event, or none. -/
theorem Logs.of_or {e : Event} (h : d'.log = d.log ∨ d'.log = e :: d.log) (hk : k ∈ e.authors) :
    Logs k d d' :=
  h.imp_right fun h => ⟨e, h, hk⟩

theorem evtIoRead_logs (r : Read) (pc : ReadPc) : Logs .read d (evtIoRead d t r choice pc).1 := by
  cases pc with
  | poll gen pc | take gen pc =>
    obtain ⟨_, hframe⟩ := dequeueCaptureFrame_frame d pc
    refine .inl ?_
    change (dequeueCaptureFrame d pc).1.log = d.log
    rw [hframe]
  | requeue gen f status pc =>
    exact Logs.of_or d (requeueCaptureFrameAndScheduleWait_log d t f gen pc) (by simp [Event.authors])
  | deliver gen f =>
    exact Logs.of_or d (completeCapturedFrameToRead_log d choice r f) (by simp [Event.authors])
  | lease | tryAdmit gen =>
    simp only [evtIoRead]
    split <;> exact .inl rfl
  | forward =>
    simp only [evtIoRead]
    split
    · exact .inr ⟨_, rfl, by simp [Event.authors]⟩
    · exact .inl rfl
  | forwardFailed status => exact .inr ⟨_, rfl, by simp [Event.authors]⟩
  | complete status => exact .inr ⟨_, rfl, by simp [Event.authors]⟩
  | refuse => exact .inr ⟨_, rfl, by simp [Event.authors]⟩
  | _ => exact .inl rfl

theorem drainReads_logs (pc : DrainPc) : Logs .worker d (drainReads d t choice pc).1 := by
  cases pc with
  | take gen r pc =>
    obtain ⟨_, hframe⟩ := dequeueCaptureFrame_frame d pc
    refine .inl ?_
    change (dequeueCaptureFrame d pc).1.log = d.log
    rw [hframe]
  | requeue gen r f status pc =>
    exact Logs.of_or d (requeueCaptureFrameAndScheduleWait_log d t f gen pc) (by simp [Event.authors])
  | deliver gen r f =>
    exact Logs.of_or d (completeCapturedFrameToRead_log d choice r f) (by simp [Event.authors])
  | retrieve gen =>
    simp only [drainReads, retrieveNextRequest]
    cases d.readQueue.waiting <;> exact .inl rfl
  | lease =>
    simp only [drainReads]
    split <;> exact .inl rfl
  | forward r =>
    simp only [drainReads]
    split
    · exact .inr ⟨_, rfl, by simp [Event.authors]⟩
    · exact .inl rfl
  | forwardFailed r status => exact .inr ⟨_, rfl, by simp [Event.authors]⟩
  | complete r status => exact .inr ⟨_, rfl, by simp [Event.authors]⟩
  | _ => exact .inl rfl

theorem capturePacket_logs (passive : Bool) (gen : Word) (f : Frame) (pc : PacketPc) :
    Logs .transmit d (capturePacket d t passive gen f choice pc).1 := by
  cases pc with
  | store adaptive pc =>
    exact Logs.of_or d (enqueueExistingCaptureFrame_log d t f pc) (by simp [Event.authors])
  | retrieve =>
    simp only [capturePacket, retrieveNextRequest]
    cases d.readQueue.waiting <;> exact .inl rfl
  | complete r =>
    simp only [capturePacket]
    split
    · exact Logs.of_or d (completeCapturedFrameToRead_log d choice r f) (by simp [Event.authors])
    · exact .inr ⟨_, rfl, by simp [Event.authors]⟩
  | lockDirect =>
    simp only [capturePacket]
    split <;> exact .inl rfl
  | _ => exact .inl rfl

theorem evtIoWrite_logs {input : WriteInput} {pc : WritePc}
    (hstep : evtIoWrite d t h input choice pc = some (d', flow)) : Logs .write d d' := by
  cases pc <;> simp only [evtIoWrite] at hstep
  case enqueue f =>
    split at hstep <;> cases hstep
    · exact .inl rfl
    · exact .inr ⟨_, rfl, by simp [Event.authors]⟩
  case lock | tryAdmit => split at hstep <;> cases hstep <;> exact .inl rfl
  case allocate =>
    split at hstep
    · cases hstep
      exact .inl rfl
    · split at hstep <;> cases hstep <;> exact .inl rfl
  case completeAccepted | notify | complete =>
    cases hstep
    exact .inr ⟨_, rfl, by simp [Event.authors]⟩
  all_goals
    cases hstep
    exact .inl rfl

theorem advanceReceive_logs (pc : RxPc) : Logs .receive d (advanceReceive d t choice pc).1 := by
  cases pc with
  | place gen f wasFull =>
    simp only [advanceReceive]
    split
    · exact .inr ⟨_, rfl, by simp [Event.authors]⟩
    · exact .inl rfl
  | lease | dequeue gen | requeueEnqueue f =>
    simp only [advanceReceive]
    split <;> exact .inl rfl
  | _ => exact .inl rfl

theorem handleEnableAdaptivePolling_logs {input : EnableInput} {pc : EnablePc} {flow : Flow EnablePc Unit}
    (hstep : handleEnableAdaptivePolling d t h input pc = some (d', flow)) : Logs .enable d d' := by
  cases pc <;> simp only [handleEnableAdaptivePolling] at hstep
  case lifecycle =>
    split at hstep
    · split at hstep <;> cases hstep <;> exact .inl rfl
    · cases hstep
  case lockDirect | adaptive | pendingReads | directReadClaims =>
    split at hstep <;> cases hstep <;> exact .inl rfl
  case completeLocked | complete =>
    cases hstep
    exact .inr ⟨_, rfl, by simp [Event.authors]⟩
  all_goals
    cases hstep
    exact .inl rfl

end

theorem Logs.settle {π : Type} {inside : π → Thread} {result : Device × Flow π Unit} (hth : ∀ h pc, th ≠ .cleanup h pc)
    (h : Logs th.kind d result.1) : Logs th.kind d (th.settle inside result).1 := by
  rwa [Logs, Thread.settle_log inside result hth]

/-- A step of a callback logs at most one event, and only one of its own. -/
theorem stepThread_logs (hstep : stepThread d t choice th = some next) : Logs th.kind d next.1 := by
  cases th <;> simp only [stepThread] at hstep
  case idle => cases hstep
  case read r pc =>
    cases hstep
    exact Logs.settle (fun _ _ => Thread.noConfusion) (evtIoRead_logs d t choice r pc)
  case worker pc =>
    cases hstep
    refine Logs.settle (fun _ _ => Thread.noConfusion) ?_
    cases pc with
    | wait pc => exact .inl rfl
    | drain pc => exact drainReads_logs d t choice pc
  case transmit passive pc =>
    cases hstep
    refine Logs.settle (fun _ _ => Thread.noConfusion) ?_
    cases pc with
    | packet gen captured f pc => exact capturePacket_logs d t choice passive gen f pc
    | lease =>
      simp only [advanceTransmit]
      split <;> exact .inl rfl
    | _ => exact .inl rfl
  case write h input pc =>
    obtain ⟨⟨d', flow⟩, hwrite, rfl⟩ := Option.map_eq_some_iff.mp hstep
    exact Logs.settle (fun _ _ => Thread.noConfusion) (evtIoWrite_logs d t choice hwrite)
  case receive pc =>
    cases hstep
    exact Logs.settle (fun _ _ => Thread.noConfusion) (advanceReceive_logs d t choice pc)
  case register h r input pc =>
    cases hstep
    refine Logs.settle (fun _ _ => Thread.noConfusion) ?_
    simp only [registerWait]
    split
    · exact .inr ⟨_, rfl, by simp [Event.authors, Thread.kind]⟩
    · exact .inl rfl
  case cancel r pc =>
    cases hstep
    exact Logs.settle (fun _ _ => Thread.noConfusion) (.inl rfl)
  case enable h input pc =>
    obtain ⟨⟨d', flow⟩, henable, rfl⟩ := Option.map_eq_some_iff.mp hstep
    exact Logs.settle (fun _ _ => Thread.noConfusion) (handleEnableAdaptivePolling_logs d t henable)
  case stopRead r pc =>
    cases hstep
    refine Logs.settle (fun _ _ => Thread.noConfusion) ?_
    cases pc with
    | release => exact .inl rfl
    | complete => exact .inr ⟨_, rfl, by simp [Event.authors, Thread.kind]⟩
  case stopControl r pc =>
    cases hstep
    refine Logs.settle (fun _ _ => Thread.noConfusion) (.inl ?_)
    obtain ⟨_, hframe⟩ := stopControl_frame d choice r pc
    rw [hframe]
  case create h pc =>
    cases hstep
    refine Logs.settle (fun _ _ => Thread.noConfusion) ?_
    cases pc with
    | claim =>
      simp only [evtFileCreate]
      split <;> exact .inl rfl
    | complete status => exact .inr ⟨_, rfl, by simp [Event.authors, Thread.kind]⟩
  case cleanup h pc =>
    obtain ⟨⟨d', flow⟩, hcleanup, rfl⟩ := Option.map_eq_some_iff.mp hstep
    obtain ⟨_, _, _, _, _, _, _, _, _, _, _, _, _, _, _, rfl⟩ :=
      evtFileCleanup_frame d t choice h pc hcleanup
    rw [Thread.settle_eq]
    cases flow with
    | run pc => exact .inl rfl
    | ret value => exact .inr ⟨.cleanedUp h, rfl, by simp [Event.authors, Thread.kind]⟩
  case d0Entry pc =>
    obtain ⟨⟨d', flow⟩, hentry, rfl⟩ := Option.map_eq_some_iff.mp hstep
    refine Logs.settle (fun _ _ => Thread.noConfusion) (.inl ?_)
    obtain ⟨_, _, _, _, rfl⟩ := evtDeviceD0Entry_frame d pc hentry
    rfl
  case d0Exit pc =>
    obtain ⟨⟨d', flow⟩, hexit, rfl⟩ := Option.map_eq_some_iff.mp hstep
    refine Logs.settle (fun _ _ => Thread.noConfusion) (.inl ?_)
    obtain ⟨_, _, _, _, _, _, _, _, _, _, _, _, rfl⟩ := evtDeviceD0Exit_frame d t choice pc hexit
    rfl
  case queueStop isTransmit pc =>
    obtain ⟨⟨d', flow⟩, hqueue, rfl⟩ := Option.map_eq_some_iff.mp hstep
    refine Logs.settle (fun _ _ => Thread.noConfusion) (.inl ?_)
    obtain ⟨_, _, _, _, rfl⟩ := evtPacketQueueStop_frame d choice isTransmit pc hqueue
    rfl
  case notification pc =>
    cases hstep
    refine Logs.settle (fun _ _ => Thread.noConfusion) ?_
    cases pc with
    | notify => exact .inr ⟨_, rfl, by simp [Event.authors, Thread.kind]⟩
    | _ => exact .inl rfl

end WinTap

import WinTap.Driver.Lifecycle

/-!
# The steps of the teardown paths

Cleanup, D0 exit and D0 entry are long sequences of small steps, and most of the invariants of the driver are about
what one of them has done so far. Each step is listed here once, with what it found and what it wrote, so that a
proof about a path goes through the list and never through the routine.
-/

namespace WinTap

variable {d d' : Device} {t : ThreadId} {choice : Choice}

/-! ### Cleanup -/

/-- The steps of `evt_file_cleanup`. -/
inductive CleanupStep (d : Device) (t : ThreadId) (h : Handle) (choice : Choice) :
    CleanupPc → Device → Flow CleanupPc Unit → Prop
  | retire (hlock : d.stateLock = none) :
    CleanupStep d t h choice .retire { d with ownerGeneration := d.ownerGeneration + 1, stateLock := some t }
      (.run .claimLifecycle)
  | claim (hopen : d.lifecycle = .instanceOpen) :
    CleanupStep d t h choice .claimLifecycle { d with lifecycle := .instanceOwnerClosing, stateLock := none }
      (.run (.quiesce true .shutReceive))
  | decline (hclosed : d.lifecycle ≠ .instanceOpen) :
    CleanupStep d t h choice .claimLifecycle { d with stateLock := none } (.run (.quiesce false .shutReceive))
  | shutReceive (owns : Bool) :
    CleanupStep d t h choice (.quiesce owns .shutReceive)
      { d with injection.callbackLeases := shutLeases d.injection.callbackLeases .owner }
      (.run (.quiesce owns .shutCapture))
  | shutCapture (owns : Bool) :
    CleanupStep d t h choice (.quiesce owns .shutCapture)
      { d with capture.callbackLeases := shutLeases d.capture.callbackLeases .owner }
      (.run (.quiesce owns .drainReceive))
  | drainReceive (owns : Bool) (hcount : leaseCount d.injection.callbackLeases = 0) :
    CleanupStep d t h choice (.quiesce owns .drainReceive) d (.run (.quiesce owns .drainCapture))
  | drainCapture (owns : Bool) (hcount : leaseCount d.capture.callbackLeases = 0) :
    CleanupStep d t h choice (.quiesce owns .drainCapture) (markDrained d h) (.run (.lockDirect owns))
  | lockDirect (owns : Bool) (hlock : d.legacyDirectReadLock = none) :
    CleanupStep d t h choice (.lockDirect owns) { d with legacyDirectReadLock := some t } (.run (.lockWrite owns))
  | lockWrite (owns : Bool) (hlock : d.writeLifetimeLock = none) :
    CleanupStep d t h choice (.lockWrite owns) { d with writeLifetimeLock := some t } (.run (.adaptive owns))
  | adaptive (owns : Bool) (hlock : d.stateLock = none) :
    CleanupStep d t h choice (.adaptive owns) d (.run (.teardown owns d.adaptiveEnabled .load))
  | teardown (owns adaptive : Bool) {pc pc' : TeardownPc} {core : Core}
      (hcancel : cancelWaitRequestForTeardown d.core none choice pc = (core, .run pc')) :
    CleanupStep d t h choice (.teardown owns adaptive pc) { d with core := core } (.run (.teardown owns adaptive pc'))
  | tornDown (owns adaptive : Bool) {pc : TeardownPc} {core : Core} {claimed : Bool}
      (hcancel : cancelWaitRequestForTeardown d.core none choice pc = (core, .ret claimed)) :
    CleanupStep d t h choice (.teardown owns adaptive pc) { d with core := core } (.run (.flush owns adaptive))
  | flush (owns adaptive : Bool) (hflushed : d.core.workQueued = false ∧ d.workersRunning = 0) :
    CleanupStep d t h choice (.flush owns adaptive) d (.run (.purge owns adaptive))
  | keepQueue (owns : Bool) : CleanupStep d t h choice (.purge owns true) d (.run (.clear owns .injection))
  | purge (owns : Bool) (hdelivered : d.readQueue.delivered = []) :
    CleanupStep d t h choice (.purge owns false) { d with readQueue.waiting := [], readQueue.accepting := false }
      (.run (.clear owns .injection))
  | clearInjection (owns : Bool) :
    CleanupStep d t h choice (.clear owns .injection) { d with injection.queue := d.injection.queue.close }
      (.run (.clear owns .injectionGeneration))
  | clearInjectionGeneration (owns : Bool) :
    CleanupStep d t h choice (.clear owns .injectionGeneration)
      { d with injection.generation := d.injection.generation + 1 } (.run (.clear owns .capture))
  | clearCapture (owns : Bool) :
    CleanupStep d t h choice (.clear owns .capture) { d with capture.queue := d.capture.queue.close }
      (.run (.clear owns .captureGeneration))
  | clearCaptureGeneration (owns : Bool) :
    CleanupStep d t h choice (.clear owns .captureGeneration)
      { d with capture.generation := d.capture.generation + 1 } (.run (.shouldResume owns))
  | shouldResume (owns : Bool) (hlock : d.stateLock = none) :
    CleanupStep d t h choice (.shouldResume owns) { d with stateLock := some t }
      (.run (.zeroReads (owns && d.lifecycle = .instanceOwnerClosing && d.adapter)))
  | zeroReads (resume : Bool) :
    CleanupStep d t h choice (.zeroReads resume) { d with pendingReads := 0 } (.run (.zeroWrites resume))
  | zeroWrites (resume : Bool) :
    CleanupStep d t h choice (.zeroWrites resume) { d with pendingWrites := 0 } (.run (.disableAdaptive resume))
  | disableAdaptive (resume : Bool) :
    CleanupStep d t h choice (.disableAdaptive resume) { d with adaptiveEnabled := false }
      (.run (.releaseControl resume))
  | releaseControl :
    CleanupStep d t h choice (.releaseControl true) { d with controlOpen := false, stateLock := none }
      (.run (.reopen .injection))
  | releaseControlClosed :
    CleanupStep d t h choice (.releaseControl false) { d with controlOpen := false, stateLock := none }
      (.run (.unlockWrite false))
  | reopenInjection :
    CleanupStep d t h choice (.reopen .injection) { d with injection.queue := d.injection.queue.reopen }
      (.run (.reopen .injectionGeneration))
  | reopenInjectionGeneration :
    CleanupStep d t h choice (.reopen .injectionGeneration)
      { d with injection.generation := d.injection.generation + 1 } (.run (.reopen .capture))
  | reopenCapture :
    CleanupStep d t h choice (.reopen .capture) { d with capture.queue := d.capture.queue.reopen }
      (.run (.reopen .captureGeneration))
  | reopenCaptureGeneration :
    CleanupStep d t h choice (.reopen .captureGeneration) { d with capture.generation := d.capture.generation + 1 }
      (.run .resume)
  | resume (hlock : d.stateLock = none) (hclosing : d.lifecycle = .instanceOwnerClosing) :
    CleanupStep d t h choice .resume { d with lifecycle := .instanceOpen } (.run (.readmitResumed .receive))
  | giveUp (hlock : d.stateLock = none) (hother : d.lifecycle ≠ .instanceOwnerClosing) :
    CleanupStep d t h choice .resume d (.run (.unlockWrite false))
  | readmitReceive :
    CleanupStep d t h choice (.readmitResumed .receive)
      { d with injection.callbackLeases := resumeLeases d.injection.callbackLeases .owner }
      (.run (.readmitResumed .capture))
  | readmitCapture :
    CleanupStep d t h choice (.readmitResumed .capture)
      { d with capture.callbackLeases := resumeLeases d.capture.callbackLeases .owner } (.run .startReads)
  | startReads : CleanupStep d t h choice .startReads (resumeManualQueue d) (.run (.unlockWrite true))
  | unlockWrite (resumed : Bool) :
    CleanupStep d t h choice (.unlockWrite resumed) { d with writeLifetimeLock := none } (.run (.unlockDirect resumed))
  | unlockDirect : CleanupStep d t h choice (.unlockDirect true) { d with legacyDirectReadLock := none } (.ret ())
  | unlockDirectFirst :
    CleanupStep d t h choice (.unlockDirect false) { d with legacyDirectReadLock := none }
      (.run (.readmitCallbacks .receive))
  | readmitReceiveLast :
    CleanupStep d t h choice (.readmitCallbacks .receive)
      { d with injection.callbackLeases := resumeLeases d.injection.callbackLeases .owner }
      (.run (.readmitCallbacks .capture))
  | readmitCaptureLast :
    CleanupStep d t h choice (.readmitCallbacks .capture)
      { d with capture.callbackLeases := resumeLeases d.capture.callbackLeases .owner } (.ret ())

theorem flushWorkItem_eq (h : flushWorkItem d = some d') :
    (d.core.workQueued = false ∧ d.workersRunning = 0) ∧ d' = d := by
  unfold flushWorkItem at h
  split at h
  · cases h
    exact ⟨‹_›, rfl⟩
  · cases h

theorem purgeQueue_eq (h : purgeQueue d = some d') :
    d.readQueue.delivered = [] ∧ d' = { d with readQueue.waiting := [], readQueue.accepting := false } := by
  unfold purgeQueue at h
  split at h <;> cases h
  exact ⟨‹_›, rfl⟩

/-- Every step of a cleanup is one of them. -/
theorem evtFileCleanup_cases {h : Handle} {pc : CleanupPc} {flow : Flow CleanupPc Unit}
    (hstep : evtFileCleanup d t h choice pc = some (d', flow)) : CleanupStep d t h choice pc d' flow := by
  cases pc with
  | retire =>
    simp only [evtFileCleanup] at hstep
    split at hstep <;> cases hstep
    exact .retire ‹_›
  | claimLifecycle =>
    simp only [evtFileCleanup] at hstep
    split at hstep <;> cases hstep
    · exact .claim ‹_›
    · exact .decline ‹_›
  | quiesce owns pc =>
    cases pc with
    | shutReceive =>
      cases hstep
      exact .shutReceive owns
    | shutCapture =>
      cases hstep
      exact .shutCapture owns
    | drainReceive =>
      simp only [evtFileCleanup, quiesceDatapathCallbacks] at hstep
      by_cases hcount : leaseCount d.injection.callbackLeases = 0
      · rw [if_pos hcount] at hstep
        cases hstep
        exact .drainReceive owns hcount
      · rw [if_neg hcount] at hstep
        cases hstep
    | drainCapture =>
      simp only [evtFileCleanup, quiesceDatapathCallbacks] at hstep
      by_cases hcount : leaseCount d.capture.callbackLeases = 0
      · rw [if_pos hcount] at hstep
        cases hstep
        exact .drainCapture owns hcount
      · rw [if_neg hcount] at hstep
        cases hstep
  | lockDirect owns =>
    simp only [evtFileCleanup] at hstep
    split at hstep <;> cases hstep
    exact .lockDirect owns ‹_›
  | lockWrite owns =>
    simp only [evtFileCleanup] at hstep
    split at hstep <;> cases hstep
    exact .lockWrite owns ‹_›
  | adaptive owns =>
    simp only [evtFileCleanup] at hstep
    split at hstep <;> cases hstep
    exact .adaptive owns ‹_›
  | teardown owns adaptive pc =>
    obtain ⟨⟨core, flow₁⟩, hcancel⟩ : ∃ result, cancelWaitRequestForTeardown d.core none choice pc = result :=
      ⟨_, rfl⟩
    rw [evtFileCleanup, cancelWaitForTeardown, hcancel] at hstep
    cases flow₁ <;> cases hstep
    · exact .teardown owns adaptive hcancel
    · exact .tornDown owns adaptive hcancel
  | flush owns adaptive =>
    obtain ⟨d₁, hflush, heq⟩ := Option.map_eq_some_iff.mp hstep
    obtain ⟨hflushed, rfl⟩ := flushWorkItem_eq hflush
    cases heq
    exact .flush owns adaptive hflushed
  | purge owns adaptive =>
    cases adaptive with
    | true =>
      cases hstep
      exact .keepQueue owns
    | false =>
      obtain ⟨d₁, hpurge, heq⟩ := Option.map_eq_some_iff.mp hstep
      obtain ⟨hdelivered, rfl⟩ := purgeQueue_eq hpurge
      cases heq
      exact .purge owns hdelivered
  | clear owns pc =>
    cases pc <;> cases hstep
    · exact .clearInjection owns
    · exact .clearInjectionGeneration owns
    · exact .clearCapture owns
    · exact .clearCaptureGeneration owns
  | shouldResume owns =>
    simp only [evtFileCleanup] at hstep
    split at hstep <;> cases hstep
    exact .shouldResume owns ‹_›
  | zeroReads resume =>
    cases hstep
    exact .zeroReads resume
  | zeroWrites resume =>
    cases hstep
    exact .zeroWrites resume
  | disableAdaptive resume =>
    cases hstep
    exact .disableAdaptive resume
  | releaseControl resume =>
    cases resume <;> cases hstep
    · exact .releaseControlClosed
    · exact .releaseControl
  | reopen pc =>
    cases pc <;> cases hstep
    · exact .reopenInjection
    · exact .reopenInjectionGeneration
    · exact .reopenCapture
    · exact .reopenCaptureGeneration
  | resume =>
    simp only [evtFileCleanup] at hstep
    split at hstep
    · split at hstep <;> cases hstep
      · exact .resume ‹_› ‹_›
      · exact .giveUp ‹_› ‹_›
    · cases hstep
  | readmitResumed pc =>
    cases pc <;> cases hstep
    · exact .readmitReceive
    · exact .readmitCapture
  | startReads =>
    cases hstep
    exact .startReads
  | unlockWrite resumed =>
    cases hstep
    exact .unlockWrite resumed
  | unlockDirect resumed =>
    cases resumed <;> cases hstep
    · exact .unlockDirectFirst
    · exact .unlockDirect
  | readmitCallbacks pc =>
    cases pc <;> cases hstep
    · exact .readmitReceiveLast
    · exact .readmitCaptureLast

/-! ### D0 entry -/

/-- The steps of `evt_device_d0_entry`. -/
inductive D0EntryStep (d : Device) : D0EntryPc → Device → Flow D0EntryPc Unit → Prop
  | adaptive (hlock : d.stateLock = none) (hadaptive : d.adaptiveEnabled = true) :
    D0EntryStep d .adaptive d (.run (.reopen .injection))
  | legacy (hlock : d.stateLock = none) (hlegacy : d.adaptiveEnabled = false) :
    D0EntryStep d .adaptive d (.run .startReads)
  | startReads : D0EntryStep d .startReads (resumeManualQueue d) (.run (.reopen .injection))
  | reopenInjection :
    D0EntryStep d (.reopen .injection) { d with injection.queue := d.injection.queue.reopen }
      (.run (.reopen .injectionGeneration))
  | reopenInjectionGeneration :
    D0EntryStep d (.reopen .injectionGeneration)
      { d with injection.generation := d.injection.generation + 1 } (.run (.reopen .capture))
  | reopenCapture :
    D0EntryStep d (.reopen .capture) { d with capture.queue := d.capture.queue.reopen }
      (.run (.reopen .captureGeneration))
  | reopenCaptureGeneration :
    D0EntryStep d (.reopen .captureGeneration) { d with capture.generation := d.capture.generation + 1 }
      (.run .openLifecycle)
  | openLifecycle (hlock : d.stateLock = none) :
    D0EntryStep d .openLifecycle { d with lifecycle := .instanceOpen } (.run (.readmitCallbacks .receive))
  | readmitReceive :
    D0EntryStep d (.readmitCallbacks .receive)
      { d with injection.callbackLeases := resumeLeases d.injection.callbackLeases .power }
      (.run (.readmitCallbacks .capture))
  | readmitCapture :
    D0EntryStep d (.readmitCallbacks .capture)
      { d with capture.callbackLeases := resumeLeases d.capture.callbackLeases .power } (.ret ())

theorem evtDeviceD0Entry_cases {pc : D0EntryPc} {flow : Flow D0EntryPc Unit}
    (hstep : evtDeviceD0Entry d pc = some (d', flow)) : D0EntryStep d pc d' flow := by
  cases pc with
  | adaptive =>
    simp only [evtDeviceD0Entry] at hstep
    split at hstep <;> cases hstep
    cases hadaptive : d.adaptiveEnabled
    · exact .legacy ‹_› hadaptive
    · exact .adaptive ‹_› hadaptive
  | startReads =>
    cases hstep
    exact .startReads
  | reopen pc =>
    cases pc <;> cases hstep
    · exact .reopenInjection
    · exact .reopenInjectionGeneration
    · exact .reopenCapture
    · exact .reopenCaptureGeneration
  | openLifecycle =>
    simp only [evtDeviceD0Entry] at hstep
    split at hstep <;> cases hstep
    exact .openLifecycle ‹_›
  | readmitCallbacks pc =>
    cases pc <;> cases hstep
    · exact .readmitReceive
    · exact .readmitCapture

/-! ### D0 exit -/

/-- The steps of `evt_device_d0_exit`. -/
inductive D0ExitStep (d : Device) (t : ThreadId) (choice : Choice) :
    D0ExitPc → Device → Flow D0ExitPc Unit → Prop
  | suspend (hlock : d.stateLock = none) :
    D0ExitStep d t choice .suspend { d with lifecycle := .instanceSuspended } (.run (.quiesce .shutReceive))
  | shutReceive :
    D0ExitStep d t choice (.quiesce .shutReceive)
      { d with injection.callbackLeases := shutLeases d.injection.callbackLeases .power }
      (.run (.quiesce .shutCapture))
  | shutCapture :
    D0ExitStep d t choice (.quiesce .shutCapture)
      { d with capture.callbackLeases := shutLeases d.capture.callbackLeases .power }
      (.run (.quiesce .drainReceive))
  | drainReceive (hcount : leaseCount d.injection.callbackLeases = 0) :
    D0ExitStep d t choice (.quiesce .drainReceive) d (.run (.quiesce .drainCapture))
  | drainCapture (hcount : leaseCount d.capture.callbackLeases = 0) :
    D0ExitStep d t choice (.quiesce .drainCapture) d (.run .lockDirect)
  | lockDirect (hlock : d.legacyDirectReadLock = none) :
    D0ExitStep d t choice .lockDirect { d with legacyDirectReadLock := some t } (.run .lockWrite)
  | lockWrite (hlock : d.writeLifetimeLock = none) :
    D0ExitStep d t choice .lockWrite { d with writeLifetimeLock := some t } (.run .adaptive)
  | adaptive (hlock : d.stateLock = none) :
    D0ExitStep d t choice .adaptive d (.run (.teardown d.adaptiveEnabled .load))
  | teardown (adaptive : Bool) {pc pc' : TeardownPc} {core : Core}
      (hcancel : cancelWaitRequestForTeardown d.core none choice pc = (core, .run pc')) :
    D0ExitStep d t choice (.teardown adaptive pc) { d with core := core } (.run (.teardown adaptive pc'))
  | tornDown (adaptive : Bool) {pc : TeardownPc} {core : Core} {claimed : Bool}
      (hcancel : cancelWaitRequestForTeardown d.core none choice pc = (core, .ret claimed)) :
    D0ExitStep d t choice (.teardown adaptive pc) { d with core := core } (.run (.flush adaptive))
  | flush (adaptive : Bool) (hflushed : d.core.workQueued = false ∧ d.workersRunning = 0) :
    D0ExitStep d t choice (.flush adaptive) d (.run (.purge adaptive))
  | keepQueue : D0ExitStep d t choice (.purge true) d (.run (.clear .injection))
  | purge (hdelivered : d.readQueue.delivered = []) :
    D0ExitStep d t choice (.purge false) { d with readQueue.waiting := [], readQueue.accepting := false }
      (.run (.clear .injection))
  | clearInjection :
    D0ExitStep d t choice (.clear .injection) { d with injection.queue := d.injection.queue.close }
      (.run (.clear .injectionGeneration))
  | clearInjectionGeneration :
    D0ExitStep d t choice (.clear .injectionGeneration)
      { d with injection.generation := d.injection.generation + 1 } (.run (.clear .capture))
  | clearCapture :
    D0ExitStep d t choice (.clear .capture) { d with capture.queue := d.capture.queue.close }
      (.run (.clear .captureGeneration))
  | clearCaptureGeneration :
    D0ExitStep d t choice (.clear .captureGeneration) { d with capture.generation := d.capture.generation + 1 }
      (.run .zeroReads)
  | zeroReads (hlock : d.stateLock = none) :
    D0ExitStep d t choice .zeroReads { d with pendingReads := 0, stateLock := some t } (.run .zeroWrites)
  | zeroWrites : D0ExitStep d t choice .zeroWrites { d with pendingWrites := 0 } (.run .disarm)
  | disarm :
    D0ExitStep d t choice .disarm { d with rxNotificationArmed := false, stateLock := none } (.run .unlockWrite)
  | unlockWrite : D0ExitStep d t choice .unlockWrite { d with writeLifetimeLock := none } (.run .unlockDirect)
  | unlockDirect : D0ExitStep d t choice .unlockDirect { d with legacyDirectReadLock := none } (.ret ())

theorem evtDeviceD0Exit_cases {pc : D0ExitPc} {flow : Flow D0ExitPc Unit}
    (hstep : evtDeviceD0Exit d t choice pc = some (d', flow)) : D0ExitStep d t choice pc d' flow := by
  cases pc with
  | suspend =>
    simp only [evtDeviceD0Exit] at hstep
    split at hstep <;> cases hstep
    exact .suspend ‹_›
  | quiesce pc =>
    obtain ⟨⟨d₁, flow₁⟩, hquiesce, heq⟩ := Option.map_eq_some_iff.mp hstep
    cases pc with
    | shutReceive =>
      cases hquiesce
      cases heq
      exact .shutReceive
    | shutCapture =>
      cases hquiesce
      cases heq
      exact .shutCapture
    | drainReceive =>
      simp only [quiesceDatapathCallbacks] at hquiesce
      split at hquiesce <;> cases hquiesce
      cases heq
      exact .drainReceive ‹_›
    | drainCapture =>
      simp only [quiesceDatapathCallbacks] at hquiesce
      split at hquiesce <;> cases hquiesce
      cases heq
      exact .drainCapture ‹_›
  | lockDirect =>
    simp only [evtDeviceD0Exit] at hstep
    split at hstep <;> cases hstep
    exact .lockDirect ‹_›
  | lockWrite =>
    simp only [evtDeviceD0Exit] at hstep
    split at hstep <;> cases hstep
    exact .lockWrite ‹_›
  | adaptive =>
    simp only [evtDeviceD0Exit] at hstep
    split at hstep <;> cases hstep
    exact .adaptive ‹_›
  | teardown adaptive pc =>
    obtain ⟨⟨core, flow₁⟩, hcancel⟩ : ∃ result, cancelWaitRequestForTeardown d.core none choice pc = result :=
      ⟨_, rfl⟩
    rw [evtDeviceD0Exit, cancelWaitForTeardown, hcancel] at hstep
    cases flow₁ <;> cases hstep
    · exact .teardown adaptive hcancel
    · exact .tornDown adaptive hcancel
  | flush adaptive =>
    obtain ⟨d₁, hflush, heq⟩ := Option.map_eq_some_iff.mp hstep
    obtain ⟨hflushed, rfl⟩ := flushWorkItem_eq hflush
    cases heq
    exact .flush adaptive hflushed
  | purge adaptive =>
    cases adaptive with
    | true =>
      cases hstep
      exact .keepQueue
    | false =>
      obtain ⟨d₁, hpurge, heq⟩ := Option.map_eq_some_iff.mp hstep
      obtain ⟨hdelivered, rfl⟩ := purgeQueue_eq hpurge
      cases heq
      exact .purge hdelivered
  | clear pc =>
    cases pc <;> cases hstep
    · exact .clearInjection
    · exact .clearInjectionGeneration
    · exact .clearCapture
    · exact .clearCaptureGeneration
  | zeroReads =>
    simp only [evtDeviceD0Exit] at hstep
    split at hstep <;> cases hstep
    exact .zeroReads ‹_›
  | zeroWrites =>
    cases hstep
    exact .zeroWrites
  | disarm =>
    cases hstep
    exact .disarm
  | unlockWrite =>
    cases hstep
    exact .unlockWrite
  | unlockDirect =>
    cases hstep
    exact .unlockDirect

/-! ### Stopping a packet queue -/

/-- The steps of `evt_packet_queue_stop`. -/
inductive QueueStopStep (d : Device) (choice : Choice) :
    Bool → QueueStopPc → Device → Flow QueueStopPc Unit → Prop
  | stopTransmit : QueueStopStep d choice true .stop { d with txQueueStarted := false } (.run (.teardown .load))
  | stopReceive : QueueStopStep d choice false .stop { d with rxQueueStarted := false } (.run .disarm)
  | disarm (isTransmit : Bool) :
    QueueStopStep d choice isTransmit .disarm { d with rxNotificationArmed := false } (.run (.teardown .load))
  | teardown (isTransmit : Bool) {pc pc' : TeardownPc} {core : Core}
      (hcancel : cancelWaitRequestForTeardown d.core none choice pc = (core, .run pc')) :
    QueueStopStep d choice isTransmit (.teardown pc) { d with core := core } (.run (.teardown pc'))
  | tornDown (isTransmit : Bool) {pc : TeardownPc} {core : Core} {claimed : Bool}
      (hcancel : cancelWaitRequestForTeardown d.core none choice pc = (core, .ret claimed)) :
    QueueStopStep d choice isTransmit (.teardown pc) { d with core := core } (.run .flush)
  | flush (isTransmit : Bool) (hflushed : d.core.workQueued = false ∧ d.workersRunning = 0) :
    QueueStopStep d choice isTransmit .flush d (.ret ())

theorem evtPacketQueueStop_cases {isTransmit : Bool} {pc : QueueStopPc} {flow : Flow QueueStopPc Unit}
    (hstep : evtPacketQueueStop d isTransmit choice pc = some (d', flow)) :
    QueueStopStep d choice isTransmit pc d' flow := by
  cases pc with
  | stop =>
    cases isTransmit <;> cases hstep
    · exact .stopReceive
    · exact .stopTransmit
  | disarm =>
    cases hstep
    exact .disarm isTransmit
  | teardown pc =>
    obtain ⟨⟨core, flow₁⟩, hcancel⟩ : ∃ result, cancelWaitRequestForTeardown d.core none choice pc = result :=
      ⟨_, rfl⟩
    rw [evtPacketQueueStop, cancelWaitForTeardown, hcancel] at hstep
    cases flow₁ <;> cases hstep
    · exact .teardown isTransmit hcancel
    · exact .tornDown isTransmit hcancel
  | flush =>
    obtain ⟨d₁, hflush, heq⟩ := Option.map_eq_some_iff.mp hstep
    obtain ⟨hflushed, rfl⟩ := flushWorkItem_eq hflush
    cases heq
    exact .flush isTransmit hflushed

end WinTap

import WinTap.Driver.Hardware
import WinTap.Proof.Driver.Callbacks
import WinTap.Proof.Driver.Leases

/-!
# The steps of an instance

The hardware callbacks are listed step by step like the teardown paths, and a step of the whole instance is one of
theirs or one of the driver. The facts about the driver that no hardware callback touches hold here as well: both
lease words count the leases, and the power transitions alternate.
-/

namespace WinTap

variable {d d' : Device} {choice : Choice} {pc : PreparePc} {flow : Flow PreparePc PrepareOutcome} {t : ThreadId}
  {s : Instance} {ok : Instance → InstanceAction → Prop}

/-! ### The hardware callbacks -/

/-- The steps of `evt_device_prepare_hardware`. -/
inductive PrepareStep (d : Device) (choice : Choice) : PreparePc → Device → Flow PreparePc PrepareOutcome → Prop
  | closeLifecycle (hlock : d.stateLock = none) :
    PrepareStep d choice .closeLifecycle { d with lifecycle := .instanceClosing } (.run (.checkAdapter d.adapter))
  | noAdapter : PrepareStep d choice (.checkAdapter false) d (.ret .noAdapter)
  | checkAdapter : PrepareStep d choice (.checkAdapter true) d (.run (.readmitCallbacks .receive))
  | readmitReceive :
    PrepareStep d choice (.readmitCallbacks .receive)
      { d with injection.callbackLeases := resumeLeases d.injection.callbackLeases .hardware }
      (.run (.readmitCallbacks .capture))
  | readmitCapture :
    PrepareStep d choice (.readmitCallbacks .capture)
      { d with capture.callbackLeases := resumeLeases d.capture.callbackLeases .hardware } (.run .startAdapter)
  | startAdapter (status : NtStatus) : PrepareStep d choice .startAdapter d (.ret (.started status))

theorem evtDevicePrepareHardware_cases (hstep : evtDevicePrepareHardware d choice pc = some (d', flow)) :
    PrepareStep d choice pc d' flow := by
  cases pc with
  | closeLifecycle =>
    simp only [evtDevicePrepareHardware] at hstep
    split at hstep <;> cases hstep
    exact .closeLifecycle ‹_›
  | checkAdapter adapter =>
    cases adapter <;> cases hstep
    · exact .noAdapter
    · exact .checkAdapter
  | readmitCallbacks pc =>
    cases pc <;> cases hstep
    · exact .readmitReceive
    · exact .readmitCapture
  | startAdapter =>
    cases hstep
    exact .startAdapter _

/-- The steps of `evt_device_release_hardware`. -/
inductive ReleaseStep (d : Device) (t : ThreadId) (choice : Choice) :
    ReleasePc → Device → Flow ReleasePc Unit → Prop
  | closeLifecycle (hlock : d.stateLock = none) :
    ReleaseStep d t choice .closeLifecycle { d with lifecycle := .instanceClosing }
      (.run (.stopAdapter d.adapter d.adaptiveEnabled))
  | stopAdapter (adapter adaptive : Bool) :
    ReleaseStep d t choice (.stopAdapter adapter adaptive) d (.run (.quiesce adaptive .shutReceive))
  | shutReceive (adaptive : Bool) :
    ReleaseStep d t choice (.quiesce adaptive .shutReceive)
      { d with injection.callbackLeases := shutLeases d.injection.callbackLeases .hardware }
      (.run (.quiesce adaptive .shutCapture))
  | shutCapture (adaptive : Bool) :
    ReleaseStep d t choice (.quiesce adaptive .shutCapture)
      { d with capture.callbackLeases := shutLeases d.capture.callbackLeases .hardware }
      (.run (.quiesce adaptive .drainReceive))
  | drainReceive (adaptive : Bool) (hcount : leaseCount d.injection.callbackLeases = 0) :
    ReleaseStep d t choice (.quiesce adaptive .drainReceive) d (.run (.quiesce adaptive .drainCapture))
  | drainCapture (adaptive : Bool) (hcount : leaseCount d.capture.callbackLeases = 0) :
    ReleaseStep d t choice (.quiesce adaptive .drainCapture) d (.run (.lockDirect adaptive))
  | lockDirect (adaptive : Bool) (hlock : d.legacyDirectReadLock = none) :
    ReleaseStep d t choice (.lockDirect adaptive) { d with legacyDirectReadLock := some t }
      (.run (.lockWrite adaptive))
  | lockWrite (adaptive : Bool) (hlock : d.writeLifetimeLock = none) :
    ReleaseStep d t choice (.lockWrite adaptive) { d with writeLifetimeLock := some t }
      (.run (.teardown adaptive .load))
  | teardown (adaptive : Bool) {pc pc' : TeardownPc} {core : Core}
      (hcancel : cancelWaitRequestForTeardown d.core none choice pc = (core, .run pc')) :
    ReleaseStep d t choice (.teardown adaptive pc) { d with core := core } (.run (.teardown adaptive pc'))
  | tornDown (adaptive : Bool) {pc : TeardownPc} {core : Core} {claimed : Bool}
      (hcancel : cancelWaitRequestForTeardown d.core none choice pc = (core, .ret claimed)) :
    ReleaseStep d t choice (.teardown adaptive pc) { d with core := core } (.run (.flush adaptive))
  | flush (adaptive : Bool) (hflushed : d.core.workQueued = false ∧ d.workersRunning = 0) :
    ReleaseStep d t choice (.flush adaptive) d (.run (.purge adaptive))
  | keepQueue : ReleaseStep d t choice (.purge true) d (.run .flushAgain)
  | purge (hdelivered : d.readQueue.delivered = []) :
    ReleaseStep d t choice (.purge false) { d with readQueue.waiting := [], readQueue.accepting := false }
      (.run .flushAgain)
  | flushAgain (hflushed : d.core.workQueued = false ∧ d.workersRunning = 0) :
    ReleaseStep d t choice .flushAgain d (.run (.clear .injection))
  | clearInjection :
    ReleaseStep d t choice (.clear .injection) { d with injection.queue := d.injection.queue.close }
      (.run (.clear .injectionGeneration))
  | clearInjectionGeneration :
    ReleaseStep d t choice (.clear .injectionGeneration)
      { d with injection.generation := d.injection.generation + 1 } (.run (.clear .capture))
  | clearCapture :
    ReleaseStep d t choice (.clear .capture) { d with capture.queue := d.capture.queue.close }
      (.run (.clear .captureGeneration))
  | clearCaptureGeneration :
    ReleaseStep d t choice (.clear .captureGeneration) { d with capture.generation := d.capture.generation + 1 }
      (.run .zeroReads)
  | zeroReads (hlock : d.stateLock = none) :
    ReleaseStep d t choice .zeroReads { d with pendingReads := 0, stateLock := some t } (.run .zeroWrites)
  | zeroWrites : ReleaseStep d t choice .zeroWrites { d with pendingWrites := 0 } (.run .stopTransmit)
  | stopTransmit : ReleaseStep d t choice .stopTransmit { d with txQueueStarted := false } (.run .stopReceive)
  | stopReceive : ReleaseStep d t choice .stopReceive { d with rxQueueStarted := false } (.run .disarm)
  | disarm : ReleaseStep d t choice .disarm { d with rxNotificationArmed := false } (.run .dropAdapter)
  | dropAdapter : ReleaseStep d t choice .dropAdapter { d with adapter := false } (.run .closed)
  | closed :
    ReleaseStep d t choice .closed { d with lifecycle := .instanceClosed, stateLock := none } (.run .unlockWrite)
  | unlockWrite : ReleaseStep d t choice .unlockWrite { d with writeLifetimeLock := none } (.run .unlockDirect)
  | unlockDirect : ReleaseStep d t choice .unlockDirect { d with legacyDirectReadLock := none } (.ret ())

theorem evtDeviceReleaseHardware_cases {pc : ReleasePc} {flow : Flow ReleasePc Unit}
    (hstep : evtDeviceReleaseHardware d t choice pc = some (d', flow)) : ReleaseStep d t choice pc d' flow := by
  cases pc with
  | closeLifecycle =>
    simp only [evtDeviceReleaseHardware] at hstep
    split at hstep <;> cases hstep
    exact .closeLifecycle ‹_›
  | stopAdapter adapter adaptive =>
    cases hstep
    exact .stopAdapter adapter adaptive
  | quiesce adaptive pc =>
    obtain ⟨⟨d₁, flow₁⟩, hquiesce, heq⟩ := Option.map_eq_some_iff.mp hstep
    cases pc with
    | shutReceive =>
      cases hquiesce
      cases heq
      exact .shutReceive adaptive
    | shutCapture =>
      cases hquiesce
      cases heq
      exact .shutCapture adaptive
    | drainReceive =>
      simp only [quiesceDatapathCallbacks] at hquiesce
      split at hquiesce <;> cases hquiesce
      cases heq
      exact .drainReceive adaptive ‹_›
    | drainCapture =>
      simp only [quiesceDatapathCallbacks] at hquiesce
      split at hquiesce <;> cases hquiesce
      cases heq
      exact .drainCapture adaptive ‹_›
  | lockDirect adaptive =>
    simp only [evtDeviceReleaseHardware] at hstep
    split at hstep <;> cases hstep
    exact .lockDirect adaptive ‹_›
  | lockWrite adaptive =>
    simp only [evtDeviceReleaseHardware] at hstep
    split at hstep <;> cases hstep
    exact .lockWrite adaptive ‹_›
  | teardown adaptive pc =>
    obtain ⟨⟨core, flow₁⟩, hcancel⟩ : ∃ result, cancelWaitRequestForTeardown d.core none choice pc = result :=
      ⟨_, rfl⟩
    rw [evtDeviceReleaseHardware, cancelWaitForTeardown, hcancel] at hstep
    cases flow₁ <;> cases hstep
    · exact .teardown adaptive hcancel
    · exact .tornDown adaptive hcancel
  | flush adaptive =>
    obtain ⟨d₁, hflush, heq⟩ := Option.map_eq_some_iff.mp hstep
    obtain ⟨hflushed, rfl⟩ := flushWorkItem_eq hflush
    cases heq
    exact .flush adaptive hflushed
  | purge adaptive =>
    cases adaptive with
    | true =>
      cases hstep
      exact .keepQueue
    | false =>
      obtain ⟨d₁, hpurge, heq⟩ := Option.map_eq_some_iff.mp hstep
      obtain ⟨hdelivered, rfl⟩ := purgeQueue_eq hpurge
      cases heq
      exact .purge hdelivered
  | flushAgain =>
    obtain ⟨d₁, hflush, heq⟩ := Option.map_eq_some_iff.mp hstep
    obtain ⟨hflushed, rfl⟩ := flushWorkItem_eq hflush
    cases heq
    exact .flushAgain hflushed
  | clear pc =>
    cases pc <;> cases hstep
    · exact .clearInjection
    · exact .clearInjectionGeneration
    · exact .clearCapture
    · exact .clearCaptureGeneration
  | zeroReads =>
    simp only [evtDeviceReleaseHardware] at hstep
    split at hstep <;> cases hstep
    exact .zeroReads ‹_›
  | zeroWrites =>
    cases hstep
    exact .zeroWrites
  | stopTransmit =>
    cases hstep
    exact .stopTransmit
  | stopReceive =>
    cases hstep
    exact .stopReceive
  | disarm =>
    cases hstep
    exact .disarm
  | dropAdapter =>
    cases hstep
    exact .dropAdapter
  | closed =>
    cases hstep
    exact .closed
  | unlockWrite =>
    cases hstep
    exact .unlockWrite
  | unlockDirect =>
    cases hstep
    exact .unlockDirect

/-! ### The whole instance -/

/-- The steps of an instance. -/
inductive InstanceStep (s : Instance) : InstanceAction → Instance → Prop
  | prepareHardware {t : ThreadId} (hhardware : s.hardware = .unprepared) (hidle : s.driver.thr t = .idle) :
    InstanceStep s (.prepareHardware t) { s with hardware := .preparing t .closeLifecycle }
  | releaseHardware {t : ThreadId} (hhardware : s.hardware = .prepared ∨ s.hardware = .failed)
      (hpower : s.driver.dev.power = .down) (hidle : s.driver.thr t = .idle) :
    InstanceStep s (.releaseHardware t) { s with hardware := .releasing t .closeLifecycle }
  | prepare {t : ThreadId} {choice : Choice} {pc : PreparePc} {d : Device} {flow : Flow PreparePc PrepareOutcome}
      (hhardware : s.hardware = .preparing t pc) (hstep : PrepareStep s.driver.dev choice pc d flow) :
    InstanceStep s (.hardware choice) (s.settlePrepare t (d, flow))
  | release {t : ThreadId} {choice : Choice} {pc : ReleasePc} {d : Device} {flow : Flow ReleasePc Unit}
      (hhardware : s.hardware = .releasing t pc) (hstep : ReleaseStep s.driver.dev t choice pc d flow) :
    InstanceStep s (.hardware choice) (s.settleRelease t (d, flow))
  | driver {a : Action} {driver : Driver} (hallows : s.hardware.allows a = true)
      (hstep : stepDriver s.driver a = some driver) : InstanceStep s (.driver a) { s with driver := driver }

theorem stepInstance_cases {s s' : Instance} {a : InstanceAction} (h : stepInstance s a = some s') :
    InstanceStep s a s' := by
  cases a with
  | prepareHardware t =>
    simp only [stepInstance] at h
    split at h <;> cases h
    rename_i hstart
    exact .prepareHardware hstart.1 hstart.2
  | releaseHardware t =>
    simp only [stepInstance] at h
    split at h <;> cases h
    rename_i hstart
    exact .releaseHardware hstart.1 hstart.2.1 hstart.2.2
  | hardware choice =>
    simp only [stepInstance, stepHardware] at h
    split at h
    · rename_i hhardware
      obtain ⟨⟨d, flow⟩, hstep, rfl⟩ := Option.map_eq_some_iff.mp h
      exact .prepare hhardware (evtDevicePrepareHardware_cases hstep)
    · rename_i hhardware
      obtain ⟨⟨d, flow⟩, hstep, rfl⟩ := Option.map_eq_some_iff.mp h
      exact .release hhardware (evtDeviceReleaseHardware_cases hstep)
    all_goals cases h
  | driver a =>
    simp only [stepInstance] at h
    split at h
    · obtain ⟨driver, hstep, rfl⟩ := Option.map_eq_some_iff.mp h
      exact .driver ‹_› hstep
    · cases h

namespace Instance

@[simp] theorem settlePrepare_dev (s : Instance) (t : ThreadId) (result : Device × Flow PreparePc PrepareOutcome) :
    (s.settlePrepare t result).driver = { s.driver with dev := result.1 } := by
  obtain ⟨d, flow⟩ := result
  cases flow <;> rfl

@[simp] theorem settleRelease_dev (s : Instance) (t : ThreadId) (result : Device × Flow ReleasePc Unit) :
    (s.settleRelease t result).driver = { s.driver with dev := result.1 } := by
  obtain ⟨d, flow⟩ := result
  cases flow <;> rfl

end Instance

/-- What holds of the driver of every added device, is kept by the driver itself, and by every change that a hardware
callback makes, holds of the driver in every run. -/
theorem InstanceReach.driver_invariant {P : Driver → Prop}
    (hinit : ∀ mtu, defaultMtu ≤ mtu → mtu ≤ maximumMtu → P (Instance.added mtu).driver)
    (hdriver : ∀ s a s', P s → stepDriver s a = some s' → P s')
    (hprepare : ∀ s choice pc d flow, P s → PrepareStep s.dev choice pc d flow → P { s with dev := d })
    (hrelease : ∀ s t choice pc d flow, P s → ReleaseStep s.dev t choice pc d flow → P { s with dev := d })
    (h : InstanceReach ok s) : P s.driver := by
  refine h.invariant (P := fun s => P s.driver) (fun s hs => ?_) fun s a s' _ hP _ hstep => ?_
  · obtain ⟨mtu, hdefault, hmaximum, rfl⟩ := hs
    exact hinit mtu hdefault hmaximum
  · cases stepInstance_cases hstep with
    | prepareHardware | releaseHardware => exact hP
    | prepare _ hcallback =>
      rw [Instance.settlePrepare_dev]
      exact hprepare _ _ _ _ _ hP hcallback
    | release _ hcallback =>
      rw [Instance.settleRelease_dev]
      exact hrelease _ _ _ _ _ _ hP hcallback
    | driver _ hcallback => exact hdriver _ _ _ hP hcallback

theorem instanceReach_added (ok : Instance → InstanceAction → Prop) : InstanceReach ok (.added defaultMtu) :=
  .init ⟨defaultMtu, by decide, by decide, rfl⟩

/-! ### The lease words -/

/-- The direction that the next step of `evt_device_prepare_hardware` readmits. -/
def PreparePc.readmits : PreparePc → Option Side
  | .readmitCallbacks pc => some pc.side
  | _ => none

/-- The direction that the next step of `evt_device_release_hardware` closes. -/
def ReleasePc.shuts : ReleasePc → Option Side
  | .quiesce _ pc => pc.shuts
  | _ => none

theorem PrepareStep.word (h : PrepareStep d choice pc d' flow) (side : Side) :
    leaseCount (d'.leases.word side) = leaseCount (d.leases.word side) ∧
      ∀ c, closedBy (d'.leases.word side) c ↔
        closedBy (d.leases.word side) c ∧ ¬(c = .hardware ∧ pc.readmits = some side) := by
  cases h with
  | readmitReceive => exact d.leases.readmit_word .receive side .hardware
  | readmitCapture => exact d.leases.readmit_word .capture side .hardware
  | _ => exact ⟨rfl, fun c => (and_iff_left nofun).symm⟩

theorem ReleaseStep.word {pc : ReleasePc} {flow : Flow ReleasePc Unit} (h : ReleaseStep d t choice pc d' flow)
    (side : Side) :
    leaseCount (d'.leases.word side) = leaseCount (d.leases.word side) ∧
      ∀ c, closedBy (d'.leases.word side) c ↔
        closedBy (d.leases.word side) c ∨ c = .hardware ∧ pc.shuts = some side := by
  cases h with
  | shutReceive => exact d.leases.shut_word .receive side .hardware
  | shutCapture => exact d.leases.shut_word .capture side .hardware
  | _ => exact ⟨rfl, fun c => (or_iff_left nofun).symm⟩

theorem InstanceReach.leasesCounted (h : InstanceReach ok s) : LeasesCounted s.driver := by
  refine InstanceReach.driver_invariant (fun mtu _ _ side => ?_) (fun _ _ _ => LeasesCounted.step)
    (fun s choice pc d flow hcounted hstep side => ?_) (fun s t choice pc d flow hcounted hstep side => ?_) h
  · have hzero : leaseCount ((Device.added mtu).leases.word side) = 0 := by
      have hword : (Device.added mtu).leases.word side = Closer.hardware.mask := by cases side <;> rfl
      rw [hword]
      decide
    change Tally _ (leaseCount ((Device.added mtu).leases.word side))
    rw [hzero]
    exact Tally.zero fun t => by cases side <;> rfl
  · change Tally _ (leaseCount (d.leases.word side))
    rw [(hstep.word side).1]
    exact hcounted side
  · change Tally _ (leaseCount (d.leases.word side))
    rw [(hstep.word side).1]
    exact hcounted side

theorem InstanceReach.alternating (h : InstanceReach ok s) : Alternating s.driver := by
  refine InstanceReach.driver_invariant (fun mtu _ _ => ⟨nofun, fun t u ht => absurd rfl ht⟩)
    (fun _ _ _ => Alternating.step) (fun s choice pc d flow halternating hstep => ?_)
    (fun s t choice pc d flow halternating hstep => ?_) h
  · have hpower : d.power = s.dev.power := by cases hstep <;> rfl
    exact ⟨fun t p ht => hpower.trans (halternating.power t p ht), halternating.unique⟩
  · have hpower : d.power = s.dev.power := by cases hstep <;> rfl
    exact ⟨fun t p ht => hpower.trans (halternating.power t p ht), halternating.unique⟩

end WinTap

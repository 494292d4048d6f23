import WinTap.Proof.Driver.Injection
import WinTap.Proof.Driver.Locks
import WinTap.Proof.Driver.Stopping
import WinTap.Proof.Driver.Quiesced
import WinTap.Proof.Driver.Reads

/-!
# The I/O of a handle after its cleanup

WDF can call the cleanup of a handle while callbacks of its I/O are running. The cleanup has four milestones, and each
keeps one kind of I/O from going on: once it has waited out the leases no READ is past its check of the lifecycle, once
it has the lock of the WRITEs no WRITE is, once it has searched for a wait no registration can come to be pending, and
once it has purged the manual queue no READ of the handle is parked or in the hands of a callback.

None of this holds off an I/O callback that starts to check after the milestone. The checks look at the lifecycle and at
the adaptive mode, and neither says whose I/O it is: when the next owner has them open, the I/O of the old one passes.
-/

namespace WinTap

open Machine

variable {d d' : Device} {t u : ThreadId} {choice : Choice} {m : Milestone} {pc : CleanupPc} {s : Driver}
  {h handle : Handle} {th : Thread} {next : Device × Thread} {input : WriteInput} {flow : Flow CleanupPc Unit}
  {e : Event} {P : Prop} {r : Read} {a : Action}

/-! ### Milestones of a cleanup -/

inductive Milestone where
  | drained
  | writeLocked
  | searched
  | purged
  deriving DecidableEq, Repr

/-- The cleanup has the milestone behind it. -/
def CleanupPc.passed : Milestone → CleanupPc → Bool
  | _, .retire | _, .claimLifecycle | _, .quiesce .. => false
  | .drained, _ => true
  | _, .lockDirect _ | _, .lockWrite _ => false
  | .writeLocked, _ => true
  | _, .adaptive _ => false
  | .searched, .teardown _ _ pc => !pc.searching
  | .searched, _ => true
  | .purged, pc => pc.cleared

theorem CleanupPc.passed_drained (h : pc.passed m = true) : pc.passed .drained = true := by
  cases m <;> cases pc <;> first | rfl | cases h

/-- The cleanup of the handle has the milestone behind it, or has returned. -/
def Driver.Past (s : Driver) (m : Milestone) (h : Handle) : Prop :=
  .cleanedUp h ∈ s.dev.log ∨ ∃ t pc, s.thr t = .cleanup h pc ∧ pc.passed m = true

theorem Driver.Past.drained (hpast : s.Past m h) : s.Past .drained h := by
  obtain hlog | ⟨t, pc, hthr, hpc⟩ := hpast
  · exact .inl hlog
  · exact .inr ⟨t, pc, hthr, CleanupPc.passed_drained hpc⟩

theorem CleanupStep.drains (hstep : CleanupStep d t h choice pc d' flow) (hbefore : pc.passed .drained = false)
    (hafter : flow.on (CleanupPc.passed .drained) true = true) : leaseCount d.capture.callbackLeases = 0 := by
  cases hstep <;> first | assumption | (cases hbefore; done) | cases hafter

theorem CleanupStep.locksWrite (hstep : CleanupStep d t h choice pc d' flow) (hbefore : pc.passed .writeLocked = false)
    (hafter : flow.on (CleanupPc.passed .writeLocked) true = true) : d.writeLifetimeLock = none := by
  cases hstep <;> first | assumption | (cases hbefore; done) | cases hafter

theorem CleanupStep.purges (hstep : CleanupStep d t h choice pc d' flow) (hbefore : pc.passed .purged = false)
    (hafter : flow.on (CleanupPc.passed .purged) true = true) :
    ∃ owns adaptive, pc = .purge owns adaptive ∧ (adaptive = false → d'.readQueue.waiting = []) := by
  cases hstep <;> first
    | exact ⟨_, _, rfl, fun _ => rfl⟩
    | exact ⟨_, _, rfl, fun hlegacy => by cases hlegacy⟩
    | (cases hbefore; done)
    | cases hafter

/-- A cleanup that has not searched for a wait is on its way to it, or searching. -/
theorem CleanupPc.searching_of_not_passed (hpc : pc.passed .searched = false) :
    (Thread.cleanup h pc).searching = true := by
  cases pc <;> first | rfl | cases hpc | skip
  simpa [CleanupPc.passed, Thread.searching, Thread.approaching, Thread.protocol, CleanupPc.protocol] using hpc

theorem CleanupPc.not_searching_of_passed (hpc : pc.passed .searched = true) :
    (Thread.cleanup h pc).searching = false := by
  cases pc <;> first | rfl | cases hpc | skip
  simpa [CleanupPc.passed, Thread.searching, Thread.approaching, Thread.protocol, CleanupPc.protocol] using hpc

/-- A step brings a cleanup past a milestone only by a step of that cleanup. -/
theorem stepThread_past (hstep : stepThread d t choice th = some next)
    (hpast : .cleanedUp h ∈ next.1.log ∨ ∃ pc, next.2 = .cleanup h pc ∧ pc.passed m = true) :
    .cleanedUp h ∈ d.log ∨ ∃ pc, th = .cleanup h pc ∧ (pc.passed m = true ∨ ∃ d' flow,
      CleanupStep d t h choice pc d' flow ∧ next = (Thread.cleanup h pc).settle (.cleanup h) (d', flow) ∧
        pc.passed m = false ∧ flow.on (CleanupPc.passed m) true = true) := by
  by_cases hkind : th.kind = .cleanup
  · cases th <;> cases hkind
    rename_i h' pc
    obtain ⟨⟨d', flow⟩, hresult, rfl⟩ := Option.map_eq_some_iff.mp hstep
    have hcases := evtFileCleanup_cases hresult
    have hlog : d'.log = d.log := by
      obtain ⟨_, _, _, _, _, _, _, _, _, _, _, _, _, _, _, hframe⟩ := evtFileCleanup_frame d t choice h' pc hresult
      rw [hframe]
    cases flow with
    | run pc' =>
      obtain hmem | ⟨pc'', hthread, hpassed⟩ := hpast
      · exact .inl (hlog ▸ hmem)
      · cases hthread
        refine .inr ⟨pc, rfl, ?_⟩
        by_cases hbefore : pc.passed m = true
        · exact .inl hbefore
        · exact .inr ⟨d', _, hcases, rfl, Bool.eq_false_iff.mpr hbefore, hpassed⟩
    | ret value =>
      obtain hmem | ⟨pc'', hthread, hpassed⟩ := hpast
      · obtain heq | hmem := List.mem_cons.mp (show .cleanedUp h ∈ .cleanedUp h' :: d'.log from hmem)
        · cases heq
          refine .inr ⟨pc, rfl, ?_⟩
          by_cases hbefore : pc.passed m = true
          · exact .inl hbefore
          · exact .inr ⟨d', _, hcases, rfl, Bool.eq_false_iff.mpr hbefore, rfl⟩
        · exact .inl (hlog ▸ hmem)
      · cases hthread
  · obtain hmem | ⟨pc', hthread, -⟩ := hpast
    · obtain hlog | ⟨e, hlog, hauthor⟩ := stepThread_logs hstep
      · exact .inl (hlog ▸ hmem)
      · rw [hlog] at hmem
        obtain heq | hmem := List.mem_cons.mp hmem
        · rw [← heq] at hauthor
          exact absurd (List.mem_singleton.mp hauthor) hkind
        · exact .inl hmem
    · obtain hidle | hsame := stepThread_kind hstep
      · rw [hidle] at hthread
        cases hthread
      · rw [hthread] at hsame
        exact absurd hsame.symm hkind

/-! ### I/O that is past its check -/

/-- The READ found the instance open and may yet return a frame or be parked. -/
def ReadPc.serving : ReadPc → Bool
  | .owner | .adaptive _ | .poll .. | .tryAdmit _ | .take .. | .release .. | .deliver .. | .forward => true
  | _ => false

theorem ReadPc.lease_of_serving {pc : ReadPc} (h : pc.serving = true) : 1 ≤ pc.leases := by
  cases pc <;> first | exact le_rfl | cases h

/-- The WRITE found the instance open and may yet enqueue its frame. -/
def WritePc.serving : WritePc → Bool
  | .tryAdmit | .capacity | .allocate | .enqueue _ => true
  | _ => false

/-- The registration found the adaptive mode set once more and may yet become pending. -/
def RegisterPc.serving : RegisterPc → Bool
  | .recheckStarted _ | .mark | .toPending _ => true
  | _ => false

/-- The callback serves I/O of the handle, past its last check. -/
def Thread.serving (h : Handle) : Thread → Bool
  | .read r pc => r.handle = h && pc.serving
  | .write h' _ pc => h' = h && pc.serving
  | .register h' _ _ pc => h' = h && pc.serving
  | .worker pc => pc.held.any fun r => r.handle = h
  | .transmit _ pc => pc.held.any fun r => r.handle = h
  | _ => false

/-- The milestone that holds off such a callback. -/
def Thread.milestone : Thread → Milestone
  | .read .. => .drained
  | .write .. => .writeLocked
  | .register .. => .searched
  | _ => .purged

/-- What the I/O of the handle does that somebody else can see. -/
def Event.serves (h : Handle) : Event → Bool
  | .injected h' _ | .waitRegistered h' => h' = h
  | .readCompleted r _ frame => r.handle = h && frame.isSome
  | .readParked r => r.handle = h
  | _ => false

section
variable (d t choice)

theorem evtIoRead_serving (r : Read) (pc : ReadPc)
    (hafter : (evtIoRead d t r choice pc).2.on ReadPc.serving false = true) :
    pc.serving = true ∨ pc = .lifecycle ∧ d.lifecycle = .instanceOpen := by
  cases pc with
  | lifecycle =>
    refine .inr ⟨rfl, ?_⟩
    by_contra hclosed
    simp only [evtIoRead, if_pos hclosed] at hafter
    cases hafter
  | lease =>
    simp only [evtIoRead] at hafter
    split at hafter <;> cases hafter
  | requeue gen f status pc =>
    obtain ⟨pc', -, hflow⟩ | ⟨value, -, hflow⟩ := call_snd (requeueCaptureFrameAndScheduleWait d t f gen pc)
      (ReadPc.requeue gen f status) fun _ => (.run (.complete status) : Flow ReadPc Unit)
    all_goals
      simp only [evtIoRead] at hafter
      rw [hflow] at hafter
      cases hafter
  | forwardFailed | releaseRequest | complete | drop | refuse => cases hafter
  | _ => exact .inl rfl

theorem evtIoWrite_serving {pc : WritePc} {flow : Flow WritePc Unit}
    (hstep : evtIoWrite d t h input choice pc = some (d', flow)) (hafter : flow.on WritePc.serving false = true) :
    pc.serving = true ∨ pc = .lifecycle ∧ d.lifecycle = .instanceOpen := by
  cases pc with
  | lifecycle =>
    refine .inr ⟨rfl, ?_⟩
    by_contra hclosed
    simp only [evtIoWrite, if_pos hclosed, Option.some.injEq, Prod.mk.injEq] at hstep
    obtain ⟨-, rfl⟩ := hstep
    cases hafter
  | lock =>
    simp only [evtIoWrite, Option.ite_none_right_eq_some, Option.some.injEq, Prod.mk.injEq] at hstep
    obtain ⟨-, -, rfl⟩ := hstep
    cases hafter
  | tryAdmit | capacity | allocate | enqueue => exact .inl rfl
  | completeAccepted notify =>
    cases hstep
    cases notify <;> cases hafter
  | _ =>
    cases hstep
    cases hafter

theorem handleWaitForChange_serving (e : Env) (c : Core) (r : Request) (input : WaitInput) (pc : RegisterPc)
    (hafter : (handleWaitForChange e c t r input choice pc).2.on RegisterPc.serving false = true) :
    pc.serving = true ∨ pc = .recheckAdaptive ∧ e.adaptiveEnabled = true := by
  cases pc with
  | recheckAdaptive =>
    refine .inr ⟨rfl, ?_⟩
    cases hadaptive : e.adaptiveEnabled with
    | true => rfl
    | false =>
      simp only [handleWaitForChange, hadaptive] at hafter
      cases hafter
  | recheckStarted | mark | toPending => exact .inl rfl
  | validate | lifecycle | adaptive | publish | recheckLifecycle | loadInjection =>
    simp only [handleWaitForChange] at hafter
    split at hafter <;> cases hafter
  | storeInterest | storeCapture | storeInjection | storeHandoff | loadCapture | complete => cases hafter
  | started | «begin» | snapshot | resnapshot | claim | toUnmarking | unmark | finish =>
    simp only [handleWaitForChange, call] at hafter
    repeat' split at hafter
    all_goals cases hafter

/-! ### What a step may do for a handle -/

/-- A step that logs I/O of the handle was about to. -/
def ServesOnly (h : Handle) (d d' : Device) (serving : Prop) : Prop :=
  ∀ e, d'.log = e :: d.log → e.serves h = true → serving

variable {d}

theorem ServesOnly.quiet (hlog : d'.log = d.log) : ServesOnly h d d' P := by
  intro e hcons
  exact absurd (hlog.symm.trans hcons) (List.cons_ne_self e d.log).symm

theorem ServesOnly.event (hlog : d'.log = e :: d.log) (hserves : e.serves h = true → P) : ServesOnly h d d' P := by
  intro e' hcons
  obtain ⟨rfl, -⟩ := List.cons.inj (hlog.symm.trans hcons)
  exact hserves

/-- An event that is nobody's I/O. -/
theorem ServesOnly.other (hlog : d'.log = e :: d.log) (hother : e.serves h = false) : ServesOnly h d d' P :=
  .event hlog fun hserves => absurd (hother.symm.trans hserves) Bool.false_ne_true

variable (d)

theorem requeueCaptureFrameAndScheduleWait_serves (f : Frame) (gen : Word) (pc : RequeuePc) :
    ServesOnly h d (requeueCaptureFrameAndScheduleWait d t f gen pc).1 P := by
  obtain hlog | hlog := requeueCaptureFrameAndScheduleWait_log d t f gen pc
  · exact .quiet hlog
  · exact .other hlog rfl

theorem completeCapturedFrameToRead_serves (r : Read) (f : Frame) :
    ServesOnly h d (completeCapturedFrameToRead d r f choice).1 (r.handle = h) := by
  obtain hlog | hlog := completeCapturedFrameToRead_log d choice r f
  · exact .quiet hlog
  · exact .event hlog fun hserves => by simpa [Event.serves] using hserves

theorem completeRead_serves (r : Read) (status : NtStatus) : ServesOnly h d (completeRead d r status none) P :=
  .other rfl (by simp [Event.serves])

theorem parkRead_serves (r : Read) : ServesOnly h d (parkRead d r) (r.handle = h) :=
  .event rfl fun hserves => by simpa [Event.serves] using hserves

theorem ServesOnly.imp {Q : Prop} {d d' : Device} (hserves : ServesOnly h d d' P) (hPQ : P → Q) :
    ServesOnly h d d' Q :=
  fun e hlog he => hPQ (hserves e hlog he)

theorem evtIoRead_serves (r : Read) (pc : ReadPc) :
    ServesOnly h d (evtIoRead d t r choice pc).1 ((Thread.read r pc).serving h = true) := by
  cases pc with
  | poll gen pc | take gen pc =>
    obtain ⟨_, hframe⟩ := dequeueCaptureFrame_frame d pc
    refine .quiet ?_
    change (dequeueCaptureFrame d pc).1.log = d.log
    rw [hframe]
  | requeue gen f status pc => exact requeueCaptureFrameAndScheduleWait_serves d t f gen pc
  | deliver gen f =>
    refine (completeCapturedFrameToRead_serves d choice r f).imp fun hr => ?_
    rw [Thread.serving, hr]
    exact Bool.and_eq_true_iff.mpr ⟨decide_eq_true rfl, rfl⟩
  | lease | tryAdmit gen =>
    simp only [evtIoRead]
    split <;> exact .quiet rfl
  | forward =>
    simp only [evtIoRead]
    split
    · refine (parkRead_serves d r).imp fun hr => ?_
      rw [Thread.serving, hr]
      exact Bool.and_eq_true_iff.mpr ⟨decide_eq_true rfl, rfl⟩
    · exact .quiet rfl
  | forwardFailed status | complete status | refuse => exact completeRead_serves d r _
  | _ => exact .quiet rfl

theorem drainReads_serves (pc : DrainPc) :
    ServesOnly h d (drainReads d t choice pc).1 (∃ r, pc.held = some r ∧ r.handle = h) := by
  cases pc with
  | take gen r pc =>
    obtain ⟨_, hframe⟩ := dequeueCaptureFrame_frame d pc
    refine .quiet ?_
    change (dequeueCaptureFrame d pc).1.log = d.log
    rw [hframe]
  | requeue gen r f status pc => exact requeueCaptureFrameAndScheduleWait_serves d t f gen pc
  | deliver gen r f => exact (completeCapturedFrameToRead_serves d choice r f).imp fun hr => ⟨r, rfl, hr⟩
  | lease =>
    simp only [drainReads]
    split <;> exact .quiet rfl
  | retrieve gen =>
    simp only [drainReads, retrieveNextRequest]
    repeat' split
    all_goals first | exact .quiet rfl | skip
    rename_i heq
    split at heq <;> cases heq
    exact .quiet rfl
  | forward r =>
    simp only [drainReads]
    split
    · exact (parkRead_serves d r).imp fun hr => ⟨r, rfl, hr⟩
    · exact .quiet rfl
  | forwardFailed r status | complete r status => exact completeRead_serves d r _
  | _ => exact .quiet rfl

theorem capturePacket_serves (passive : Bool) (gen : Word) (f : Frame) (pc : PacketPc) :
    ServesOnly h d (capturePacket d t passive gen f choice pc).1 (∃ r, pc.held = some r ∧ r.handle = h) := by
  cases pc with
  | complete r =>
    obtain hdone | ⟨status, hstatus, hfail⟩ := completeCapturedFrameToRead_cases d choice r f
    · simp only [capturePacket, hdone, if_true]
      exact .event rfl fun hserves => ⟨r, rfl, by simpa [Event.serves] using hserves⟩
    · simp only [capturePacket, hfail, if_neg hstatus]
      exact completeRead_serves d r status
  | store adaptive pc =>
    obtain hlog | hlog := enqueueExistingCaptureFrame_log d t f pc
    · exact .quiet hlog
    · exact .other hlog rfl
  | retrieve =>
    simp only [capturePacket, retrieveNextRequest]
    repeat' split
    all_goals first | exact .quiet rfl | skip
    rename_i heq
    split at heq <;> cases heq
    exact .quiet rfl
  | lockDirect =>
    simp only [capturePacket]
    split <;> exact .quiet rfl
  | _ => exact .quiet rfl

theorem evtIoWrite_serves {pc : WritePc} {flow : Flow WritePc Unit}
    (hstep : evtIoWrite d t handle input choice pc = some (d', flow)) :
    ServesOnly h d d' ((Thread.write handle input pc).serving h = true) := by
  cases pc with
  | enqueue f =>
    simp only [evtIoWrite] at hstep
    split at hstep
    · cases hstep
      exact .quiet rfl
    · cases hstep
      exact .event rfl fun hserves => by simpa [Event.serves, Thread.serving, WritePc.serving] using hserves
  | lock =>
    simp only [evtIoWrite, Option.ite_none_right_eq_some, Option.some.injEq, Prod.mk.injEq] at hstep
    obtain ⟨-, rfl, -⟩ := hstep
    exact .quiet rfl
  | tryAdmit =>
    simp only [evtIoWrite] at hstep
    split at hstep <;> cases hstep <;> exact .quiet rfl
  | allocate =>
    simp only [evtIoWrite] at hstep
    repeat' split at hstep
    all_goals cases hstep; exact .quiet rfl
  | completeAccepted | notify | complete =>
    cases hstep
    exact .other rfl rfl
  | _ =>
    cases hstep
    exact .quiet rfl

/-- A wait is registered from a record that is still registering. -/
theorem registerWait_serves (handle : Handle) (r : Request) (input : WaitInput) {pc : RegisterPc} (hpc : pc.Ok) :
    ServesOnly h d (registerWait d t handle r input choice pc).1
      ((Thread.register handle r input pc).serving h = true ∧
        waitRecordState d.core.waitState = waitRegistering) := by
  simp only [registerWait]
  split
  · rename_i hbecomes
    refine .event rfl fun hserves => ?_
    cases pc with
    | toPending pc =>
      refine ⟨by simpa [Event.serves, Thread.serving, RegisterPc.serving] using hserves, ?_⟩
      obtain ⟨pc', -, heq⟩ | ⟨-, heq⟩ | ⟨hstate, -⟩ :=
        transitionWaitRecord_cases d.core waitRegistering waitPending pc hpc
      · simp [handleWaitForChange, heq, becomesPending] at hbecomes
      · simp only [handleWaitForChange, heq, onCore_snd, call_ret] at hbecomes
        split at hbecomes <;> cases hbecomes
      · exact hstate
    | _ => cases hbecomes
  · exact .quiet rfl

end

theorem ServesOnly.settle {π : Type} {inside : π → Thread} {result : Device × Flow π Unit}
    (hth : ∀ h pc, th ≠ .cleanup h pc) (hserves : ServesOnly h d result.1 P) :
    ServesOnly h d (th.settle inside result).1 P := by
  intro e hlog
  rw [Thread.settle_log inside result hth] at hlog
  exact hserves e hlog

theorem Thread.serving_of_held (hkind : th.kind ∈ [.worker, .transmit]) (hheld : th.heldRead = some r) :
    th.serving r.handle = true := by
  cases th <;> simp [Thread.kind] at hkind
  all_goals
    rw [Thread.heldRead] at hheld
    simp [Thread.serving, hheld]

/-- A step that logs I/O of a handle is a step of a callback that serves it. -/
theorem stepThread_serves (hpc : th.protocol.PcOk) (hstep : stepThread d t choice th = some next) :
    ServesOnly h d next.1 (th.serving h = true ∧
      (th.kind = .register → waitRecordState d.core.waitState = waitRegistering)) := by
  cases th with
  | read r pc =>
    cases hstep
    refine .settle (fun _ _ => Thread.noConfusion) ?_
    exact (evtIoRead_serves d t choice r pc).imp fun hserving => ⟨hserving, fun hk => by cases hk⟩
  | write handle input pc =>
    obtain ⟨⟨d', flow⟩, hresult, rfl⟩ := Option.map_eq_some_iff.mp hstep
    refine .settle (fun _ _ => Thread.noConfusion) ?_
    exact (evtIoWrite_serves d t choice hresult).imp fun hserving => ⟨hserving, fun hk => by cases hk⟩
  | register handle r input pc =>
    cases hstep
    refine .settle (fun _ _ => Thread.noConfusion) ?_
    exact (registerWait_serves d t choice handle r input hpc).imp fun hserving => ⟨hserving.1, fun _ => hserving.2⟩
  | worker pc =>
    cases hstep
    refine .settle (fun _ _ => Thread.noConfusion) ?_
    cases pc with
    | wait pc => exact .quiet rfl
    | drain pc =>
      refine (drainReads_serves d t choice pc).imp ?_
      rintro ⟨r, hheld, rfl⟩
      exact ⟨Thread.serving_of_held (by simp [Thread.kind]) hheld, fun hk => by cases hk⟩
  | transmit passive pc =>
    cases hstep
    refine .settle (fun _ _ => Thread.noConfusion) ?_
    cases pc with
    | packet gen captured f pc =>
      refine (capturePacket_serves d t choice passive gen f pc).imp ?_
      rintro ⟨r, hheld, rfl⟩
      exact ⟨Thread.serving_of_held (by simp [Thread.kind]) hheld, fun hk => by cases hk⟩
    | lease =>
      simp only [advanceTransmit]
      split <;> exact .quiet rfl
    | _ => exact .quiet rfl
  | stopRead r pc =>
    cases hstep
    refine .settle (fun _ _ => Thread.noConfusion) ?_
    cases pc with
    | release => exact .quiet rfl
    | complete => exact completeRead_serves d r _
  | _ =>
    obtain hlog | ⟨e, hlog, hauthor⟩ := stepThread_logs hstep
    · exact .quiet hlog
    · refine .other hlog ?_
      cases e <;> first | rfl | simp [Event.authors, Thread.kind] at hauthor

/-- A callback passes its last check for the I/O of the handle. -/
inductive PassesCheck (d : Device) (h : Handle) : Thread → Prop
  | read {r : Read} (hhandle : r.handle = h) (hopen : d.lifecycle = .instanceOpen) :
    PassesCheck d h (.read r .lifecycle)
  | write {input : WriteInput} (hopen : d.lifecycle = .instanceOpen) : PassesCheck d h (.write h input .lifecycle)
  | register {r : Request} {input : WaitInput} (hadaptive : d.adaptiveEnabled = true) :
    PassesCheck d h (.register h r input .recheckAdaptive)

theorem Thread.milestone_of_kind {th th' : Thread} (hkind : th'.kind = th.kind) : th'.milestone = th.milestone := by
  cases th <;> cases th' <;> first | rfl | cases hkind

theorem Thread.serving_eq_false (hk : th.kind ∉ [.read, .write, .worker, .transmit, .register]) :
    th.serving h = false := by
  cases th <;> first | rfl | simp [Thread.kind] at hk

/-- A callback comes to serve a handle by passing its check, or by retrieving a READ of the handle. -/
theorem stepThread_serving (hstep : stepThread d t choice th = some next) (hafter : next.2.serving h = true) :
    next.2.kind = th.kind ∧ (th.serving h = true ∨ PassesCheck d h th ∨
      th.milestone = .purged ∧ ∃ r ∈ d.readQueue.waiting, r.handle = h) := by
  have hkind : next.2.kind = th.kind := by
    obtain hidle | hsame := stepThread_kind hstep
    · rw [hidle] at hafter
      cases hafter
    · exact hsame
  refine ⟨hkind, ?_⟩
  cases th with
  | read r pc =>
    cases hstep
    rw [Thread.settle_eq] at hafter
    have hserving : r.handle = h ∧ (evtIoRead d t r choice pc).2.on ReadPc.serving false = true := by
      cases hflow : (evtIoRead d t r choice pc).2 with
      | run pc' =>
        rw [hflow] at hafter
        simpa [Thread.serving] using hafter
      | ret value =>
        rw [hflow] at hafter
        cases hafter
    obtain hbefore | ⟨rfl, hopen⟩ := evtIoRead_serving d t choice r pc hserving.2
    · exact .inl (by simp [Thread.serving, hserving.1, hbefore])
    · exact .inr (.inl (.read hserving.1 hopen))
  | write handle input pc =>
    obtain ⟨⟨d', flow⟩, hresult, rfl⟩ := Option.map_eq_some_iff.mp hstep
    cases flow with
    | run pc' =>
      obtain ⟨rfl, hserving⟩ : handle = h ∧ pc'.serving = true := by
        simpa [Thread.settle, Thread.serving] using hafter
      obtain hbefore | ⟨rfl, hopen⟩ := evtIoWrite_serving d t choice hresult hserving
      · exact .inl (by simp [Thread.serving, hbefore])
      · exact .inr (.inl (.write hopen))
    | ret value => cases hafter
  | register handle r input pc =>
    cases hstep
    rw [Thread.settle_eq, (registerWait_core d t choice handle r input pc).2] at hafter
    cases hflow : (handleWaitForChange d.env d.core t r input choice pc).2 with
    | run pc' =>
      rw [hflow] at hafter
      obtain ⟨rfl, hserving⟩ : handle = h ∧ pc'.serving = true := by simpa [Thread.serving] using hafter
      obtain hbefore | ⟨rfl, hadaptive⟩ := handleWaitForChange_serving t choice d.env d.core r input pc (by
        rw [hflow]
        exact hserving)
      · exact .inl (by simp [Thread.serving, hbefore])
      · exact .inr (.inl (.register hadaptive))
    | ret value =>
      rw [hflow] at hafter
      cases hafter
  | worker pc | transmit passive pc =>
    have hreads := stepThread_reads (by simp [Thread.kind]) hstep
    obtain ⟨r, hheld, rfl⟩ : ∃ r, next.2.heldRead = some r ∧ r.handle = h := by
      cases hnext : next.2 <;> rw [hnext] at hkind hafter <;> cases hkind
      simpa [Thread.serving, Thread.heldRead, Option.any_eq_true] using hafter
    obtain hmove | ⟨-, hsame⟩ := hreads
    · obtain hbefore | hwaiting := hmove.hand_from hheld
      · exact .inl (Thread.serving_of_held (by simp [Thread.kind]) hbefore)
      · exact .inr (.inr ⟨rfl, r, hwaiting, rfl⟩)
    · exact .inl (Thread.serving_of_held (by simp [Thread.kind]) (hsame.symm.trans hheld))
  | _ =>
    rw [Thread.serving_eq_false (by rw [hkind]; simp [Thread.kind])] at hafter
    cases hafter

theorem evtIoRead_waiting (r : Read) (pc : ReadPc) {x : Read}
    (hx : x ∈ (evtIoRead d t r choice pc).1.readQueue.waiting) :
    x ∈ d.readQueue.waiting ∨ x = r ∧ pc.serving = true := by
  cases pc with
  | poll gen pc | take gen pc => exact .inl ((dequeueCaptureFrame_sameReads d pc).waiting ▸ hx)
  | requeue gen f status pc => exact .inl ((requeueCaptureFrameAndScheduleWait_sameReads d t f gen pc).waiting ▸ hx)
  | deliver gen f => exact .inl ((completeCapturedFrameToRead_waiting d choice r f).1 ▸ hx)
  | forward =>
    simp only [evtIoRead] at hx
    split at hx
    · obtain hx | hx := List.mem_append.mp hx
      · exact .inl hx
      · exact .inr ⟨List.mem_singleton.mp hx, rfl⟩
    · exact .inl hx
  | lease | tryAdmit =>
    simp only [evtIoRead] at hx
    split at hx <;> exact .inl hx
  | _ => exact .inl hx

/-- A READ is parked by a callback that serves its handle. -/
theorem stepThread_waiting (hstep : stepThread d t choice th = some next) (hr : r ∈ next.1.readQueue.waiting) :
    r ∈ d.readQueue.waiting ∨ th.serving r.handle = true ∧ th.kind ∈ [.read, .worker, .transmit] := by
  cases th with
  | read r' pc =>
    cases hstep
    rw [settle_readQueue] at hr
    obtain hbefore | ⟨rfl, hserving⟩ := evtIoRead_waiting r' pc hr
    · exact .inl hbefore
    · exact .inr ⟨by simp [Thread.serving, hserving], by simp [Thread.kind]⟩
  | worker pc | transmit passive pc =>
    obtain hmove | ⟨hfewer, -⟩ := stepThread_reads (by simp [Thread.kind]) hstep
    · obtain hbefore | hheld := hmove.pool_from hr
      · exact .inl hbefore
      · exact .inr ⟨Thread.serving_of_held (by simp [Thread.kind]) hheld, by simp [Thread.kind]⟩
    · exact .inl (hfewer.waiting.subset hr)
  | stopRead r' pc =>
    rw [(stepThread_frames hstep).waiting (by simp [Thread.kind])] at hr
    exact .inl hr
  | _ =>
    obtain hmove | ⟨hfewer, -⟩ := stepThread_reads (by simp [Thread.kind]) hstep
    · obtain hbefore | hheld := hmove.pool_from hr
      · exact .inl hbefore
      · cases hheld
    · exact .inl (hfewer.waiting.subset hr)

theorem Start.not_serving (hstart : Start d t a d' th) : th.serving h = false := by
  cases hstart <;> first | rfl | exact Bool.and_false _

theorem Start.not_passed (hstart : Start d t a d' th) (hth : th = .cleanup h pc) : pc.passed m = false := by
  cases hstart <;> cases hth
  cases m <;> rfl

/-- While a registration owns the record, no other step makes the record registering. -/
theorem registering_before {ok : Driver → Action → Prop} (hreach : DriverReach ok s)
    (hstep : stepThread s.dev t choice (s.thr t) = some next) (hown : (s.thr u).protocol.stage.owns = true)
    (hreg : waitRecordState next.1.core.waitState = waitRegistering) :
    waitRecordState s.dev.core.waitState = waitRegistering := by
  have hinv := (DriverReach.protocol hreach).inv
  have hnotFree : waitRecordState s.dev.core.waitState ≠ waitFree := (StageOk.not_open (hinv.own.stage u) hown).1
  have heffect : ∀ {c x}, advanceThread s.dev.env s.dev.core t choice (s.thr t).protocol = some (c, x) →
      waitRecordState c.waitState = waitRegistering → waitRecordState s.dev.core.waitState = waitRegistering := by
    intro c x hadvance hc
    have heffect := advanceThread_effect (hinv.pcs t) (hinv.own.stage t) hadvance
    exact (heffect.registering_from hc).resolve_right hnotFree
  cases stepThread_protocol hstep with
  | rest hcore | teardown _ _ hcore | claim _ _ _ hcore | again _ hcore => all_goals rwa [hcore] at hreg
  | queue hcore => rwa [hcore] at hreg
  | advance hadvance => exact heffect hadvance hreg
  | rests hadvance => exact heffect hadvance hreg

theorem Thread.owns_of_serving (hkind : th.kind = .register) (hserving : th.serving h = true) :
    th.protocol.stage.owns = true := by
  cases th <;> cases hkind
  rename_i handle r input pc
  have hpc : pc.serving = true := (Bool.and_eq_true_iff.mp hserving).2
  cases pc <;> first | rfl | cases hpc

/-- A registration that serves its handle is past the gate of the lifecycle. -/
theorem Thread.passes_of_serving (hkind : th.kind = .register) (hserving : th.serving h = true) :
    th.protocol.passes .lifecycle = true := by
  cases th <;> cases hkind
  rename_i handle r input pc
  have hpc : pc.serving = true := (Bool.and_eq_true_iff.mp hserving).2
  cases pc <;> first | rfl | cases hpc

/-! ### The invariant -/

/-- No I/O callback passes its check for a handle whose cleanup has come past the milestone that holds it off, and a
cleanup purges the manual queue when no READ of its handle escapes that. -/
structure StopsRetired (s : Driver) (a : Action) : Prop where
  checks : ∀ t h, t ∈ a.thread → PassesCheck s.dev h (s.thr t) → ¬s.Past (s.thr t).milestone h
  purges : ∀ t h owns adaptive, t ∈ a.thread → s.thr t = .cleanup h (.purge owns adaptive) →
    (adaptive = true → ∀ r ∈ s.dev.readQueue.waiting, r.handle ≠ h) ∧
      ∀ u, (s.thr u).kind ∈ [.worker, .transmit] → (s.thr u).serving h = false

/-- No event of the I/O of a handle is logged after its cleanup. -/
def Sealed (log : List Event) : Prop :=
  ∀ newer h older, log = newer ++ .cleanedUp h :: older → ∀ e ∈ newer, e.serves h = false

theorem Sealed.cons {log : List Event} (hlog : Sealed log) (he : ∀ h, .cleanedUp h ∈ log → e.serves h = false) :
    Sealed (e :: log) := by
  intro newer h older heq e' he'
  cases newer with
  | nil => cases he'
  | cons e₁ newer =>
    obtain ⟨rfl, hrest⟩ := List.cons.inj heq
    obtain rfl | he' := List.mem_cons.mp he'
    · exact he h (by rw [hrest]; simp)
    · exact hlog newer h older hrest e' he'

structure Retirement (s : Driver) : Prop where
  threads : ∀ t h, (s.thr t).serving h = true → s.Past (s.thr t).milestone h →
    (s.thr t).kind = .register ∧ waitRecordState s.dev.core.waitState ≠ waitRegistering
  waiting : ∀ r ∈ s.dev.readQueue.waiting, ¬s.Past .purged r.handle
  log : Sealed s.dev.log

theorem Driver.Past.of_setThread (hpast : (s.setThread t d th).Past m h) (hlog : d.log = s.dev.log)
    (hcleanup : ∀ pc, th = .cleanup h pc → pc.passed m = true → th = s.thr t) : s.Past m h := by
  obtain hmem | ⟨u, pc, hthr, hpc⟩ := hpast
  · exact .inl (hlog ▸ hmem)
  · by_cases hut : u = t
    · subst hut
      rw [Driver.setThread_self] at hthr
      exact .inr ⟨u, pc, (hcleanup pc hthr hpc).symm.trans hthr, hpc⟩
    · rw [Driver.setThread_of_ne _ _ _ _ hut] at hthr
      exact .inr ⟨u, pc, hthr, hpc⟩

theorem Driver.Past.of_advance (hstep : stepThread s.dev t choice (s.thr t) = some next)
    (hpast : (s.setThread t next.1 next.2).Past m h) :
    s.Past m h ∨ ∃ pc d' flow, s.thr t = .cleanup h pc ∧ CleanupStep s.dev t h choice pc d' flow ∧
      next = (Thread.cleanup h pc).settle (.cleanup h) (d', flow) ∧ pc.passed m = false ∧
        flow.on (CleanupPc.passed m) true = true := by
  have hnext : s.Past m h ∨ .cleanedUp h ∈ next.1.log ∨ ∃ pc, next.2 = .cleanup h pc ∧ pc.passed m = true := by
    obtain hmem | ⟨u, pc, hthr, hpc⟩ := hpast
    · exact .inr (.inl hmem)
    · by_cases hut : u = t
      · subst hut
        rw [Driver.setThread_self] at hthr
        exact .inr (.inr ⟨pc, hthr, hpc⟩)
      · rw [Driver.setThread_of_ne _ _ _ _ hut] at hthr
        exact .inl (.inr ⟨u, pc, hthr, hpc⟩)
  obtain hbefore | hnext := hnext
  · exact .inl hbefore
  obtain hmem | ⟨pc, hthr, hpc | ⟨d', flow, hcases, hnext, hpc, hflow⟩⟩ := stepThread_past hstep hnext
  · exact .inl (.inl hmem)
  · exact .inl (.inr ⟨t, pc, hthr, hpc⟩)
  · exact .inr ⟨pc, d', flow, hthr, hcases, hnext, hpc, hflow⟩

namespace Retirement

variable {s s' : Driver}

theorem init (h : driverSystem.init s) : Retirement s := by
  obtain ⟨⟨mtu, -, -, hdev⟩, hidle⟩ := h
  refine ⟨fun t h hserving => ?_, fun r hr => ?_, fun newer h older hlog => ?_⟩
  · rw [hidle t] at hserving
    cases hserving
  · rw [hdev] at hr
    cases hr
  · rw [hdev] at hlog
    exact absurd hlog.symm (by simp [Device.initial])

theorem keep (h : Retirement s) (hlog : d.log = s.dev.log)
    (hwaiting : ∀ r ∈ d.readQueue.waiting, r ∈ s.dev.readQueue.waiting)
    (hword : d.core.waitState = s.dev.core.waitState) (hserving : ∀ handle, th.serving handle = true → th = s.thr t)
    (hcleanup : ∀ handle pc m, th = .cleanup handle pc → pc.passed m = true → th = s.thr t) :
    Retirement (s.setThread t d th) := by
  refine ⟨fun u handle hu hpast => ?_, fun r hr hpast => ?_, ?_⟩
  · have hbefore := hpast.of_setThread hlog fun pc => hcleanup handle pc _
    have hsame : (s.setThread t d th).thr u = s.thr u := by
      by_cases hut : u = t
      · subst hut
        rw [Driver.setThread_self] at hu ⊢
        exact hserving handle hu
      · exact Driver.setThread_of_ne _ _ _ _ hut
    rw [hsame] at hu hbefore ⊢
    rw [Driver.setThread_dev, hword]
    exact h.threads u handle hu hbefore
  · exact h.waiting r (hwaiting r hr) (hpast.of_setThread hlog fun pc => hcleanup r.handle pc _)
  · rw [Driver.setThread_dev, hlog]
    exact h.log

/-- A cleanup reaches a milestone only when no callback is left that the milestone holds off. -/
theorem reached (hreach : DriverReach StopsRetired s) (hut : u ≠ t) (hok : StopsRetired s (.advance t choice))
    (hstep : stepThread s.dev t choice (s.thr t) = some next) (hthr : s.thr t = .cleanup handle pc)
    (hcases : CleanupStep s.dev t handle choice pc d' flow)
    (hnext : next = (Thread.cleanup handle pc).settle (.cleanup handle) (d', flow))
    (hbefore : pc.passed (s.thr u).milestone = false)
    (hafter : flow.on (CleanupPc.passed (s.thr u).milestone) true = true) (hserving : (s.thr u).serving handle = true) :
    (s.thr u).kind = .register ∧ waitRecordState next.1.core.waitState ≠ waitRegistering := by
  cases hu : s.thr u with
  | read r pc' =>
    -- a READ past its check holds a lease, and the drain has seen none
    rw [hu] at hbefore hafter hserving
    have hcount := (DriverReach.leasesCounted hreach .capture).le u
    rw [show leaseCount (s.dev.leases.word .capture) = 0 from hcases.drains hbefore hafter, hu] at hcount
    have hlease := ReadPc.lease_of_serving (Bool.and_eq_true_iff.mp hserving).2
    exact absurd (hlease.trans hcount) (by decide)
  | write handle' input pc' =>
    -- a WRITE past its check holds the lock that the cleanup takes
    rw [hu] at hbefore hafter hserving
    have hpc : pc'.serving = true := (Bool.and_eq_true_iff.mp hserving).2
    have hlocked : (s.thr u).locked .write = true := by
      rw [hu]
      cases pc' <;> first | rfl | cases hpc
    have hlock : s.dev.writeLifetimeLock = some u := ((DriverReach.locksOwned hreach) .write u).mpr (.inl hlocked)
    rw [hcases.locksWrite hbefore hafter] at hlock
    cases hlock
  | register handle' r input pc' =>
    -- the search ends with a record that no registration past its check owns
    refine ⟨rfl, fun hreg => ?_⟩
    rw [hu] at hbefore hafter
    have hsearching : (s.thr t).searching = true := by
      rw [hthr]
      exact CleanupPc.searching_of_not_passed hbefore
    have hends : (next.2).searching = false := by
      rw [hnext]
      cases flow with
      | run pc'' => exact CleanupPc.not_searching_of_passed hafter
      | ret value => rfl
    have hdriver : stepDriver s (.advance t choice) = some (s.setThread t next.1 next.2) := by
      rw [stepDriver, hstep]
      rfl
    obtain hsearches | hcold := searching_or_cold .lifecycle hreach hdriver hsearching
    · rw [Driver.setThread_self, hends] at hsearches
      cases hsearches
    · have hpasses := hcold.registering hreg u
      have hprotocol : (s.setThread t next.1 next.2).protocol.thr u = (s.thr u).protocol := by
        change ((s.setThread t next.1 next.2).thr u).protocol = _
        rw [Driver.setThread_of_ne _ _ _ _ hut]
      rw [hprotocol, Thread.passes_of_serving (by rw [hu]; rfl) hserving] at hpasses
      cases hpasses
  | worker pc' =>
    rw [hu] at hbefore hafter
    obtain ⟨owns, adaptive, rfl, -⟩ := hcases.purges hbefore hafter
    rw [(hok.purges t handle owns adaptive rfl hthr).2 u (by simp [hu, Thread.kind])] at hserving
    cases hserving
  | transmit passive pc' =>
    rw [hu] at hbefore hafter
    obtain ⟨owns, adaptive, rfl, -⟩ := hcases.purges hbefore hafter
    rw [(hok.purges t handle owns adaptive rfl hthr).2 u (by simp [hu, Thread.kind])] at hserving
    cases hserving
  | _ =>
    rw [hu] at hserving
    cases hserving

theorem threads_advance (h : Retirement s) (hreach : DriverReach StopsRetired s)
    (hok : StopsRetired s (.advance t choice)) (hstep : stepThread s.dev t choice (s.thr t) = some next)
    (hserving : ((s.setThread t next.1 next.2).thr u).serving handle = true)
    (hpast : (s.setThread t next.1 next.2).Past ((s.setThread t next.1 next.2).thr u).milestone handle) :
    ((s.setThread t next.1 next.2).thr u).kind = .register ∧
      waitRecordState next.1.core.waitState ≠ waitRegistering := by
  have hstays : (s.thr u).serving handle = true → s.Past (s.thr u).milestone handle →
      (s.thr u).kind = .register ∧ waitRecordState next.1.core.waitState ≠ waitRegistering := by
    intro hbefore hpast
    obtain ⟨hkind, hstate⟩ := h.threads u handle hbefore hpast
    exact ⟨hkind, fun hreg => hstate (registering_before hreach hstep (Thread.owns_of_serving hkind hbefore) hreg)⟩
  by_cases hut : u = t
  · subst hut
    rw [Driver.setThread_self] at hserving hpast ⊢
    obtain ⟨hkind, hfrom⟩ := stepThread_serving hstep hserving
    rw [Thread.milestone_of_kind hkind] at hpast
    rw [hkind]
    obtain hpast | ⟨pc, d', flow, hthr, -⟩ := hpast.of_advance hstep
    · obtain hbefore | hpasses | ⟨hmilestone, r, hr, rfl⟩ := hfrom
      · exact hstays hbefore hpast
      · exact absurd hpast (hok.checks u handle rfl hpasses)
      · rw [hmilestone] at hpast
        exact absurd hpast (h.waiting r hr)
    · rw [hthr] at hkind
      rw [Thread.serving_eq_false (by rw [hkind]; simp [Thread.kind])] at hserving
      cases hserving
  · rw [Driver.setThread_of_ne _ _ _ _ hut] at hserving hpast ⊢
    obtain hpast | ⟨pc, d', flow, hthr, hcases, hnext, hbefore, hafter⟩ := hpast.of_advance hstep
    · exact hstays hserving hpast
    · exact reached hreach hut hok hstep hthr hcases hnext hbefore hafter hserving

theorem waiting_advance (h : Retirement s) (hok : StopsRetired s (.advance t choice))
    (hstep : stepThread s.dev t choice (s.thr t) = some next) (hr : r ∈ next.1.readQueue.waiting) :
    ¬(s.setThread t next.1 next.2).Past .purged r.handle := by
  intro hpast
  obtain hbefore | ⟨hserving, hkind⟩ := stepThread_waiting hstep hr
  · obtain hpast | ⟨pc, d', flow, hthr, hcases, hnext, hpc, hflow⟩ := hpast.of_advance hstep
    · exact h.waiting r hbefore hpast
    · obtain ⟨owns, adaptive, rfl, hpurged⟩ := hcases.purges hpc hflow
      cases adaptive with
      | true => exact (hok.purges t r.handle owns true rfl hthr).1 rfl r hbefore rfl
      | false =>
        rw [hnext, settle_readQueue, hpurged rfl] at hr
        cases hr
  · obtain hpast | ⟨pc, d', flow, hthr, -⟩ := hpast.of_advance hstep
    · have hmilestone : s.Past (s.thr t).milestone r.handle := by
        cases hthr : s.thr t with
        | read => exact hpast.drained
        | worker | transmit => exact hpast
        | _ => all_goals simp [hthr, Thread.kind] at hkind
      rw [(h.threads t r.handle hserving hmilestone).1] at hkind
      simp at hkind
    · simp [hthr, Thread.kind] at hkind

theorem log_advance (h : Retirement s) (hreach : DriverReach StopsRetired s)
    (hstep : stepThread s.dev t choice (s.thr t) = some next) : Sealed next.1.log := by
  obtain hlog | ⟨e, hlog, -⟩ := stepThread_logs hstep
  · rw [hlog]
    exact h.log
  · rw [hlog]
    refine h.log.cons fun handle hmem => Bool.eq_false_iff.mpr fun hserves => ?_
    have hpc : (s.thr t).protocol.PcOk := (DriverReach.protocol hreach).inv.pcs t
    obtain ⟨hserving, hregistering⟩ := stepThread_serves hpc hstep e hlog hserves
    obtain ⟨hkind, hstate⟩ := h.threads t handle hserving (.inl hmem)
    exact hstate (hregistering hkind)

theorem step (h : Retirement s) (hreach : DriverReach StopsRetired s) (hok : StopsRetired s a)
    (hstep : stepDriver s a = some s') : Retirement s' := by
  cases stepDriver_cases hstep with
  | @start t a d th hidle hstart =>
    refine h.keep ?_ ?_ ?_ (fun handle hserving => ?_) (fun handle pc m hth hpc => ?_)
    · cases hstart <;> rfl
    · cases hstart <;> exact fun r hr => hr
    · cases hstart <;> rfl
    · rw [hstart.not_serving] at hserving
      cases hserving
    · rw [hstart.not_passed hth] at hpc
      cases hpc
  | @framework a d hmove =>
    rw [Driver.setDev_eq s 0 d]
    refine h.keep ?_ ?_ ?_ (fun _ _ => rfl) (fun _ _ _ _ _ => rfl)
    · cases hmove <;> rfl
    · cases hmove with
      | cancelRead => exact fun r hr => List.mem_of_mem_erase hr
      | _ => exact fun r hr => hr
    · cases hmove <;> rfl
  | @packet t length passive gen captured hthr hlength =>
    exact h.keep rfl (fun _ hr => hr) rfl (fun _ hserving => by cases hserving) (fun _ _ _ hth => by cases hth)
  | @advance t choice next hadvance =>
    exact ⟨fun u handle => h.threads_advance hreach hok hadvance, fun r => h.waiting_advance hok hadvance,
      h.log_advance hreach hadvance⟩

end Retirement

theorem DriverReach.retirement (h : DriverReach StopsRetired s) : Retirement s := by
  refine h.invariant (P := Retirement) (fun _ => .init) fun s a s' hs hretirement hok hstep => ?_
  exact hretirement.step hs hok hstep

/-- After the cleanup of a handle has returned, no frame is injected through the handle, no READ of it returns a frame
or is parked, and no wait of it is registered. -/
theorem retired_io_has_no_effect {s : Driver} (h : DriverReach StopsRetired s) {handle : Handle}
    {newer older : List Event} (hlog : s.dev.log = newer ++ .cleanedUp handle :: older) :
    ∀ e ∈ newer, (∀ f, e ≠ .injected handle f) ∧
      (∀ r status f, r.handle = handle → e ≠ .readCompleted r status (some f)) ∧
      (∀ r, r.handle = handle → e ≠ .readParked r) ∧ e ≠ .waitRegistered handle := by
  intro e he
  have hserves := (DriverReach.retirement h).log newer handle older hlog e he
  refine ⟨?_, ?_, ?_, ?_⟩
  · rintro f rfl
    simp [Event.serves] at hserves
  · rintro r status f rfl rfl
    simp [Event.serves] at hserves
  · rintro r rfl rfl
    simp [Event.serves] at hserves
  · rintro rfl
    simp [Event.serves] at hserves

/-- The next step is a last check. -/
def Thread.checks : Thread → Bool
  | .read _ .lifecycle | .write _ _ .lifecycle | .register _ _ _ .recheckAdaptive => true
  | _ => false

theorem PassesCheck.checks (hpasses : PassesCheck d h th) : th.checks = true := by
  cases hpasses <;> rfl

/-- Nobody reads, and what is checked is checked before any cleanup starts. -/
def ChecksFirst (ts : List ThreadId) (s : Driver) (a : Action) : Prop :=
  a.kind ∉ [.worker, .transmit] ∧ s.dev.readQueue.waiting = [] ∧ ∀ t, t ∈ a.thread → t ∈ ts ∧
    ((s.thr t).checks = true → (∀ e ∈ s.dev.log, .cleanup ∉ e.authors) ∧ ∀ u ∈ ts, (s.thr u).kind ≠ .cleanup)

instance (ts : List ThreadId) (s : Driver) (a : Action) : Decidable (ChecksFirst ts s a) :=
  inferInstanceAs (Decidable (_ ∧ _ ∧ _))

theorem ChecksFirst.stopsRetired {ts : List ThreadId} (h : ChecksFirst ts s a) (hs : DriverReach (ChecksFirst ts) s) :
    StopsRetired s a := by
  obtain ⟨-, hwaiting, hthreads⟩ := h
  constructor
  · intro t handle ht hpasses hpast
    obtain ⟨hlog, hcleanups⟩ := (hthreads t ht).2 hpasses.checks
    obtain hmem | ⟨u, pc, hthr, -⟩ := hpast
    · exact hlog _ hmem (by simp [Event.authors])
    · by_cases hu : u ∈ ts
      · exact hcleanups u hu (by rw [hthr]; rfl)
      · have hidle := DriverReach.idle (hs.mono fun _ _ hok u hu => (hok.2.2 u hu).1) hu
        rw [hthr] at hidle
        cases hidle
  · intro t handle owns adaptive ht hthr
    refine ⟨fun _ r hr => ?_, fun u hu => ?_⟩
    · rw [hwaiting] at hr
      cases hr
    · exact absurd hu (DriverReach.avoids _ hs (by decide) (fun _ _ hok => hok.1) u)

/-- A handle is opened, writes a frame and is closed, and another one is opened. -/
def writesAndCloses : List Action :=
  .create 1 7 :: steps 1 2 ++ .write 2 7 writeFrame :: steps 2 11 ++ .cleanup 1 7 :: steps 1 31 ++
    .create 1 8 :: steps 1 2

theorem retired_io_has_no_effect_reopened :
    let s := driverSystem.after .initial writesAndCloses
    s.dev.log = [.completed 8 statusSuccess 0] ++ .cleanedUp 7 :: [.completed 7 statusSuccess 60, .injected 7 ⟨0, 60⟩,
        .completed 7 statusSuccess 0] ∧
      ∀ f, Event.completed 8 statusSuccess 0 ≠ .injected 7 f := by
  intro s
  have hreach : DriverReach (ChecksFirst [1, 2]) s :=
    Machine.System.reach_after_keeping (by decide +kernel) (driverReach_initial _)
  have hlog : s.dev.log = [.completed 8 statusSuccess 0] ++ .cleanedUp 7 :: [.completed 7 statusSuccess 60,
      .injected 7 ⟨0, 60⟩, .completed 7 statusSuccess 0] := by decide +kernel
  exact ⟨hlog, (retired_io_has_no_effect (hreach.exchange fun _ _ hs hok => hok.stopsRetired hs) hlog _
    (List.mem_singleton.mpr rfl)).1⟩

/-- A WRITE of the first handle has started and waits. The handle is closed, another one is opened, and the WRITE
goes on. -/
def writesLate : List Action :=
  .create 1 7 :: steps 1 2 ++ .write 2 7 writeFrame :: .cleanup 1 7 :: steps 1 31 ++ .create 1 8 :: steps 1 2 ++
    steps 2 6

/-- The frame of the closed handle is injected for the next owner. -/
theorem retired_write_injects :
    ∃ s f older, DriverReach Machine.Free s ∧
      s.dev.log = .injected 7 f :: .completed 8 statusSuccess 0 :: .cleanedUp 7 :: older ∧
      f ∈ s.dev.injection.queue.frames :=
  ⟨driverSystem.after .initial writesLate, ⟨0, 60⟩, [.completed 7 statusSuccess 0],
    Machine.System.reach_after (driverReach_initial _) _, by decide +kernel, by decide +kernel⟩

end WinTap

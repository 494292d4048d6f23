import WinTap.Proof.Wait.WorkItem
import WinTap.Proof.Driver.Steady

/-!
# Parked READs and captured frames

With adaptive polling off, a READ that finds no frame is parked and a frame that finds no READ is stored,
each without a common lock. Bringing the two together is the worker's job, so while both queues hold
something somebody has to attend to it: the work item is queued, a TX callback is going to queue it, or a
worker is going to look at both queues once more. A READ path that parks a request or puts a frame back
attends to nothing; that is where a READ can be stranded.
-/

namespace WinTap

variable {d : Device} {t : ThreadId} {choice : Choice} {th : Thread} {next : Device × Thread}

/-! ### Who attends -/

/-- The frame of this packet has been stored for a legacy READ. -/
def PacketPc.stored : PacketPc → Bool
  | .store mode (.generation _) | .store mode (.claim _) => !mode
  | _ => false

/-- A worker that finds no frame, or no request, leaves. -/
def DrainPc.attends : DrainPc → Bool
  | .forward _ | .forwardFailed .. | .releaseRequest | .stop => false
  | _ => true

/-- A callback that is going to queue the work item, or to look at both queues again. -/
def Thread.attends : Thread → Bool
  | .transmit _ (.ring _ captured) => captured
  | .transmit _ (.packet _ captured _ pc) => captured || pc.stored
  | .transmit _ .queueWork => true
  | .worker (.wait _) => true
  | .worker (.drain pc) => pc.attends
  | _ => false

/-- A path that is about to forward a READ to the manual queue. -/
def Thread.parks : Thread → Bool
  | .read _ .forward | .worker (.drain (.forward _)) => true
  | _ => false

/-- A READ callback that is about to put a frame back into the capture queue. -/
def Thread.putsBack : Thread → Bool
  | .read _ (.requeue _ _ _ (.store .enqueue)) => true
  | _ => false

/-- A TX callback that read the mode as adaptive. -/
def Thread.storesAdaptive : Thread → Bool
  | .transmit _ (.packet _ _ _ (.store adaptive _)) => adaptive
  | _ => false

/-- What a step does to the two queues and to who attends. -/
structure AttendStep (d : Device) (th : Thread) (next : Device × Thread) : Prop where
  queued : StaysQueued d.core next.1.core
  keeps : th.attends = true → next.2.attends = true ∨ next.1.core.workQueued = true ∨
    next.1.capture.queue.frames = [] ∨ next.1.readQueue.waiting = []
  strands : next.1.capture.queue.frames ≠ [] → next.1.readQueue.waiting ≠ [] →
    (d.capture.queue.frames ≠ [] ∧ d.readQueue.waiting ≠ []) ∨ next.2.attends = true ∨
      (th.parks = true ∧ d.capture.queue.frames ≠ []) ∨ th.putsBack = true ∧ d.readQueue.waiting ≠ []

theorem AttendStep.fewer (hqueued : StaysQueued d.core next.1.core)
    (hframes : next.1.capture.queue.frames ≠ [] → d.capture.queue.frames ≠ [])
    (hwaiting : next.1.readQueue.waiting ≠ [] → d.readQueue.waiting ≠ [])
    (hattends : th.attends = true → next.2.attends = true) : AttendStep d th next where
  queued := hqueued
  keeps h := .inl (hattends h)
  strands hf hw := .inl ⟨hframes hf, hwaiting hw⟩

theorem AttendStep.attending (hqueued : StaysQueued d.core next.1.core) (hattends : next.2.attends = true) :
    AttendStep d th next where
  queued := hqueued
  keeps _ := .inl hattends
  strands _ _ := .inr (.inl hattends)

section
variable (d t choice)

theorem enqueueExistingCaptureFrame_queued (f : Frame) (pc : StorePc) :
    StaysQueued d.core (enqueueExistingCaptureFrame d t f pc).1.core := by
  cases pc with
  | enqueue =>
    simp only [enqueueExistingCaptureFrame]
    split <;> exact id
  | generation wasEmpty => exact id
  | claim pc => exact claimWaitForPassiveCompletion_queued d.core d.env t _ none pc

theorem requeueCaptureFrameAndScheduleWait_queued (f : Frame) (gen : Word) (pc : RequeuePc) :
    StaysQueued d.core (requeueCaptureFrameAndScheduleWait d t f gen pc).1.core := by
  cases pc with
  | lease =>
    simp only [requeueCaptureFrameAndScheduleWait]
    split <;> exact id
  | store pc => exact enqueueExistingCaptureFrame_queued d t f pc
  | _ => exact id

theorem dequeueCaptureFrame_cases (pc : TakePc) :
    StaysQueued d.core (dequeueCaptureFrame d pc).1.core ∧
    ((dequeueCaptureFrame d pc).1.readQueue.waiting ≠ [] → d.readQueue.waiting ≠ []) ∧
    ((dequeueCaptureFrame d pc).1.capture.queue.frames ≠ [] → d.capture.queue.frames ≠ []) ∧
    ((dequeueCaptureFrame d pc).2 = .ret none → (dequeueCaptureFrame d pc).1.capture.queue.frames = []) := by
  cases pc with
  | dequeue =>
    simp only [dequeueCaptureFrame, FrameQueue.dequeue]
    cases hframes : d.capture.queue.frames with
    | nil => exact ⟨id, id, fun h => absurd hframes h, fun _ => hframes⟩
    | cons f rest => exact ⟨id, id, fun _ => by simp, fun h => by cases h⟩
  | generation f => exact ⟨id, id, id, fun h => by cases h⟩

/-- Only a put-back that enqueues fills the capture queue. -/
theorem requeueCaptureFrameAndScheduleWait_fills (f : Frame) (gen : Word) {pc : RequeuePc}
    (hpc : pc ≠ .store .enqueue) :
    (requeueCaptureFrameAndScheduleWait d t f gen pc).1.capture.queue = d.capture.queue := by
  cases pc with
  | lease =>
    simp only [requeueCaptureFrameAndScheduleWait]
    split <;> rfl
  | store pc =>
    cases pc with
    | enqueue => exact absurd rfl hpc
    | _ => rfl
  | _ => rfl

theorem evtIoRead_attends (r : Read) (pc : ReadPc) :
    AttendStep d (.read r pc) ((evtIoRead d t r choice pc).1,
      (evtIoRead d t r choice pc).2.on (Thread.read r) .idle) := by
  have hnever : ∀ {P : Prop}, (Thread.read r pc).attends = true → P := fun h => by cases h
  cases pc with
  | lease | tryAdmit gen =>
    simp only [evtIoRead]
    split <;> exact .fewer id id id hnever
  | poll gen pc | take gen pc =>
    obtain ⟨hqueued, hwaiting, hframes, -⟩ := dequeueCaptureFrame_cases d pc
    exact .fewer hqueued hframes hwaiting hnever
  | deliver gen f =>
    obtain hdone | ⟨status, hstatus, hfail⟩ := completeCapturedFrameToRead_cases d choice r f
    · simp only [evtIoRead, hdone]
      exact .fewer id id id hnever
    · simp only [evtIoRead, hfail]
      exact .fewer id id id hnever
  | requeue gen f status pc =>
    have hqueued := requeueCaptureFrameAndScheduleWait_queued d t f gen pc
    obtain ⟨_, _, _, hframe⟩ := requeueCaptureFrameAndScheduleWait_frame d t f gen pc
    have hreads : (requeueCaptureFrameAndScheduleWait d t f gen pc).1.readQueue.waiting ≠ [] →
        d.readQueue.waiting ≠ [] := by
      rw [hframe]
      exact id
    by_cases hpc : pc = .store .enqueue
    · subst hpc
      exact ⟨hqueued, hnever, fun _ hw => .inr (.inr (.inr ⟨rfl, hreads hw⟩))⟩
    · have hframes : (requeueCaptureFrameAndScheduleWait d t f gen pc).1.capture.queue.frames ≠ [] →
          d.capture.queue.frames ≠ [] := by
        rw [requeueCaptureFrameAndScheduleWait_fills d t f gen hpc]
        exact id
      exact .fewer hqueued hframes hreads hnever
  | forward =>
    simp only [evtIoRead]
    split
    · exact ⟨id, hnever, fun hf _ => .inr (.inr (.inl ⟨rfl, hf⟩))⟩
    · exact .fewer id id id hnever
  | _ => exact .fewer id id id hnever

/-- The worker after a step of its READ part. -/
def drained : Flow DrainPc Bool → Thread
  | .run pc => .worker (.drain pc)
  | .ret true => .worker (.wait (.take .load))
  | .ret false => .idle

theorem drainReads_attends (pc : DrainPc) (hlifecycle : d.lifecycle = .instanceOpen)
    (hlease : pc = .lease → acquireLease d.capture.callbackLeases ≠ none) :
    AttendStep d (.worker (.drain pc)) ((drainReads d t choice pc).1,
      drained (drainReads d t choice pc).2) := by
  cases pc with
  | lease =>
    simp only [drainReads]
    split
    · rename_i hrefused
      exact absurd hrefused (hlease rfl)
    · exact .attending id rfl
  | lifecycle =>
    simp only [drainReads, if_neg (not_not.mpr hlifecycle)]
    exact .attending id rfl
  | retrieve gen =>
    simp only [drainReads, retrieveNextRequest]
    cases hwaiting : d.readQueue.waiting with
    | nil => exact ⟨id, fun _ => .inr (.inr (.inr hwaiting)), fun _ hw => absurd hwaiting hw⟩
    | cons r rest => exact .attending id rfl
  | take gen r pc =>
    obtain ⟨hqueued, -, -, hempty⟩ := dequeueCaptureFrame_cases d pc
    simp only [drainReads]
    obtain ⟨_, _, hflow⟩ | ⟨value, hvalue, hflow⟩ := call_snd (dequeueCaptureFrame d pc) _ _ <;> rw [hflow]
    · exact .attending hqueued rfl
    · cases value with
      | none =>
        have hnone := hempty hvalue
        exact ⟨hqueued, fun _ => .inr (.inr (.inl hnone)), fun hf => absurd hnone hf⟩
      | some f => exact .attending hqueued rfl
  | deliver gen r f =>
    obtain hdone | ⟨status, hstatus, hfail⟩ := completeCapturedFrameToRead_cases d choice r f
    · simp only [drainReads, hdone, if_true]
      exact .attending id rfl
    · simp only [drainReads, hfail, if_neg hstatus]
      exact .attending id rfl
  | requeue gen r f status pc =>
    have hqueued := requeueCaptureFrameAndScheduleWait_queued d t f gen pc
    simp only [drainReads]
    obtain ⟨_, _, hflow⟩ | ⟨_, _, hflow⟩ :=
      call_snd (requeueCaptureFrameAndScheduleWait d t f gen pc) _ _ <;> rw [hflow] <;> exact .attending hqueued rfl
  | forward r =>
    simp only [drainReads]
    split
    · exact ⟨id, (fun h => by cases h), fun hf _ => .inr (.inr (.inl ⟨rfl, hf⟩))⟩
    · exact .fewer id id id (fun h => by cases h)
  | owner | release gen r f | complete r status | again => exact .attending id rfl
  | _ => exact .fewer id id id (fun h => by cases h)

theorem evtReadCompletionWorkItem_attends (pc : WorkPc) (hlifecycle : d.lifecycle = .instanceOpen)
    (hlease : pc = .drain .lease → acquireLease d.capture.callbackLeases ≠ none) :
    AttendStep d (.worker pc) ((evtReadCompletionWorkItem d t choice pc).1,
      (evtReadCompletionWorkItem d t choice pc).2.on Thread.worker .idle) := by
  cases pc with
  | wait pc =>
    exact .attending (workerRound_queued d.core d.env choice pc)
      (call_all (Thread.attends · = true) (fun _ => rfl) fun took => by cases took <;> rfl)
  | drain pc =>
    have hdrain := drainReads_attends d t choice pc hlifecycle fun hpc => hlease (hpc ▸ rfl)
    simp only [evtReadCompletionWorkItem]
    obtain ⟨_, hstep, hflow⟩ | ⟨goesRound, hstep, hflow⟩ :=
      call_snd (drainReads d t choice pc) WorkPc.drain
        (fun goesRound => if goesRound then .run (.wait (.take .load)) else .ret ()) <;>
      rw [hflow] <;> rw [hstep] at hdrain
    · exact hdrain
    · cases goesRound <;> exact hdrain

/-- A step on a packet that stores nothing leaves what was captured before. -/
theorem packet_attends {passive captured : Bool} {gen : Word} {f : Frame} {pc : PacketPc}
    {step : Device × Flow PacketPc Bool} (hqueued : StaysQueued d.core step.1.core)
    (hframes : step.1.capture.queue.frames ≠ [] → d.capture.queue.frames ≠ [])
    (hwaiting : step.1.readQueue.waiting ≠ [] → d.readQueue.waiting ≠ []) (hpc : pc.stored = false) :
    AttendStep d (.transmit passive (.packet gen captured f pc))
      (step.1, (call step (TxPc.packet gen captured f) fun capturedThis =>
        (.run (.ring gen (captured || capturedThis)) : Flow TxPc Unit)).2.on (Thread.transmit passive)
          .idle) := by
  refine .fewer hqueued hframes hwaiting fun h => ?_
  simp only [Thread.attends, hpc, Bool.or_false] at h
  subst h
  exact call_all (Thread.attends · = true) (fun _ => rfl) fun _ => rfl

theorem advanceTransmit_attends (passive : Bool) (pc : TxPc)
    (hmode : (Thread.transmit passive pc).storesAdaptive = false) :
    AttendStep d (.transmit passive pc) ((advanceTransmit d t passive choice pc).1,
      (advanceTransmit d t passive choice pc).2.on (Thread.transmit passive) .idle) := by
  cases pc with
  | lease | lifecycle =>
    simp only [advanceTransmit]
    split <;> exact .fewer id id id (fun h => by cases h)
  | ring gen captured => cases captured <;> exact .fewer id id id id
  | packet gen captured f pc =>
    simp only [advanceTransmit]
    cases pc with
    | lockDirect =>
      refine packet_attends d ?_ ?_ ?_ rfl <;> simp only [capturePacket] <;> split <;> exact id
    | retrieve =>
      refine packet_attends d ?_ ?_ ?_ rfl
      · simp only [capturePacket, retrieveNextRequest]
        cases d.readQueue.waiting <;> exact id
      · simp only [capturePacket, retrieveNextRequest]
        cases d.readQueue.waiting <;> exact id
      · simp only [capturePacket, retrieveNextRequest]
        cases hwaiting : d.readQueue.waiting with
        | nil => exact fun h => absurd hwaiting h
        | cons r rest => exact fun _ => by simp
    | complete r =>
      obtain hdone | ⟨status, hstatus, hfail⟩ := completeCapturedFrameToRead_cases d choice r f
      · refine packet_attends d ?_ ?_ ?_ rfl <;> simp only [capturePacket, hdone, if_true] <;> exact id
      · refine packet_attends d ?_ ?_ ?_ rfl <;> simp only [capturePacket, hfail, if_neg hstatus] <;> exact id
    | store mode pc =>
      cases hmode
      have hqueued := enqueueExistingCaptureFrame_queued d t f pc
      cases pc with
      | enqueue =>
        simp only [capturePacket, enqueueExistingCaptureFrame]
        cases hresult : d.capture.queue.enqueue f with
        | error e => exact .fewer id id id (fun h => by simpa [Thread.attends, PacketPc.stored] using h)
        | ok queue => exact .attending id (by simp [call, Thread.attends, PacketPc.stored])
      | generation wasEmpty =>
        cases wasEmpty <;>
          exact .attending hqueued (by simp [call, capturePacket, enqueueExistingCaptureFrame,
            Thread.attends, PacketPc.stored])
      | claim pc =>
        refine .attending hqueued ?_
        simp only [capturePacket, enqueueExistingCaptureFrame]
        cases hclaim :
            (claimWaitForPassiveCompletion d.env d.core t adaptiveInterestReadable none pc).2 <;>
          simp [call, hclaim, Thread.attends, PacketPc.stored]
    | _ => exact packet_attends d id id id rfl
  | queueWork => exact ⟨fun _ => rfl, fun _ => .inr (.inl rfl), fun hf hw => .inl ⟨hf, hw⟩⟩
  | _ => exact .fewer id id id (fun h => by cases h)

end

/-! ### One step of a thread -/

theorem settle_attends {π : Type} {inside : π → Thread} {result : Device × Flow π Unit}
    (h : AttendStep d th (result.1, result.2.on inside .idle)) : AttendStep d th (th.settle inside result) := by
  obtain ⟨_, _, _, _, _, _, _, hframe⟩ := th.settle_frame inside result
  have hthread : (th.settle inside result).2 = result.2.on inside .idle := by rw [Thread.settle_eq]
  refine ⟨?_, ?_, ?_⟩
  · rw [hframe]
    exact h.queued
  · rw [hframe, hthread]
    exact h.keeps
  · rw [hframe, hthread]
    exact h.strands

theorem advanceReceive_queued (d : Device) (t : ThreadId) (choice : Choice) (pc : RxPc) :
    StaysQueued d.core (advanceReceive d t choice pc).1.core := by
  cases pc with
  | claim gen pc => exact claimWaitForPassiveCompletion_queued d.core d.env t _ none pc
  | lease | dequeue gen | place gen f wasFull | requeueEnqueue f =>
    simp only [advanceReceive]
    split <;> exact id
  | _ => exact id

/-- No callback that does not tear down takes the work item off the queue. -/
theorem stepThread_queued (hk : th.kind ∉ [.read, .worker, .transmit, .cleanup, .d0Exit])
    (hstep : stepThread d t choice th = some next) : StaysQueued d.core next.1.core := by
  have hframes := stepThread_frames hstep
  have hsettle : ∀ {π : Type} (inside : π → Thread) (result : Device × Flow π Unit),
      (th.settle inside result).1.core = result.1.core := by
    intro π inside result
    obtain ⟨_, _, _, _, _, _, _, hframe⟩ := th.settle_frame inside result
    rw [hframe]
  by_cases hcore : th.kind ∈ [.receive, .register, .cancel, .stopControl, .queueStop]
  · cases th <;> simp only [stepThread] at hstep
    case receive pc =>
      cases hstep
      rw [hsettle]
      exact advanceReceive_queued d t choice pc
    case register h r input pc =>
      cases hstep
      rw [hsettle]
      simp only [registerWait]
      split <;> exact handleWaitForChange_queued d.core d.env t r choice input pc
    case cancel r pc =>
      cases hstep
      rw [hsettle]
      exact cancelWaitFromWdf_queued d.core r pc
    case stopControl r pc =>
      cases hstep
      rw [hsettle]
      cases pc with
      | active => exact id
      | teardown pc => exact cancelWaitRequestForTeardown_queued d.core choice (some r) pc
    case queueStop isTransmit pc =>
      obtain ⟨result, hresult, rfl⟩ := Option.map_eq_some_iff.mp hstep
      rw [hsettle]
      cases pc with
      | stop =>
        simp only [evtPacketQueueStop] at hresult
        split at hresult <;> cases hresult <;> exact id
      | disarm =>
        cases hresult
        exact id
      | teardown pc =>
        cases hresult
        exact cancelWaitRequestForTeardown_queued d.core choice none pc
      | flush =>
        obtain ⟨d', hflush, rfl⟩ := Option.map_eq_some_iff.mp hresult
        rw [(flushWorkItem_eq hflush).2]
        exact id
    all_goals simp [Thread.kind] at hcore
  · refine .of_eq (congrArg Core.workQueued (hframes.core ?_))
    simp only [List.mem_cons, List.not_mem_nil, or_false] at *
    tauto

theorem stepThread_attends (hk : th.kind ∉ [.cleanup, .d0Entry, .d0Exit]) (hlifecycle : d.lifecycle = .instanceOpen)
    (hlease : th = .worker (.drain .lease) → acquireLease d.capture.callbackLeases ≠ none)
    (hmode : th.storesAdaptive = false) (hstep : stepThread d t choice th = some next) : AttendStep d th next := by
  have hframes := stepThread_frames hstep
  by_cases hserves : th.kind ∈ [.read, .worker, .transmit]
  · cases th <;> simp only [stepThread] at hstep
    case read r pc =>
      cases hstep
      exact settle_attends (evtIoRead_attends d t choice r pc)
    case worker pc =>
      cases hstep
      exact settle_attends (evtReadCompletionWorkItem_attends d t choice pc hlifecycle
        fun hpc => hlease (hpc ▸ rfl))
    case transmit passive pc =>
      cases hstep
      exact settle_attends (advanceTransmit_attends d t choice passive pc hmode)
    all_goals simp [Thread.kind] at hserves
  · have hqueue : next.1.capture.queue = d.capture.queue := hframes.captureQueue (by
      simp only [List.mem_cons, List.not_mem_nil, or_false] at *
      tauto)
    have hwaiting : next.1.readQueue.waiting = d.readQueue.waiting := hframes.waiting (by
      simp only [List.mem_cons, List.not_mem_nil, or_false] at *
      tauto)
    refine .fewer (stepThread_queued ?_ hstep) (hqueue ▸ id) (hwaiting ▸ id) fun h => ?_
    · simp only [List.mem_cons, List.not_mem_nil, or_false] at *
      tauto
    · cases th <;> first | cases h | simp [Thread.kind] at hserves

theorem stepThread_storesAdaptive (hmode : d.adaptiveEnabled = false) (hth : th.storesAdaptive = false)
    (hstep : stepThread d t choice th = some next) : next.2.storesAdaptive = false := by
  have hkind := stepThread_kind hstep
  by_cases htransmit : th.kind = .transmit
  · cases th <;> simp only [stepThread] at hstep
    case transmit passive pc =>
      cases hstep
      rw [Thread.settle_eq]
      cases pc with
      | lease | lifecycle | ring gen captured =>
        simp only [advanceTransmit]
        split <;> rfl
      | packet gen captured f pc =>
        simp only [advanceTransmit]
        obtain ⟨pc', hpc', hflow⟩ | ⟨_, _, hflow⟩ :=
          call_snd (capturePacket d t passive gen f choice pc) (TxPc.packet gen captured f)
            (fun capturedThis => (.run (.ring gen (captured || capturedThis)) : Flow TxPc Unit)) <;>
          rw [hflow]
        · cases pc with
          | loadAdaptive =>
            cases hpc'
            exact hmode
          | store mode pc =>
            simp only [capturePacket] at hpc'
            obtain ⟨_, _, hstore⟩ | ⟨_, _, hstore⟩ :=
              call_snd (enqueueExistingCaptureFrame d t f pc) (PacketPc.store mode)
                (fun stored => (.ret (stored && !mode) : Flow PacketPc Bool)) <;> rw [hstore] at hpc'
            · cases hpc'
              exact hth
            · cases hpc'
          | retrieve =>
            simp only [capturePacket] at hpc'
            split at hpc' <;> cases hpc' <;> rfl
          | unlockDirect delivered =>
            cases delivered <;> cases hpc'
            rfl
          | adaptive | lockDirect | directAdaptive | directLifecycle | directOwner | complete r
          | allocate | lifecycle | owner =>
            simp only [capturePacket] at hpc'
            split at hpc' <;> cases hpc' <;> rfl
          | _ =>
            cases hpc'
            rfl
        · rfl
      | _ => rfl
    all_goals simp [Thread.kind] at htransmit
  · obtain hidle | hsame := hkind
    · rw [hidle]
      rfl
    · rw [← hsame] at htransmit
      cases hnext : next.2 <;> rw [hnext] at htransmit <;> first | rfl | simp [Thread.kind] at htransmit

/-! ### Runs -/

/-- The work item is queued, or a callback is going to queue it or to look at both queues again. -/
def Driver.Attended (s : Driver) : Prop :=
  s.dev.core.workQueued = true ∨ ∃ t, (s.thr t).attends = true

/-- Adaptive polling stays off and nobody tears down; a READ is forwarded only while the capture queue is
empty or somebody attends, a READ callback puts a frame back only while no READ waits or somebody
attends, and a worker is granted its lease. -/
def ParksAttended (s : Driver) (a : Action) : Prop :=
  a.kind ∉ [.cleanup, .d0Exit, .enable] ∧ ∀ t, t ∈ a.thread →
    ((s.thr t).parks = true → s.dev.capture.queue.frames = [] ∨ s.Attended) ∧
    ((s.thr t).putsBack = true → s.dev.readQueue.waiting = [] ∨ s.Attended) ∧
    (s.thr t = .worker (.drain .lease) → acquireLease s.dev.capture.callbackLeases ≠ none)

/-- Somebody attends whenever both queues hold something. -/
structure LegacyInv (s : Driver) : Prop where
  mode : s.dev.adaptiveEnabled = false
  stores : ∀ t, (s.thr t).storesAdaptive = false
  attended : s.dev.capture.queue.frames ≠ [] → s.dev.readQueue.waiting ≠ [] → s.Attended

namespace LegacyInv

variable {s s' : Driver} {a : Action}

theorem init (h : driverSystem.init s) : LegacyInv s := by
  obtain ⟨⟨mtu, -, -, hdev⟩, hidle⟩ := h
  refine ⟨?_, fun t => ?_, fun hframes => absurd ?_ hframes⟩
  · rw [hdev]
    rfl
  · rw [hidle t]
    rfl
  · rw [hdev]
    rfl

theorem set (h : LegacyInv s) (hmode : d.adaptiveEnabled = s.dev.adaptiveEnabled) (hstores : th.storesAdaptive = false)
    (hframes : d.capture.queue.frames = s.dev.capture.queue.frames)
    (hwaiting : d.readQueue.waiting ≠ [] → s.dev.readQueue.waiting ≠ [])
    (hqueued : s.dev.core.workQueued = true → d.core.workQueued = true ∨ th.attends = true)
    (hattends : (s.thr t).attends = true → th.attends = true) : LegacyInv (s.setThread t d th) where
  mode := hmode.trans h.mode
  stores i := by
    by_cases hi : i = t
    · subst hi
      rwa [Driver.setThread_self]
    · rw [Driver.setThread_of_ne _ _ _ _ hi]
      exact h.stores i
  attended hf hw := by
    obtain hwork | ⟨i, hi⟩ := h.attended (hframes ▸ hf) (hwaiting hw)
    · exact (hqueued hwork).imp_right fun hth => ⟨t, by rwa [Driver.setThread_self]⟩
    · exact .inr (Machine.exists_update ⟨i, hi⟩ hattends)

theorem advance (h : LegacyInv s) (hsteady : Steady s) (hok : ParksAttended s (.advance t choice))
    (hkind : (s.thr t).kind ≠ .enable) (hstep : stepThread s.dev t choice (s.thr t) = some next) :
    LegacyInv (s.setThread t next.1 next.2) := by
  obtain ⟨hparks, hputs, hlease⟩ := hok.2 t rfl
  have hattend := stepThread_attends (hsteady.kind t) hsteady.lifecycle hlease (h.stores t) hstep
  -- whoever attends goes on, queues the work item, or has found a queue empty
  have hkeep : s.Attended → next.1.capture.queue.frames ≠ [] → next.1.readQueue.waiting ≠ [] →
      (s.setThread t next.1 next.2).Attended := by
    intro hs hf hw
    obtain hwork | ⟨i, hi⟩ := hs
    · exact .inl (hattend.queued hwork)
    · by_cases hit : i = t
      · subst hit
        obtain hnext | hwork | hempty | hempty := hattend.keeps hi
        · exact .inr ⟨i, by rwa [Driver.setThread_self]⟩
        · exact .inl hwork
        · exact absurd hempty hf
        · exact absurd hempty hw
      · exact .inr ⟨i, by rwa [Driver.setThread_of_ne _ _ _ _ hit]⟩
  refine ⟨?_, fun i => ?_, fun hf hw => ?_⟩
  · rw [Driver.setThread_dev, (stepThread_frames hstep).adaptiveEnabled, h.mode]
    have := hsteady.kind t
    simp only [List.mem_cons, List.not_mem_nil, or_false] at *
    tauto
  · by_cases hi : i = t
    · subst hi
      rw [Driver.setThread_self]
      exact stepThread_storesAdaptive h.mode (h.stores i) hstep
    · rw [Driver.setThread_of_ne _ _ _ _ hi]
      exact h.stores i
  · obtain ⟨hf₀, hw₀⟩ | hnext | ⟨hpark, hf₀⟩ | ⟨hput, hw₀⟩ := hattend.strands hf hw
    · exact hkeep (h.attended hf₀ hw₀) hf hw
    · exact .inr ⟨t, by rwa [Driver.setThread_self]⟩
    · exact hkeep ((hparks hpark).resolve_left hf₀) hf hw
    · exact hkeep ((hputs hput).resolve_left hw₀) hf hw

theorem step (h : LegacyInv s) (hsteady : Steady s) (hkind : ∀ t, (s.thr t).kind ≠ .enable)
    (hok : ParksAttended s a) (hstep : stepDriver s a = some s') : LegacyInv s' := by
  cases stepDriver_cases hstep with
  | @start t a d th hidle hstart =>
    have hnever : (s.thr t).attends = true → th.attends = true := by
      rw [hidle]
      intro h
      cases h
    cases hstart
    case work hqueued => exact h.set rfl rfl rfl id (fun _ => .inr rfl) hnever
    all_goals exact h.set rfl rfl rfl id .inl hnever
  | @framework a d hmove =>
    rw [s.setDev_eq 0]
    cases hmove
    case cancelRead r hwaiting =>
      refine h.set rfl (h.stores 0) rfl (fun hw hnil => hw ?_) .inl id
      change s.dev.readQueue.waiting.erase r = []
      rw [hnil, List.erase_nil]
    all_goals exact h.set rfl (h.stores 0) rfl id .inl id
  | @packet t length passive gen captured hthr hlength =>
    refine h.set rfl rfl rfl id .inl ?_
    rw [hthr]
    intro hcaptured
    exact (Bool.or_false captured).trans hcaptured
  | advance hadvance => exact h.advance hsteady hok (hkind _) hadvance

end LegacyInv

theorem DriverReach.legacy {s : Driver} (h : DriverReach ParksAttended s) : LegacyInv s := by
  refine h.invariant (fun _ => LegacyInv.init) fun s a s' hs hinv hok hstep => ?_
  refine hinv.step (DriverReach.steady hs fun _ a hok hmem => hok.1 ?_) (fun t hk => ?_) hok hstep
  · simp only [List.mem_cons, List.not_mem_nil, or_false] at *
    tauto
  · refine DriverReach.avoids [.enable] hs (by decide) (fun _ _ hok hmem => hok.1 ?_) t ?_
    · simp [List.mem_singleton.mp hmem]
    · exact List.mem_singleton.mpr hk

/-- In every run with adaptive polling off in which a READ is parked, and a frame put back, only while the
other queue is empty or somebody attends, no READ is stranded: once nothing runs and the work item is not
queued, one of the two queues is empty. -/
theorem no_stranded_read {s : Driver} (h : DriverReach ParksAttended s) (hidle : ∀ t, s.thr t = .idle)
    (hwork : s.dev.core.workQueued = false) :
    ¬(s.dev.capture.queue.frames ≠ [] ∧ s.dev.readQueue.waiting ≠ []) := by
  rintro ⟨hframes, hwaiting⟩
  obtain hqueued | ⟨t, ht⟩ := (DriverReach.legacy h).attended hframes hwaiting
  · rw [hwork] at hqueued
    cases hqueued
  · rw [hidle t] at ht
    cases ht

/-- The condition with nobody to attend: each is done only while the other queue is empty. -/
def ParksAlone (s : Driver) (a : Action) : Prop :=
  a.kind ∉ [.cleanup, .d0Exit, .enable] ∧ ∀ t, t ∈ a.thread →
    ((s.thr t).parks = true → s.dev.capture.queue.frames = []) ∧
    ((s.thr t).putsBack = true → s.dev.readQueue.waiting = []) ∧
    (s.thr t = .worker (.drain .lease) → acquireLease s.dev.capture.callbackLeases ≠ none)

instance (s : Driver) (a : Action) : Decidable (ParksAlone s a) :=
  inferInstanceAs (Decidable (_ ∧ ∀ t, t ∈ a.thread → (_ → _) ∧ (_ → _) ∧ (_ → _)))

/-- A READ is parked, a frame is captured, and the worker brings them together. -/
def servedRead : List Action :=
  [.create 0 7] ++ steps 0 2 ++ [.read 1 7 1514] ++ steps 1 8 ++ [.transmit 2 false] ++ steps 2 3
    ++ [.packet 2 60] ++ steps 2 11 ++ [.work 3] ++ steps 3 16

theorem no_stranded_read_served :
    (driverSystem.after .initial servedRead).dev.log.head?
        = some (.readCompleted ⟨0, 7, 1514⟩ statusSuccess (some ⟨0, 60⟩)) ∧
      ¬((driverSystem.after .initial servedRead).dev.capture.queue.frames ≠ [] ∧
        (driverSystem.after .initial servedRead).dev.readQueue.waiting ≠ []) := by
  refine ⟨by decide +kernel, no_stranded_read ?_ ?_ (by decide +kernel)⟩
  · have halone : DriverReach ParksAlone (driverSystem.after .initial servedRead) :=
      Machine.System.reach_after_keeping (by decide +kernel) (driverReach_initial _)
    refine halone.mono fun s a hok => ⟨hok.1, fun t ht => ?_⟩
    obtain ⟨hparks, hputs, hlease⟩ := hok.2 t ht
    exact ⟨fun h => .inl (hparks h), fun h => .inl (hputs h), hlease⟩
  · have hacts : ∀ a ∈ servedRead, ∀ t, t ∈ a.thread → t ∈ [0, 1, 2, 3] := by decide +kernel
    exact after_threads (P := fun th => th = .idle) hacts rfl (by decide +kernel)

/-- A READ callback has found the capture queue empty. A frame is captured and the worker runs and finds
no READ. Then the READ is parked. -/
def strandedRead : List Action :=
  [.create 0 7] ++ steps 0 2 ++ [.read 1 7 1514] ++ steps 1 6 ++ [.transmit 2 false] ++ steps 2 3
    ++ [.packet 2 60] ++ steps 2 11 ++ [.work 3] ++ steps 3 6 ++ steps 1 2

theorem read_stranded :
    ∃ s, DriverReach (fun _ a => a.kind ∉ [.cleanup, .d0Exit, .enable]) s ∧ (∀ t, s.thr t = .idle) ∧
      s.dev.core.workQueued = false ∧ s.dev.capture.queue.frames = [⟨0, 60⟩] ∧
      s.dev.readQueue.waiting = [⟨0, 7, 1514⟩] := by
  have hacts : ∀ a ∈ strandedRead, ∀ t, t ∈ a.thread → t ∈ [0, 1, 2, 3] := by decide +kernel
  have hkinds : ∀ a ∈ strandedRead, a.kind ∉ [.cleanup, .d0Exit, .enable] := by decide +kernel
  refine ⟨driverSystem.after .initial strandedRead,
    Machine.System.reach_after_of (fun _ => hkinds) (driverReach_initial _), ?_,
    by decide +kernel, by decide +kernel, by decide +kernel⟩
  exact after_threads (P := fun th => th = .idle) hacts rfl (by decide +kernel)

end WinTap

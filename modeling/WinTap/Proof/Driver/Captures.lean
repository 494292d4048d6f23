import WinTap.Base.Custody
import WinTap.Proof.Driver.Steady

/-!
# Where a captured frame is

A captured frame waits in the capture queue, is held by a READ path that has dequeued it, or has been
delivered by a completed READ. A TX callback carries a frame before it is captured. A READ path that
cannot deliver its frame puts it back under a lease of its own, and ignores whether the queue took it;
that is the only place where a captured frame can be lost while nobody tears down.
-/

namespace WinTap

variable {d d' d'' : Device} {t : ThreadId} {choice : Choice} {th : Thread} {f : Frame} {held held' : Option Frame}
  {next : Device × Thread} {s : Driver}

/-! ### Holders -/

def TakePc.heldFrame : TakePc → Option Frame
  | .dequeue => none
  | .generation f => some f

def StorePc.heldFrame (f : Frame) : StorePc → Option Frame
  | .enqueue => some f
  | _ => none

def RequeuePc.heldFrame (f : Frame) : RequeuePc → Option Frame
  | .lease | .lifecycle | .owner => some f
  | .store pc => pc.heldFrame f
  | .drop => none

def ReadPc.heldFrame : ReadPc → Option Frame
  | .poll _ pc | .take _ pc => pc.heldFrame
  | .release _ f | .deliver _ f => some f
  | .requeue _ f _ pc => pc.heldFrame f
  | _ => none

def DrainPc.heldFrame : DrainPc → Option Frame
  | .take _ _ pc => pc.heldFrame
  | .release _ _ f | .deliver _ _ f => some f
  | .requeue _ _ f _ pc => pc.heldFrame f
  | _ => none

/-- The frame a READ path has dequeued and neither delivered nor put back. -/
def Thread.heldFrame : Thread → Option Frame
  | .read _ pc => pc.heldFrame
  | .worker (.drain pc) => pc.heldFrame
  | _ => none

def PacketPc.newFrame (f : Frame) : PacketPc → Option Frame
  | .releaseClaim delivered | .unlockDirect delivered => if delivered then none else some f
  | .store _ pc => pc.heldFrame f
  | _ => some f

/-- The frame a TX callback has taken from its ring and neither delivered nor captured. -/
def Thread.newFrame : Thread → Option Frame
  | .transmit _ (.packet _ _ f pc) => pc.newFrame f
  | _ => none

def Thread.carriedFrame (th : Thread) : Option Frame := th.heldFrame.or th.newFrame

theorem Thread.carriedFrame_eq_some : th.carriedFrame = some f ↔ th.heldFrame = some f ∨ th.newFrame = some f := by
  cases th <;> simp [Thread.carriedFrame, Thread.heldFrame, Thread.newFrame]

theorem Thread.carriedFrame_eq_none (hk : th.kind ∉ [.read, .worker, .transmit]) : th.carriedFrame = none := by
  cases th <;> first | rfl | simp [Thread.kind] at hk

/-! ### History -/

def Event.deliveredFrame : Event → Option Frame
  | .readCompleted _ status frame => if status = statusSuccess then frame else none
  | _ => none

/-- The frames that successfully completed READs have returned, newest first. -/
def Device.deliveredFrames (d : Device) : List Frame := d.log.filterMap Event.deliveredFrame

def Event.capturedFrame : Event → Option Frame
  | .captured f => some f
  | _ => none

/-- The frames that the capture queue has accepted, newest first. -/
def Device.capturedFrames (d : Device) : List Frame := d.log.filterMap Event.capturedFrame

/-! ### What a step does to the frames -/

/-- A step that moves no frame, or one, and that captures at most the frame it puts into the queue. -/
structure FrameStep (held : Option Frame) (d : Device) (held' : Option Frame) (d' : Device) : Prop where
  move : Custody.Move held d.capture.queue.frames d.deliveredFrames
    held' d'.capture.queue.frames d'.deliveredFrames
  captured : ∀ f, f ∈ d'.capturedFrames →
    f ∈ d.capturedFrames ∨ held = some f ∧ f ∈ d'.capture.queue.frames

/-- A step that moves no frame. -/
structure SameFrames (d d' : Device) : Prop where
  frames : d'.capture.queue.frames = d.capture.queue.frames
  delivered : d'.deliveredFrames = d.deliveredFrames
  captured : d'.capturedFrames = d.capturedFrames

theorem SameFrames.step (h : SameFrames d d') (hheld : held' = held) : FrameStep held d held' d' where
  move := by
    rw [h.frames, h.delivered, hheld]
    exact .keep
  captured f hf := .inl (h.captured ▸ hf)

theorem completeRead_sameFrames (d : Device) (r : Read) (status : NtStatus) :
    SameFrames d (completeRead d r status none) where
  frames := rfl
  delivered := List.filterMap_cons_none (by simp [Event.deliveredFrame])
  captured := rfl

section
variable (d t choice)

theorem enqueueExistingCaptureFrame_frames (f : Frame) (pc : StorePc)
    (hroom : pc = .enqueue → d.capture.queue.checkCapacity f.length = .ok ()) :
    FrameStep (pc.heldFrame f) d
      ((enqueueExistingCaptureFrame d t f pc).2.on (StorePc.heldFrame f) none)
      (enqueueExistingCaptureFrame d t f pc).1 := by
  cases pc with
  | enqueue =>
    simp only [enqueueExistingCaptureFrame, FrameQueue.enqueue, hroom rfl]
    refine ⟨.put, fun g hg => ?_⟩
    obtain rfl | hg := List.mem_cons.mp hg
    · exact .inr ⟨rfl, List.mem_append_right _ (List.mem_singleton_self g)⟩
    · exact .inl hg
  | generation wasEmpty => cases wasEmpty <;> exact SameFrames.step ⟨rfl, rfl, rfl⟩ rfl
  | claim pc =>
    exact SameFrames.step ⟨rfl, rfl, rfl⟩ (call_on (fun _ => rfl) fun _ => rfl)

theorem dequeueCaptureFrame_frames {π ρ : Type} (pc : TakePc) {inside : TakePc → π} {after : Option Frame → Flow π ρ}
    {g : π → Option Frame} (hinside : ∀ pc, g (inside pc) = pc.heldFrame)
    (hafter : ∀ value, (after value).on g none = value) :
    FrameStep pc.heldFrame d ((call (dequeueCaptureFrame d pc) inside after).2.on g none)
      (call (dequeueCaptureFrame d pc) inside after).1 := by
  cases pc with
  | dequeue =>
    simp only [dequeueCaptureFrame]
    cases hdequeue : d.capture.queue.dequeue with
    | none => exact SameFrames.step ⟨rfl, rfl, rfl⟩ (hafter none)
    | some result =>
      obtain ⟨f, queue⟩ := result
      obtain ⟨hframes, -⟩ := FrameQueue.dequeue_eq hdequeue
      refine ⟨?_, fun g hg => .inl hg⟩
      rw [hframes, call_run, Flow.on_run, hinside]
      exact .take
  | generation f => exact SameFrames.step ⟨rfl, rfl, rfl⟩ (hafter (some f))

/-- What a put-back has to find for its frame to reach the queue. -/
def RequeuePc.goesThrough (f : Frame) (gen : Word) : RequeuePc → Prop
  | .lease => acquireLease d.capture.callbackLeases ≠ none
  | .lifecycle => d.lifecycle = .instanceOpen
  | .owner => d.ownerGeneration = gen
  | .store .enqueue => d.capture.queue.checkCapacity f.length = .ok ()
  | _ => True

theorem requeueCaptureFrameAndScheduleWait_frames (f : Frame) (gen : Word) (pc : RequeuePc)
    (hthrough : pc.goesThrough d f gen) :
    FrameStep (pc.heldFrame f) d
      ((requeueCaptureFrameAndScheduleWait d t f gen pc).2.on (RequeuePc.heldFrame f) none)
      (requeueCaptureFrameAndScheduleWait d t f gen pc).1 := by
  cases pc with
  | lease =>
    simp only [requeueCaptureFrameAndScheduleWait]
    split
    · rename_i hrefused
      exact absurd hrefused hthrough
    · exact SameFrames.step ⟨rfl, rfl, rfl⟩ rfl
  | lifecycle =>
    simp only [requeueCaptureFrameAndScheduleWait, if_pos (show d.lifecycle = _ from hthrough)]
    exact SameFrames.step ⟨rfl, rfl, rfl⟩ rfl
  | owner =>
    simp only [requeueCaptureFrameAndScheduleWait, if_pos (show d.ownerGeneration = _ from hthrough)]
    exact SameFrames.step ⟨rfl, rfl, rfl⟩ rfl
  | store pc =>
    have hstore := enqueueExistingCaptureFrame_frames d t f pc (by rintro rfl; exact hthrough)
    exact call_of (fun d' held => FrameStep _ d held d') hstore (fun _ => rfl) fun _ => rfl
  | drop => exact SameFrames.step ⟨rfl, rfl, rfl⟩ rfl

/-- A READ that is completed with a frame returns it; otherwise the frame stays. -/
theorem completeCapturedFrameToRead_frames (r : Read) (f : Frame) :
    FrameStep (some f) d
      (if (completeCapturedFrameToRead d r f choice).2 = statusSuccess then none else some f)
      (completeCapturedFrameToRead d r f choice).1 := by
  obtain hdone | ⟨status, hstatus, hfail⟩ := completeCapturedFrameToRead_cases d choice r f
  · rw [hdone, if_pos rfl]
    exact ⟨.retire, fun g hg => .inl hg⟩
  · rw [hfail, if_neg hstatus]
    exact SameFrames.step ⟨rfl, rfl, rfl⟩ rfl

/-- A READ path that is putting its frame back finds what it needs. -/
def Thread.putBackGoesThrough : Thread → Prop
  | .read _ (.requeue gen f _ pc) | .worker (.drain (.requeue gen _ f _ pc)) => pc.goesThrough d f gen
  | _ => True

theorem evtIoRead_frames (r : Read) (pc : ReadPc) (hthrough : (Thread.read r pc).putBackGoesThrough d) :
    FrameStep pc.heldFrame d ((evtIoRead d t r choice pc).2.on ReadPc.heldFrame none)
      (evtIoRead d t r choice pc).1 := by
  cases pc with
  | lease | lifecycle | adaptive gen | tryAdmit gen =>
    simp only [evtIoRead]
    split <;> exact SameFrames.step ⟨rfl, rfl, rfl⟩ rfl
  | poll gen pc | take gen pc =>
    exact dequeueCaptureFrame_frames d pc (fun _ => rfl) fun value => by cases value <;> rfl
  | deliver gen f =>
    have hdeliver := completeCapturedFrameToRead_frames d choice r f
    simp only [evtIoRead]
    split at hdeliver
    · rename_i hsuccess
      rw [if_pos hsuccess]
      exact hdeliver
    · rename_i hfail
      rw [if_neg hfail]
      exact hdeliver
  | requeue gen f status pc =>
    have hrequeue := requeueCaptureFrameAndScheduleWait_frames d t f gen pc hthrough
    exact call_of (fun d' held => FrameStep _ d held d') hrequeue (fun _ => rfl) fun _ => rfl
  | forward =>
    simp only [evtIoRead]
    split <;> exact SameFrames.step ⟨rfl, rfl, rfl⟩ rfl
  | forwardFailed status | complete status => exact (completeRead_sameFrames d r status).step rfl
  | refuse => exact (completeRead_sameFrames d r statusDeviceNotReady).step rfl
  | _ => exact SameFrames.step ⟨rfl, rfl, rfl⟩ rfl

theorem drainReads_frames (pc : DrainPc)
    (hthrough : (Thread.worker (.drain pc)).putBackGoesThrough d) :
    FrameStep pc.heldFrame d ((drainReads d t choice pc).2.on DrainPc.heldFrame none)
      (drainReads d t choice pc).1 := by
  cases pc with
  | lease | lifecycle =>
    simp only [drainReads]
    split <;> exact SameFrames.step ⟨rfl, rfl, rfl⟩ rfl
  | retrieve gen =>
    simp only [drainReads, retrieveNextRequest]
    cases d.readQueue.waiting <;> exact SameFrames.step ⟨rfl, rfl, rfl⟩ rfl
  | take gen r pc =>
    exact dequeueCaptureFrame_frames d pc (fun _ => rfl) fun value => by cases value <;> rfl
  | deliver gen r f =>
    have hdeliver := completeCapturedFrameToRead_frames d choice r f
    simp only [drainReads]
    split at hdeliver
    · rename_i hsuccess
      rw [if_pos hsuccess]
      exact hdeliver
    · rename_i hfail
      rw [if_neg hfail]
      exact hdeliver
  | requeue gen r f status pc =>
    have hrequeue := requeueCaptureFrameAndScheduleWait_frames d t f gen pc hthrough
    exact call_of (fun d' held => FrameStep _ d held d') hrequeue (fun _ => rfl) fun _ => rfl
  | forward r =>
    simp only [drainReads]
    split <;> exact SameFrames.step ⟨rfl, rfl, rfl⟩ rfl
  | forwardFailed r status | complete r status => exact (completeRead_sameFrames d r status).step rfl
  | _ => exact SameFrames.step ⟨rfl, rfl, rfl⟩ rfl

theorem evtReadCompletionWorkItem_frames (pc : WorkPc)
    (hthrough : (Thread.worker pc).putBackGoesThrough d) :
    FrameStep (Thread.worker pc).heldFrame d
      ((evtReadCompletionWorkItem d t choice pc).2.on (fun pc => (Thread.worker pc).heldFrame) none)
      (evtReadCompletionWorkItem d t choice pc).1 := by
  cases pc with
  | wait pc =>
    exact SameFrames.step ⟨rfl, rfl, rfl⟩ (call_on (fun _ => rfl) fun took => by cases took <;> rfl)
  | drain pc =>
    exact call_of (fun d' held => FrameStep _ d held d') (drainReads_frames d t choice pc hthrough) (fun _ => rfl)
      fun again => by cases again <;> rfl

/-- A put-back that does not go through lets go of its frame. -/
theorem requeueCaptureFrameAndScheduleWait_letsGo {f : Frame} {gen : Word} {pc : RequeuePc}
    (hthrough : ¬pc.goesThrough d f gen) :
    (requeueCaptureFrameAndScheduleWait d t f gen pc).2.on (RequeuePc.heldFrame f) none = none ∧
      SameFrames d (requeueCaptureFrameAndScheduleWait d t f gen pc).1 := by
  cases pc with
  | lease =>
    have hrefused : acquireLease d.capture.callbackLeases = none := not_not.mp hthrough
    simp only [requeueCaptureFrameAndScheduleWait, hrefused]
    exact ⟨rfl, rfl, rfl, rfl⟩
  | lifecycle =>
    simp only [requeueCaptureFrameAndScheduleWait, if_neg (show d.lifecycle ≠ _ from hthrough)]
    exact ⟨rfl, rfl, rfl, rfl⟩
  | owner =>
    simp only [requeueCaptureFrameAndScheduleWait, if_neg (show d.ownerGeneration ≠ _ from hthrough)]
    exact ⟨rfl, rfl, rfl, rfl⟩
  | store pc =>
    cases pc with
    | enqueue =>
      simp only [requeueCaptureFrameAndScheduleWait, enqueueExistingCaptureFrame, FrameQueue.enqueue]
      cases hcapacity : d.capture.queue.checkCapacity f.length with
      | error e => exact ⟨rfl, rfl, rfl, rfl⟩
      | ok value => exact absurd hcapacity hthrough
    | _ => exact absurd trivial hthrough
  | drop => exact absurd trivial hthrough

theorem evtIoRead_letsGo {r : Read} {pc : ReadPc} (hthrough : ¬(Thread.read r pc).putBackGoesThrough d) :
    (evtIoRead d t r choice pc).2.on ReadPc.heldFrame none = none ∧ SameFrames d (evtIoRead d t r choice pc).1 := by
  cases pc with
  | requeue gen f status pc =>
    exact call_of (fun d' held => held = none ∧ SameFrames d d')
      (requeueCaptureFrameAndScheduleWait_letsGo d t hthrough) (fun _ => rfl) fun _ => rfl
  | _ => exact absurd trivial hthrough

theorem evtReadCompletionWorkItem_letsGo {pc : WorkPc} (hthrough : ¬(Thread.worker pc).putBackGoesThrough d) :
    (evtReadCompletionWorkItem d t choice pc).2.on (fun pc => (Thread.worker pc).heldFrame) none = none ∧
      SameFrames d (evtReadCompletionWorkItem d t choice pc).1 := by
  cases pc with
  | wait pc => exact absurd trivial hthrough
  | drain pc =>
    refine call_of (fun d' held => held = none ∧ SameFrames d d') (f := DrainPc.heldFrame) ?_ (fun _ => rfl)
      fun again => by cases again <;> rfl
    cases pc with
    | requeue gen r f status pc =>
      exact call_of (fun d' held => held = none ∧ SameFrames d d')
        (requeueCaptureFrameAndScheduleWait_letsGo d t hthrough) (fun _ => rfl) fun _ => rfl
    | _ => exact absurd trivial hthrough

/-- A TX callback may also let its frame go before it is captured. -/
def TransmitStep (held : Option Frame) (d : Device) (held' : Option Frame) (d' : Device) : Prop :=
  (FrameStep held d held' d' ∨ held' = none ∧ SameFrames d d') ∧ ∀ f, held' = some f → held = some f

theorem SameFrames.transmitStep {d d' : Device} (h : SameFrames d d') (hheld : held' = held ∨ held' = none) :
    TransmitStep held d held' d' := by
  obtain rfl | rfl := hheld
  · exact ⟨.inl (h.step rfl), fun _ => id⟩
  · exact ⟨.inr ⟨rfl, h⟩, fun _ hf => by cases hf⟩

theorem capturePacket_frames (passive : Bool) (gen : Word) (f : Frame) (pc : PacketPc) :
    TransmitStep (pc.newFrame f) d
      ((capturePacket d t passive gen f choice pc).2.on (PacketPc.newFrame f) none)
      (capturePacket d t passive gen f choice pc).1 := by
  cases pc with
  | adaptive | lockDirect | directAdaptive | directLifecycle | directOwner | allocate | lifecycle | owner =>
    simp only [capturePacket]
    split <;> exact SameFrames.transmitStep ⟨rfl, rfl, rfl⟩ (by first | exact .inl rfl | exact .inr rfl)
  | retrieve =>
    simp only [capturePacket, retrieveNextRequest]
    cases d.readQueue.waiting <;> exact SameFrames.transmitStep ⟨rfl, rfl, rfl⟩ (.inl rfl)
  | complete r =>
    have hcomplete := completeCapturedFrameToRead_frames d choice r f
    simp only [capturePacket]
    split
    · rename_i hsuccess
      rw [if_pos hsuccess] at hcomplete
      exact ⟨.inl hcomplete, fun _ hg => by cases hg⟩
    · exact (completeRead_sameFrames d r _).transmitStep (.inl rfl)
  | unlockDirect delivered =>
    cases delivered <;> exact SameFrames.transmitStep ⟨rfl, rfl, rfl⟩ (.inl rfl)
  | store adaptive pc =>
    by_cases hroom : pc = .enqueue → d.capture.queue.checkCapacity f.length = .ok ()
    · have hstore := enqueueExistingCaptureFrame_frames d t f pc hroom
      -- a frame that is still carried has not been stored yet, and there was no step before the store
      have hnone : (enqueueExistingCaptureFrame d t f pc).2.on (StorePc.heldFrame f) none = none := by
        cases pc with
        | enqueue =>
          simp only [enqueueExistingCaptureFrame]
          split <;> rfl
        | generation wasEmpty => cases wasEmpty <;> rfl
        | claim pc => exact call_on (fun _ => rfl) fun _ => rfl
      refine call_of (fun d' held => TransmitStep _ d held d') ⟨.inl hstore, fun g hg => ?_⟩ (fun _ => rfl) fun _ => rfl
      cases hnone.symm.trans hg
    · -- the queue is full: the frame is dropped
      obtain ⟨rfl, hfull⟩ := Classical.not_imp.mp hroom
      have herror : ∃ e, d.capture.queue.checkCapacity f.length = .error e := by
        cases hcapacity : d.capture.queue.checkCapacity f.length with
        | error e => exact ⟨e, rfl⟩
        | ok value => exact absurd hcapacity hfull
      obtain ⟨e, herror⟩ := herror
      simp only [capturePacket, enqueueExistingCaptureFrame, FrameQueue.enqueue, herror]
      exact SameFrames.transmitStep ⟨rfl, rfl, rfl⟩ (.inr rfl)
  | releaseClaim delivered => cases delivered <;> exact SameFrames.transmitStep ⟨rfl, rfl, rfl⟩ (.inl rfl)
  | _ => exact SameFrames.transmitStep ⟨rfl, rfl, rfl⟩ (.inl rfl)

theorem advanceTransmit_frames (passive : Bool) (pc : TxPc) :
    TransmitStep (Thread.transmit passive pc).newFrame d
      ((advanceTransmit d t passive choice pc).2.on (fun pc => (Thread.transmit passive pc).newFrame) none)
      (advanceTransmit d t passive choice pc).1 := by
  cases pc with
  | lease | lifecycle | ring gen captured =>
    simp only [advanceTransmit]
    split <;> exact SameFrames.transmitStep ⟨rfl, rfl, rfl⟩ (.inl rfl)
  | packet gen captured f pc =>
    have hpacket := capturePacket_frames d t choice passive gen f pc
    exact call_of (fun d' held => TransmitStep _ d held d') hpacket (fun _ => rfl) fun _ => rfl
  | _ => exact SameFrames.transmitStep ⟨rfl, rfl, rfl⟩ (.inl rfl)

end

/-! ### One step of a thread -/

/-- The callbacks that do not serve READs neither deliver nor capture. -/
theorem Logs.sameFrames {k : Kind} (h : Logs k d d') (hk : k ∉ [.read, .worker, .transmit, .stopRead]) :
    d'.deliveredFrames = d.deliveredFrames ∧ d'.capturedFrames = d.capturedFrames := by
  obtain hlog | ⟨e, hlog, hauthor⟩ := h
  · simp only [Device.deliveredFrames, Device.capturedFrames, hlog, and_self]
  · have hevent : e.deliveredFrame = none ∧ e.capturedFrame = none := by
      cases e
      case readCompleted => exact absurd hauthor hk
      case captured =>
        simp only [Event.authors, List.mem_cons, List.not_mem_nil, or_false] at hauthor hk
        tauto
      all_goals exact ⟨rfl, rfl⟩
    simp only [Device.deliveredFrames, Device.capturedFrames, hlog,
      List.filterMap_cons_none hevent.1, List.filterMap_cons_none hevent.2, and_self]

theorem settle_sameFrames {π : Type} {inside : π → Thread} {result : Device × Flow π Unit}
    (hth : ∀ h pc, th ≠ .cleanup h pc) : SameFrames result.1 (th.settle inside result).1 := by
  obtain ⟨_, _, _, _, _, _, _, hframe⟩ := th.settle_frame inside result
  have hlog := Thread.settle_log inside result hth
  refine ⟨?_, ?_, ?_⟩
  · rw [hframe]
  · rw [Device.deliveredFrames, hlog]
    rfl
  · rw [Device.capturedFrames, hlog]
    rfl

theorem SameFrames.trans (h : SameFrames d d') (h' : SameFrames d' d'') : SameFrames d d'' :=
  ⟨h'.frames.trans h.frames, h'.delivered.trans h.delivered, h'.captured.trans h.captured⟩

theorem FrameStep.congr (h : FrameStep held d held' d') (hsame : SameFrames d' d'') : FrameStep held d held' d'' where
  move := by
    rw [hsame.frames, hsame.delivered]
    exact h.move
  captured f hf := by
    rw [hsame.frames]
    exact h.captured f (hsame.captured ▸ hf)

/-- What a step of any callback that does not tear down does to the frames. -/
structure ThreadFrames (d : Device) (th : Thread) (next : Device × Thread) : Prop where
  step : FrameStep th.carriedFrame d next.2.carriedFrame next.1 ∨
    th.heldFrame = none ∧ next.2.carriedFrame = none ∧ SameFrames d next.1
  new : ∀ f, next.2.newFrame = some f → th.newFrame = some f

theorem settle_readPath {π : Type} {inside : π → Thread} {result : Device × Flow π Unit}
    (hth : th.kind ∈ [.read, .worker]) (hinside : ∀ pc, (inside pc).kind = th.kind)
    (h : FrameStep th.heldFrame d (result.2.on (fun pc => (inside pc).heldFrame) none) result.1) :
    ThreadFrames d th (th.settle inside result) := by
  have hnew : ∀ {th' : Thread}, th'.kind ∈ [.read, .worker] → th'.newFrame = none := by
    intro th' hk
    cases th' <;> first | rfl | simp [Thread.kind] at hk
  have hcleanup : ∀ h pc, th ≠ .cleanup h pc := by
    rintro h pc rfl
    simp [Thread.kind] at hth
  have hafter : (th.settle inside result).2.carriedFrame
        = result.2.on (fun pc => (inside pc).heldFrame) none ∧
      (th.settle inside result).2.newFrame = none := by
    rw [Thread.settle_eq]
    cases result.2 with
    | run pc =>
      have hpc : (inside pc).newFrame = none := hnew (hinside pc ▸ hth)
      simp [Thread.carriedFrame, hpc]
    | ret value => exact ⟨rfl, rfl⟩
  refine ⟨.inl ?_, fun f hf => ?_⟩
  · rw [Thread.carriedFrame, hnew hth, Option.or_none, hafter.1]
    exact h.congr (settle_sameFrames hcleanup)
  · rw [hafter.2] at hf
    cases hf

theorem settle_transmit {passive : Bool} {pc : TxPc} {result : Device × Flow TxPc Unit}
    (h : TransmitStep (Thread.transmit passive pc).newFrame d
      (result.2.on (fun pc => (Thread.transmit passive pc).newFrame) none) result.1) :
    ThreadFrames d (.transmit passive pc)
      ((Thread.transmit passive pc).settle (.transmit passive) result) := by
  have hsame : SameFrames result.1 ((Thread.transmit passive pc).settle (.transmit passive) result).1 :=
    settle_sameFrames fun _ _ => Thread.noConfusion
  have hcarried : ((Thread.transmit passive pc).settle (.transmit passive) result).2.carriedFrame
      = result.2.on (fun pc => (Thread.transmit passive pc).newFrame) none := by
    rw [Thread.settle_eq]
    cases result.2 <;> rfl
  have hnew : ((Thread.transmit passive pc).settle (.transmit passive) result).2.newFrame
      = result.2.on (fun pc => (Thread.transmit passive pc).newFrame) none := by
    rw [Thread.settle_eq]
    cases result.2 <;> rfl
  refine ⟨?_, fun f hf => h.2 f (hnew ▸ hf)⟩
  rw [hcarried]
  obtain hstep | ⟨hnone, hkeep⟩ := h.1
  · exact .inl (hstep.congr hsame)
  · exact .inr ⟨rfl, hnone, hkeep.trans hsame⟩

theorem stepThread_threadFrames (hk : th.kind ∉ [.cleanup, .d0Entry, .d0Exit]) (hthrough : th.putBackGoesThrough d)
    (hstep : stepThread d t choice th = some next) : ThreadFrames d th next := by
  have hframes := stepThread_frames hstep
  have hlogs := stepThread_logs hstep
  have hkind := stepThread_kind hstep
  by_cases hserves : th.kind ∈ [.read, .worker, .transmit]
  · cases th <;> simp only [stepThread] at hstep
    case read r pc =>
      cases hstep
      exact settle_readPath (by simp [Thread.kind]) (fun _ => rfl)
        (evtIoRead_frames d t choice r pc hthrough)
    case worker pc =>
      cases hstep
      exact settle_readPath (by simp [Thread.kind]) (fun _ => rfl)
        (evtReadCompletionWorkItem_frames d t choice pc hthrough)
    case transmit passive pc =>
      cases hstep
      exact settle_transmit (advanceTransmit_frames d t choice passive pc)
    all_goals simp [Thread.kind] at hserves
  · have hnext : next.2.kind ∉ [.read, .worker, .transmit] := by
      obtain hidle | hsame := hkind
      · rw [hidle]
        decide
      · rwa [hsame]
    have hqueue : next.1.capture.queue = d.capture.queue := hframes.captureQueue (by
      simp only [List.mem_cons, List.not_mem_nil, or_false] at *
      tauto)
    have hsame : SameFrames d next.1 := by
      by_cases hstop : th.kind = .stopRead
      · cases th <;> simp only [stepThread] at hstep
        case stopRead r pc =>
          cases hstep
          refine SameFrames.trans ?_ (settle_sameFrames fun _ _ => Thread.noConfusion)
          cases pc with
          | release => exact ⟨rfl, rfl, rfl⟩
          | complete => exact completeRead_sameFrames d r statusCancelled
        all_goals simp [Thread.kind] at hstop
      · obtain ⟨hdelivered, hcaptured⟩ := hlogs.sameFrames (by
          simp only [List.mem_cons, List.not_mem_nil, or_false] at *
          tauto)
        exact ⟨congrArg FrameQueue.frames hqueue, hdelivered, hcaptured⟩
    refine ⟨.inl (hsame.step ?_), fun f hf => ?_⟩
    · rw [Thread.carriedFrame_eq_none hserves, Thread.carriedFrame_eq_none hnext]
    · have hcarried := Thread.carriedFrame_eq_some.mpr (.inr hf)
      rw [Thread.carriedFrame_eq_none hnext] at hcarried
      cases hcarried

theorem stepThread_nextSerial (hstep : stepThread d t choice th = some next) : d.nextSerial ≤ next.1.nextSerial := by
  by_cases hwrite : th.kind = .write
  · cases th <;> simp only [stepThread] at hstep
    case write h input pc =>
      obtain ⟨⟨d', flow⟩, hresult, rfl⟩ := Option.map_eq_some_iff.mp hstep
      obtain ⟨_, _, _, _, _, _, _, hframe⟩ :=
        (Thread.write h input pc).settle_frame (.write h input) (d', flow)
      rw [hframe]
      cases pc <;> simp only [evtIoWrite] at hresult
      all_goals
        repeat' split at hresult
        all_goals first | cases hresult; exact Nat.le_refl _ | cases hresult; exact Nat.le_succ _ | cases hresult
    all_goals simp [Thread.kind] at hwrite
  · rw [(stepThread_frames hstep).nextSerial (by simpa using hwrite)]

/-! ### Runs -/

/-- A put-back that acquires its lease is granted it, and one that enqueues finds room. -/
def RequeuePc.fits (d : Device) (f : Frame) : RequeuePc → Bool
  | .lease => (acquireLease d.capture.callbackLeases).isSome
  | .store .enqueue => (d.capture.queue.checkCapacity f.length).isOk
  | _ => true

/-- A READ path that puts its frame back is granted its lease and finds room in the queue. -/
def Thread.putBackFits (d : Device) : Thread → Bool
  | .read _ (.requeue _ f _ pc) | .worker (.drain (.requeue _ _ f _ pc)) => pc.fits d f
  | _ => true

/-- Nobody tears down, and every put-back fits. -/
def PutBackFits (s : Driver) (a : Action) : Prop :=
  NoTeardown s a ∧ ∀ t, t ∈ a.thread → (s.thr t).putBackFits s.dev = true

/-- The other two checks of a put-back pass while nobody tears down. -/
theorem Steady.goesThrough (h : Steady s) (hfits : (s.thr t).putBackFits s.dev = true) :
    (s.thr t).putBackGoesThrough s.dev := by
  have hrequeue : ∀ gen f pc, (s.thr t).ownerGeneration = some gen → RequeuePc.fits s.dev f pc = true →
      pc.goesThrough s.dev f gen := by
    intro gen f pc howner hpc
    cases pc with
    | lease =>
      intro hrefused
      simp [RequeuePc.fits, hrefused] at hpc
    | lifecycle => exact h.lifecycle
    | owner => exact (h.owner t gen howner).symm
    | store pc =>
      cases pc with
      | enqueue =>
        unfold RequeuePc.fits at hpc
        change s.dev.capture.queue.checkCapacity f.length = .ok ()
        cases hcapacity : s.dev.capture.queue.checkCapacity f.length with
        | error e =>
          rw [hcapacity] at hpc
          cases hpc
        | ok value => rfl
      | _ => trivial
    | drop => trivial
  unfold Thread.putBackGoesThrough
  split
  · rename_i r gen f status pc hthr
    rw [hthr] at hfits
    exact hrequeue gen f pc (by rw [hthr]; rfl) hfits
  · rename_i gen r f status pc hthr
    rw [hthr] at hfits
    exact hrequeue gen f pc (by rw [hthr]; rfl) hfits
  · trivial

/-- Every frame is in one place, a frame of a TX callback has not been captured, and a captured one is
somewhere. -/
structure FrameInv (s : Driver) : Prop where
  custody : Custody (fun t => (s.thr t).carriedFrame) s.dev.capture.queue.frames s.dev.deliveredFrames
  issued : ∀ t f,
    Custody.Has (s.thr t).carriedFrame s.dev.capture.queue.frames s.dev.deliveredFrames f →
      f.serial < s.dev.nextSerial
  new : ∀ t f, (s.thr t).newFrame = some f → f ∉ s.dev.capturedFrames
  conserved : ∀ f, f ∈ s.dev.capturedFrames →
    f ∈ s.dev.capture.queue.frames ∨ f ∈ s.dev.deliveredFrames ∨ ∃ t, (s.thr t).heldFrame = some f

namespace FrameInv

variable {s s' : Driver} {a : Action}

theorem init (h : driverSystem.init s) : FrameInv s := by
  obtain ⟨⟨mtu, -, -, hdev⟩, hidle⟩ := h
  have hempty : s.dev.capture.queue.frames = [] ∧ s.dev.deliveredFrames = [] ∧
      s.dev.capturedFrames = [] := by
    rw [hdev]
    exact ⟨rfl, rfl, rfl⟩
  have hnone : ∀ t, (s.thr t).carriedFrame = none := fun t => by
    rw [hidle t]
    rfl
  refine ⟨?_, fun t f hf => ?_, fun t f hf => ?_, fun f hf => ?_⟩
  · rw [hempty.1, hempty.2.1]
    exact Custody.initial hnone
  · rw [hempty.1, hempty.2.1, hnone t] at hf
    simp [Custody.Has] at hf
  · rw [hempty.2.2]
    exact List.not_mem_nil
  · rw [hempty.2.2] at hf
    cases hf

theorem same (h : FrameInv s) (hsame : SameFrames s.dev d) (hserial : s.dev.nextSerial ≤ d.nextSerial)
    (hheld : th.heldFrame = (s.thr t).heldFrame) (hnew : th.newFrame = (s.thr t).newFrame) :
    FrameInv (s.setThread t d th) := by
  have hcarried : th.carriedFrame = (s.thr t).carriedFrame := by
    rw [Thread.carriedFrame, hheld, hnew]
    rfl
  refine ⟨?_, fun i f hf => ?_, fun i f hf => ?_, fun f hf => ?_⟩
  · rw [s.setThread_map _ _ _ Thread.carriedFrame, hcarried, Function.update_eq_self,
      Driver.setThread_dev, hsame.frames, hsame.delivered]
    exact h.custody
  · rw [s.setThread_keep t d th hcarried, Driver.setThread_dev, hsame.frames, hsame.delivered] at hf
    exact Nat.lt_of_lt_of_le (h.issued i f hf) hserial
  · rw [s.setThread_keep t d th hnew] at hf
    rw [Driver.setThread_dev, hsame.captured]
    exact h.new i f hf
  · rw [Driver.setThread_dev, hsame.captured] at hf
    rw [Driver.setThread_dev, hsame.frames, hsame.delivered]
    refine (h.conserved f hf).imp_right fun hrest => hrest.imp_right fun ⟨i, hi⟩ => ⟨i, ?_⟩
    rwa [s.setThread_keep t d th hheld]

theorem take (h : FrameInv s) (hsame : SameFrames s.dev d) (hserial : f.serial = s.dev.nextSerial)
    (hnext : d.nextSerial = s.dev.nextSerial + 1) (hthr : (s.thr t).heldFrame = none) (hheld : th.heldFrame = none)
    (hnew : th.newFrame = some f) : FrameInv (s.setThread t d th) := by
  have hfresh : ∀ i, ¬Custody.Has (s.thr i).carriedFrame s.dev.capture.queue.frames
      s.dev.deliveredFrames f := fun i hi => absurd (h.issued i f hi) (by omega)
  have hcarried : th.carriedFrame = some f := Thread.carriedFrame_eq_some.mpr (.inr hnew)
  have hcaptured : f ∉ s.dev.capturedFrames := by
    intro hf
    obtain hqueue | hgone | ⟨i, hi⟩ := h.conserved f hf
    · exact hfresh t (.inr (.inl hqueue))
    · exact hfresh t (.inr (.inr hgone))
    · exact hfresh i (.inl (Thread.carriedFrame_eq_some.mpr (.inl hi)))
  refine ⟨?_, fun i g hg => ?_, fun i g hg => ?_, fun g hg => ?_⟩
  · rw [s.setThread_map _ _ _ Thread.carriedFrame, hcarried, Driver.setThread_dev, hsame.frames,
      hsame.delivered]
    refine h.custody.issue ?_ ?_ ?_
    · exact fun hf => hfresh t (.inr (.inl hf))
    · exact fun hf => hfresh t (.inr (.inr hf))
    · exact fun i hi => hfresh i (.inl hi)
  · rw [Driver.setThread_dev, hsame.frames, hsame.delivered] at hg
    rw [Driver.setThread_dev, hnext]
    by_cases hi : i = t
    · subst hi
      rw [Driver.setThread_self, hcarried] at hg
      obtain hg | hg := hg
      · rw [← Option.some.inj hg, hserial]
        exact Nat.lt_succ_self _
      · exact Nat.lt_succ_of_lt (h.issued i g (.inr hg))
    · rw [Driver.setThread_of_ne _ _ _ _ hi] at hg
      exact Nat.lt_succ_of_lt (h.issued i g hg)
  · rw [Driver.setThread_dev, hsame.captured]
    by_cases hi : i = t
    · subst hi
      rw [Driver.setThread_self, hnew] at hg
      exact Option.some.inj hg ▸ hcaptured
    · rw [Driver.setThread_of_ne _ _ _ _ hi] at hg
      exact h.new i g hg
  · rw [Driver.setThread_dev, hsame.captured] at hg
    rw [Driver.setThread_dev, hsame.frames, hsame.delivered]
    refine (h.conserved g hg).imp_right fun hrest => hrest.imp_right fun ⟨i, hi⟩ => ⟨i, ?_⟩
    rwa [s.setThread_keep t d th (hheld.trans hthr.symm)]

theorem drop (h : FrameInv s) (hsame : SameFrames s.dev d) (hserial : s.dev.nextSerial ≤ d.nextSerial)
    (hheld : (s.thr t).heldFrame = none) (hnone : th.carriedFrame = none) : FrameInv (s.setThread t d th) := by
  obtain ⟨hheld', hnew'⟩ : th.heldFrame = none ∧ th.newFrame = none := Option.or_eq_none_iff.mp hnone
  refine ⟨?_, fun i f hf => ?_, fun i f hf => ?_, fun f hf => ?_⟩
  · rw [s.setThread_map _ _ _ Thread.carriedFrame, hnone, Driver.setThread_dev, hsame.frames,
      hsame.delivered]
    exact h.custody.release
  · rw [Driver.setThread_dev, hsame.frames, hsame.delivered] at hf
    refine Nat.lt_of_lt_of_le (h.issued i f ?_) hserial
    refine hf.imp_left fun hf => ?_
    by_cases hi : i = t
    · subst hi
      rw [Driver.setThread_self, hnone] at hf
      cases hf
    · rwa [Driver.setThread_of_ne _ _ _ _ hi] at hf
  · rw [Driver.setThread_dev, hsame.captured]
    by_cases hi : i = t
    · subst hi
      rw [Driver.setThread_self, hnew'] at hf
      cases hf
    · rw [Driver.setThread_of_ne _ _ _ _ hi] at hf
      exact h.new i f hf
  · rw [Driver.setThread_dev, hsame.captured] at hf
    rw [Driver.setThread_dev, hsame.frames, hsame.delivered]
    refine (h.conserved f hf).imp_right fun hrest => hrest.imp_right fun ⟨i, hi⟩ => ⟨i, ?_⟩
    rwa [s.setThread_keep t d th (hheld'.trans hheld.symm)]

theorem move (h : FrameInv s) (hstep : FrameStep (s.thr t).carriedFrame s.dev th.carriedFrame d)
    (hnew : ∀ f, th.newFrame = some f → (s.thr t).newFrame = some f) (hserial : s.dev.nextSerial ≤ d.nextSerial) :
    FrameInv (s.setThread t d th) := by
  have hcustody : Custody (fun i => ((s.setThread t d th).thr i).carriedFrame)
      d.capture.queue.frames d.deliveredFrames := by
    rw [s.setThread_map _ _ _ Thread.carriedFrame]
    exact h.custody.move hstep.move
  have hother : ∀ {i}, i ≠ t → (s.setThread t d th).thr i = s.thr i := fun hi =>
    Driver.setThread_of_ne _ _ _ _ hi
  refine ⟨hcustody, fun i f hf => ?_, fun i f hf hcaptured => ?_, fun f hf => ?_⟩
  · refine Nat.lt_of_lt_of_le ?_ hserial
    by_cases hi : i = t
    · subst hi
      rw [Driver.setThread_self] at hf
      exact h.issued i f ((hstep.move.has_iff f).mp hf)
    · rw [hother hi] at hf
      obtain hheld | hrest := hf
      · exact h.issued i f (.inl hheld)
      · exact h.issued t f ((hstep.move.has_iff f).mp (.inr hrest))
  · -- a frame is captured by the thread that carries it, and leaves its hand in that step
    obtain hbefore | ⟨hcarried, hqueue⟩ := hstep.captured f hcaptured
    · by_cases hi : i = t
      · subst hi
        rw [Driver.setThread_self] at hf
        exact h.new i f (hnew f hf) hbefore
      · rw [hother hi] at hf
        exact h.new i f hf hbefore
    · exact hcustody.hand_pool i f (Thread.carriedFrame_eq_some.mpr (.inr hf)) hqueue
  · obtain hbefore | ⟨-, hqueue⟩ := hstep.captured f hf
    · have hhas : Custody.Has (s.thr t).carriedFrame s.dev.capture.queue.frames s.dev.deliveredFrames f
          ∨ ∃ i, i ≠ t ∧ (s.thr i).heldFrame = some f := by
        obtain hqueue | hgone | ⟨i, hi⟩ := h.conserved f hbefore
        · exact .inl (.inr (.inl hqueue))
        · exact .inl (.inr (.inr hgone))
        · by_cases hit : i = t
          · exact .inl (.inl (Thread.carriedFrame_eq_some.mpr (.inl (hit ▸ hi))))
          · exact .inr ⟨i, hit, hi⟩
      obtain hhas | ⟨i, hit, hi⟩ := hhas
      · obtain hcarried | hqueue | hgone := (hstep.move.has_iff f).mpr hhas
        · obtain hheld | hfresh := Thread.carriedFrame_eq_some.mp hcarried
          · exact .inr (.inr ⟨t, by rwa [Driver.setThread_self]⟩)
          · exact absurd hbefore (h.new t f (hnew f hfresh))
        · exact .inl hqueue
        · exact .inr (.inl hgone)
      · exact .inr (.inr ⟨i, by rwa [hother hit]⟩)
    · exact .inl hqueue

theorem step (h : FrameInv s) (hsteady : Steady s) (hok : PutBackFits s a)
    (hstep : stepDriver s a = some s') : FrameInv s' := by
  cases stepDriver_cases hstep with
  | @start t a d th hidle hstart =>
    cases hstart <;>
    · refine h.same ⟨rfl, rfl, rfl⟩ (Nat.le_refl _) ?_ ?_ <;>
      · rw [hidle]
        rfl
  | @framework a d hmove =>
    rw [s.setDev_eq 0]
    cases hmove <;> exact h.same ⟨rfl, rfl, rfl⟩ (Nat.le_refl _) rfl rfl
  | @packet t length passive gen captured hthr hlength =>
    refine h.take ⟨rfl, rfl, rfl⟩ rfl rfl ?_ rfl rfl
    rw [hthr]
    rfl
  | @advance t choice next hadvance =>
    have hthread := stepThread_threadFrames (hsteady.kind t) (hsteady.goesThrough (hok.2 t rfl)) hadvance
    have hserial := stepThread_nextSerial hadvance
    obtain hmove | ⟨hheld, hnone, hsame⟩ := hthread.step
    · exact h.move hmove hthread.new hserial
    · exact h.drop hsame hserial hheld hnone

end FrameInv

theorem DriverReach.frames (h : DriverReach PutBackFits s) : FrameInv s := by
  refine h.invariant (fun _ => FrameInv.init) fun s a s' hs hinv hok hstep => ?_
  exact hinv.step (DriverReach.steady hs fun _ _ hok => hok.1) hok hstep

/-- The frame is once in the capture queue, held by one READ path, or delivered once by a completed READ,
and only one of these. -/
def Driver.AccountsFor (s : Driver) (f : Frame) : Prop :=
  (s.dev.capture.queue.frames.count f = 1 ∧ (∀ t, (s.thr t).heldFrame ≠ some f) ∧
      f ∉ s.dev.deliveredFrames) ∨
    ((∃! t, (s.thr t).heldFrame = some f) ∧ f ∉ s.dev.capture.queue.frames ∧
      f ∉ s.dev.deliveredFrames) ∨
    (s.dev.deliveredFrames.count f = 1 ∧ f ∉ s.dev.capture.queue.frames ∧
      ∀ t, (s.thr t).heldFrame ≠ some f)

/-- In every run without teardown in which every put-back is granted its lease and finds room, every
captured frame is accounted for. -/
theorem captured_frame_conserved {s : Driver} (h : DriverReach PutBackFits s) {f : Frame}
    (hcaptured : .captured f ∈ s.dev.log) : s.AccountsFor f := by
  have hinv := DriverReach.frames h
  have hcustody := hinv.custody
  have hcarried : ∀ t, (s.thr t).heldFrame = some f → (s.thr t).carriedFrame = some f :=
    fun t ht => Thread.carriedFrame_eq_some.mpr (.inl ht)
  have hmem : f ∈ s.dev.capturedFrames := List.mem_filterMap.mpr ⟨_, hcaptured, rfl⟩
  obtain hqueue | hgone | ⟨t, ht⟩ := hinv.conserved f hmem
  · refine .inl ⟨List.count_eq_one_of_mem hcustody.pool_nodup hqueue, fun t ht => ?_, ?_⟩
    · exact hcustody.hand_pool t f (hcarried t ht) hqueue
    · exact hcustody.pool_gone f hqueue
  · refine .inr (.inr ⟨List.count_eq_one_of_mem hcustody.gone_nodup hgone, fun hqueue => ?_, fun t ht => ?_⟩)
    · exact hcustody.pool_gone f hqueue hgone
    · exact hcustody.hand_gone t f (hcarried t ht) hgone
  · refine .inr (.inl ⟨⟨t, ht, fun i hi => ?_⟩, ?_, ?_⟩)
    · exact hcustody.hand_hand i t f (hcarried i hi) (hcarried t ht)
    · exact hcustody.hand_pool t f (hcarried t ht)
    · exact hcustody.hand_gone t f (hcarried t ht)

/-- A frame is captured, and a READ whose buffer is too small takes it and fails. -/
def failedRead : List Action :=
  [.create 0 7] ++ steps 0 2 ++ [.transmit 2 false] ++ steps 2 3 ++ [.packet 2 60] ++ steps 2 8
    ++ [.read 1 7 10] ++ steps 1 9

instance (s : Driver) (a : Action) : Decidable (PutBackFits s a) :=
  inferInstanceAs (Decidable (a.kind ∉ _ ∧ ∀ t, t ∈ a.thread → (s.thr t).putBackFits s.dev = true))

/-- The READ puts the frame back and is completed. -/
theorem captured_frame_conserved_put_back :
    (driverSystem.after .initial (failedRead ++ steps 1 8)).dev.capture.queue.frames = [⟨0, 60⟩] ∧
      (driverSystem.after .initial (failedRead ++ steps 1 8)).AccountsFor ⟨0, 60⟩ :=
  ⟨by decide +kernel, captured_frame_conserved
    (Machine.System.reach_after_keeping (by decide +kernel) (driverReach_initial _))
    (by decide +kernel)⟩

/-- Before the READ puts the frame back, the TX callback fills the queue with 256 more. -/
def filledQueue : List Action :=
  failedRead ++ .packet 2 60 :: steps 2 8 ++ (List.replicate 255 (.packet 2 60 :: steps 2 7)).flatten
    ++ steps 1 4

/-- The queue refuses the frame that is put back, and the frame is nowhere. -/
theorem captured_frame_lost :
    ∃ s f, DriverReach NoTeardown s ∧ .captured f ∈ s.dev.log ∧ ¬s.AccountsFor f := by
  obtain ⟨hcaptured, hqueue, hdelivered, hheld⟩ :
      .captured ⟨0, 60⟩ ∈ (driverSystem.after .initial filledQueue).dev.log ∧
      ⟨0, 60⟩ ∉ (driverSystem.after .initial filledQueue).dev.capture.queue.frames ∧
      (driverSystem.after .initial filledQueue).dev.deliveredFrames = [] ∧
      ∀ t ∈ [0, 1, 2], ((driverSystem.after .initial filledQueue).thr t).heldFrame = none := by
    decide +kernel
  have hacts : ∀ a ∈ filledQueue, ∀ t, t ∈ a.thread → t ∈ [0, 1, 2] := by decide +kernel
  have hsteady : ∀ a ∈ filledQueue, a.kind ∉ [.cleanup, .d0Exit] := by decide +kernel
  refine ⟨_, ⟨0, 60⟩, Machine.System.reach_after_of (fun _ => hsteady) (driverReach_initial _), hcaptured, ?_⟩
  rintro (⟨hcount, -, -⟩ | ⟨⟨t, ht, -⟩, -, -⟩ | ⟨hcount, -, -⟩)
  · rw [List.count_eq_zero_of_not_mem hqueue] at hcount
    cases hcount
  · have hnone := after_threads (P := fun th => th.heldFrame = none) hacts rfl hheld t
    rw [hnone] at ht
    cases ht
  · rw [hdelivered] at hcount
    cases hcount

end WinTap

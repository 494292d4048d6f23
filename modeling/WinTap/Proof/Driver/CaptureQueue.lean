import WinTap.Proof.Driver.Frames

/-!
# What the callbacks do to the capture queue

A step of a callback leaves the capture queue as it is, takes its front, or appends a frame inside
`enqueue_existing_capture_frame`. The teardown paths, which empty the queue, are apart.
-/

namespace WinTap

/-! ### Where a callback stores a frame -/

def RequeuePc.storing (f : Frame) : RequeuePc → Option (Frame × StorePc)
  | .store pc => some (f, pc)
  | _ => none

theorem RequeuePc.eq_of_storing {f g : Frame} {at₁ : StorePc} (pc : RequeuePc) (h : pc.storing f = some (g, at₁)) :
    pc = .store at₁ ∧ f = g := by
  cases pc with
  | store pc =>
    cases h
    exact ⟨rfl, rfl⟩
  | _ => cases h

def PacketPc.storing (f : Frame) : PacketPc → Option (Frame × StorePc)
  | .store _ pc => some (f, pc)
  | _ => none

/-- The frame that a callback stores, and where it is in `enqueue_existing_capture_frame`. -/
def Thread.storing : Thread → Option (Frame × StorePc)
  | .read _ (.requeue _ f _ pc) | .worker (.drain (.requeue _ _ f _ pc)) => pc.storing f
  | .transmit _ (.packet _ _ f pc) => pc.storing f
  | _ => none

/-! ### Steps -/

/-- A step from one place in `enqueue_existing_capture_frame`, or outside it, to another. -/
inductive CaptureStep (storing : Option (Frame × StorePc)) (q q' : FrameQueue)
    (storing' : Option (Frame × StorePc)) : Prop
  | same (hqueue : q' = q)
  | take {f : Frame} (hdequeue : q.dequeue = some (f, q'))
  | put {f : Frame} (hat : storing = some (f, .enqueue)) (henqueue : q.enqueue f = .ok q')
      (hnext : storing' = some (f, .generation q.isEmpty))

namespace CaptureStep

variable {storing storing' : Option (Frame × StorePc)} {q q' : FrameQueue}

/-- A step of a called routine, seen from its caller. -/
theorem call {π ρ π' ρ' : Type} {step : Device × Flow π ρ} {inside : π → π'} {after : ρ → Flow π' ρ'}
    {at₁ : π → Option (Frame × StorePc)} {at₂ : π' → Option (Frame × StorePc)}
    (h : CaptureStep storing q step.1.capture.queue (step.2.on at₁ none))
    (hinside : ∀ pc, at₂ (inside pc) = at₁ pc) :
    CaptureStep storing q (WinTap.call step inside after).1.capture.queue
      ((WinTap.call step inside after).2.on at₂ none) := by
  obtain ⟨d, flow⟩ := step
  cases h with
  | same hqueue => exact .same hqueue
  | take hdequeue => exact .take hdequeue
  | put hat henqueue hnext =>
    refine .put hat henqueue ?_
    cases flow with
    | run pc => exact (hinside pc).trans hnext
    | ret value => cases hnext

theorem settle {π : Type} {th : Thread} {inside : π → Thread} {result : Device × Flow π Unit}
    (h : CaptureStep storing q result.1.capture.queue (result.2.on (fun pc => (inside pc).storing) none)) :
    CaptureStep storing q (th.settle inside result).1.capture.queue (th.settle inside result).2.storing := by
  obtain ⟨_, _, _, _, _, _, _, hframe⟩ := th.settle_frame inside result
  rw [hframe, Thread.settle_eq]
  obtain ⟨d, flow⟩ := result
  cases flow <;> exact h

theorem state (h : CaptureStep storing q q' storing') : q'.state = q.state := by
  cases h with
  | same hqueue => rw [hqueue]
  | take hdequeue => rw [(FrameQueue.dequeue_eq hdequeue).2]
  | put hat henqueue => rw [(FrameQueue.enqueue_eq henqueue).2]

/-- A queue that gets longer has taken the frame that the callback stores. -/
theorem put_of_lt (h : CaptureStep storing q q' storing') (hlonger : q.len < q'.len) :
    ∃ f, storing = some (f, .enqueue) ∧ q.enqueue f = .ok q' ∧ storing' = some (f, .generation q.isEmpty) := by
  cases h with
  | same hqueue =>
    rw [hqueue] at hlonger
    exact absurd hlonger (Nat.lt_irrefl _)
  | take hdequeue =>
    rw [FrameQueue.len, FrameQueue.len, (FrameQueue.dequeue_eq hdequeue).1] at hlonger
    exact absurd hlonger (Nat.not_lt.mpr (Nat.le_succ _))
  | put hat henqueue hnext => exact ⟨_, hat, henqueue, hnext⟩

end CaptureStep

section
variable (d : Device) (t : ThreadId) (choice : Choice)

theorem enqueueExistingCaptureFrame_capture (f : Frame) (pc : StorePc) :
    CaptureStep (some (f, pc)) d.capture.queue (enqueueExistingCaptureFrame d t f pc).1.capture.queue
      ((enqueueExistingCaptureFrame d t f pc).2.on (fun pc => some (f, pc)) none) := by
  cases pc with
  | enqueue =>
    simp only [enqueueExistingCaptureFrame]
    split
    · exact .same rfl
    · rename_i henqueue
      exact .put rfl henqueue rfl
  | generation wasEmpty => exact .same rfl
  | claim pc => exact .same rfl

theorem dequeueCaptureFrame_capture {storing storing' : Option (Frame × StorePc)} (pc : TakePc) :
    CaptureStep storing d.capture.queue (dequeueCaptureFrame d pc).1.capture.queue storing' := by
  cases pc with
  | dequeue =>
    simp only [dequeueCaptureFrame]
    split
    · exact .same rfl
    · rename_i hdequeue
      exact .take hdequeue
  | generation f => exact .same rfl

theorem requeueCaptureFrameAndScheduleWait_capture (f : Frame) (gen : Word) (pc : RequeuePc) :
    CaptureStep (pc.storing f) d.capture.queue (requeueCaptureFrameAndScheduleWait d t f gen pc).1.capture.queue
      ((requeueCaptureFrameAndScheduleWait d t f gen pc).2.on (RequeuePc.storing f) none) := by
  cases pc with
  | lease =>
    simp only [requeueCaptureFrameAndScheduleWait]
    split <;> exact .same rfl
  | store pc => exact (enqueueExistingCaptureFrame_capture d t f pc).call fun _ => rfl
  | lifecycle | owner | drop => exact .same rfl

theorem completeCapturedFrameToRead_capture (r : Read) (f : Frame) :
    (completeCapturedFrameToRead d r f choice).1.capture = d.capture := by
  obtain ⟨_, _, hframe⟩ := completeCapturedFrameToRead_frame d choice r f
  rw [hframe]

theorem evtIoRead_capture (r : Read) (pc : ReadPc) :
    CaptureStep (Thread.read r pc).storing d.capture.queue (evtIoRead d t r choice pc).1.capture.queue
      ((evtIoRead d t r choice pc).2.on (fun pc => (Thread.read r pc).storing) none) := by
  cases pc with
  | poll gen pc | take gen pc => exact dequeueCaptureFrame_capture d pc
  | requeue gen f status pc => exact (requeueCaptureFrameAndScheduleWait_capture d t f gen pc).call fun _ => rfl
  | deliver gen f => exact .same (congrArg (·.queue) (completeCapturedFrameToRead_capture d choice r f))
  | lease | tryAdmit gen | forward =>
    simp only [evtIoRead]
    split <;> exact .same rfl
  | _ => exact .same rfl

theorem drainReads_capture (pc : DrainPc) :
    CaptureStep (Thread.worker (.drain pc)).storing d.capture.queue (drainReads d t choice pc).1.capture.queue
      ((drainReads d t choice pc).2.on (fun pc => (Thread.worker (.drain pc)).storing) none) := by
  cases pc with
  | take gen r pc => exact dequeueCaptureFrame_capture d pc
  | requeue gen r f status pc => exact (requeueCaptureFrameAndScheduleWait_capture d t f gen pc).call fun _ => rfl
  | deliver gen r f => exact .same (congrArg (·.queue) (completeCapturedFrameToRead_capture d choice r f))
  | retrieve gen =>
    simp only [drainReads, retrieveNextRequest]
    cases d.readQueue.waiting <;> exact .same rfl
  | lease | forward r =>
    simp only [drainReads]
    split <;> exact .same rfl
  | _ => exact .same rfl

theorem evtReadCompletionWorkItem_capture (pc : WorkPc) :
    CaptureStep (Thread.worker pc).storing d.capture.queue (evtReadCompletionWorkItem d t choice pc).1.capture.queue
      ((evtReadCompletionWorkItem d t choice pc).2.on (fun pc => (Thread.worker pc).storing) none) := by
  cases pc with
  | wait pc => exact .same rfl
  | drain pc => exact (drainReads_capture d t choice pc).call fun _ => rfl

theorem capturePacket_capture (passive : Bool) (gen : Word) (f : Frame) (pc : PacketPc) :
    CaptureStep (pc.storing f) d.capture.queue (capturePacket d t passive gen f choice pc).1.capture.queue
      ((capturePacket d t passive gen f choice pc).2.on (PacketPc.storing f) none) := by
  cases pc with
  | lockDirect =>
    simp only [capturePacket]
    split <;> exact .same rfl
  | retrieve =>
    simp only [capturePacket, retrieveNextRequest]
    cases d.readQueue.waiting <;> exact .same rfl
  | complete r =>
    simp only [capturePacket]
    split
    · exact .same (congrArg (·.queue) (completeCapturedFrameToRead_capture d choice r f))
    · exact .same rfl
  | store adaptive pc => exact (enqueueExistingCaptureFrame_capture d t f pc).call fun _ => rfl
  | _ => exact .same rfl

theorem advanceTransmit_capture (passive : Bool) (pc : TxPc) :
    CaptureStep (Thread.transmit passive pc).storing d.capture.queue
      (advanceTransmit d t passive choice pc).1.capture.queue
      ((advanceTransmit d t passive choice pc).2.on (fun pc => (Thread.transmit passive pc).storing) none) := by
  cases pc with
  | lease =>
    simp only [advanceTransmit]
    split <;> exact .same rfl
  | packet gen captured f pc => exact (capturePacket_capture d t choice passive gen f pc).call fun _ => rfl
  | _ => exact .same rfl

end

theorem stepThread_capture {d : Device} {t : ThreadId} {choice : Choice} {th : Thread} {next : Device × Thread}
    (hk : th.kind ∉ [.cleanup, .d0Entry, .d0Exit]) (hstep : stepThread d t choice th = some next) :
    CaptureStep th.storing d.capture.queue next.1.capture.queue next.2.storing := by
  by_cases hmoves : th.kind ∈ [.read, .transmit, .worker]
  · cases th <;> simp [Thread.kind] at hmoves
    case read r pc =>
      cases hstep
      exact (evtIoRead_capture d t choice r pc).settle
    case transmit passive pc =>
      cases hstep
      exact (advanceTransmit_capture d t choice passive pc).settle
    case worker pc =>
      cases hstep
      exact (evtReadCompletionWorkItem_capture d t choice pc).settle
  · exact .same ((stepThread_frames hstep).captureQueue (by simp_all))

end WinTap

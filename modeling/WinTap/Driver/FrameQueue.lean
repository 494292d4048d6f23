import Mathlib.Algebra.Order.BigOperators.Group.List
import Mathlib.Algebra.Order.Ring.Nat
import Mathlib.Algebra.Module.NatInt

/-!
# The frame queue

The bounded queue that the injection and the capture direction have one of each. The source keeps the
frames in a ring with a head index, a length and a byte count; the queue is written here as the list of
the frames from the head on, so the length and the byte count are those of the list.

A frame carries a serial number. It is history: the driver never reads it, and it tells two frames with
the same bytes apart.
-/

namespace WinTap

variable {q q' : FrameQueue} {f : Frame}

def frameMinimum : Nat := 14
def frameMaximum : Nat := 65535
def frameQueueLimit : Nat := 256

/-- A captured or injected frame: which one it is, and how many bytes it has. -/
structure Frame where
  serial : Nat
  length : Nat
  deriving DecidableEq, Repr

inductive QueueError where
  | invalidFrameLength
  | full
  | closed
  | insufficientResources
  deriving DecidableEq, Repr

inductive QueueState where
  | opened
  | closing
  | closed
  deriving DecidableEq, Repr

structure FrameQueue where
  frames : List Frame
  limit : Nat
  byteLimit : Nat
  state : QueueState
  deriving DecidableEq, Repr

namespace FrameQueue

def tryNew (limit byteLimit : Nat) : FrameQueue where
  frames := []
  limit := limit
  byteLimit := byteLimit
  state := .opened

def len (q : FrameQueue) : Nat := q.frames.length

def bytes (q : FrameQueue) : Nat := (q.frames.map Frame.length).sum

def isEmpty (q : FrameQueue) : Bool := q.frames.isEmpty

def checkCapacity (q : FrameQueue) (frameLength : Nat) : Except QueueError Unit :=
  if q.state ≠ .opened then .error .closed
  else if q.byteLimit < q.bytes then .error .full
  else if q.limit ≤ q.len ∨ q.byteLimit - q.bytes < frameLength then .error .full
  else .ok ()

/-- A frame that is refused leaves the queue as it was. -/
def enqueue (q : FrameQueue) (f : Frame) : Except QueueError FrameQueue :=
  match q.checkCapacity f.length with
  | .error e => .error e
  | .ok () => .ok { q with frames := q.frames ++ [f] }

def dequeue (q : FrameQueue) : Option (Frame × FrameQueue) :=
  match q.frames with
  | [] => none
  | f :: rest => some (f, { q with frames := rest })

def beginClose (q : FrameQueue) : FrameQueue :=
  if q.state = .opened then { q with state := .closing } else q

def close (q : FrameQueue) : FrameQueue := { q with frames := [], state := .closed }

def reopen (q : FrameQueue) : FrameQueue := { q with frames := [], state := .opened }

@[simp] theorem close_state (q : FrameQueue) : q.close.state = .closed := rfl
@[simp] theorem close_frames (q : FrameQueue) : q.close.frames = [] := rfl
@[simp] theorem reopen_state (q : FrameQueue) : q.reopen.state = .opened := rfl
@[simp] theorem reopen_frames (q : FrameQueue) : q.reopen.frames = [] := rfl

/-- An accepted frame goes to the end of an open queue and nothing else changes. -/
theorem enqueue_eq (h : q.enqueue f = .ok q') : q.state = .opened ∧ q' = { q with frames := q.frames ++ [f] } := by
  unfold enqueue at h
  split at h
  · cases h
  · rename_i hcap
    refine ⟨?_, (Except.ok.inj h).symm⟩
    by_contra hstate
    rw [checkCapacity, if_pos hstate] at hcap
    cases hcap

theorem dequeue_eq (h : q.dequeue = some (f, q')) :
    q.frames = f :: q'.frames ∧ q' = { q with frames := q'.frames } := by
  unfold dequeue at h
  split at h
  · cases h
  · rename_i rest hframes
    cases h
    exact ⟨hframes, rfl⟩

theorem enqueue_ok (hstate : q.state = .opened) (hlen : q.len < q.limit) (hbytes : q.bytes + f.length ≤ q.byteLimit) :
    q.enqueue f = .ok { q with frames := q.frames ++ [f] } := by
  have hcap : q.checkCapacity f.length = .ok () := by
    rw [checkCapacity, if_neg (not_not.mpr hstate), if_neg (by omega), if_neg (by omega)]
  rw [enqueue, hcap]

end FrameQueue

end WinTap

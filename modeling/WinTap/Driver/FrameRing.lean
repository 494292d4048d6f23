import WinTap.Driver.FrameQueue

/-!
# The ring behind the frame queue

`FrameQueue` as the source stores it: a boxed slice of `MaybeUninit` slots, the index of the first frame, the number
of frames and their bytes. A slot is `some` while it holds a frame that nobody has moved out. What the language or the
machine would not allow is a `Fault`: an index outside the slice, a remainder by zero, an addition or a subtraction
that leaves `usize`, a read of a slot that holds no frame, and a write over a frame, which would never be released.
-/

namespace WinTap

def usizeBits : Nat := 64
def usizeLimit : Nat := 2 ^ usizeBits

/-- `size_of::<Frame>()`: a memory handle and a pointer. -/
def frameSize : Nat := 16

inductive Fault where
  | outOfBounds
  | divisionByZero
  | overflow
  | underflow
  | uninitialized
  | overwritten
  /-- A loop that does not end. -/
  | diverged
  deriving DecidableEq, Repr

def addUsize (a b : Nat) : Except Fault Nat := if a + b < usizeLimit then .ok (a + b) else .error .overflow

def subUsize (a b : Nat) : Except Fault Nat := if b ≤ a then .ok (a - b) else .error .underflow

def remUsize (a b : Nat) : Except Fault Nat := if b = 0 then .error .divisionByZero else .ok (a % b)

structure FrameRing where
  frames : List (Option Frame)
  head : Nat
  length : Nat
  limit : Nat
  byteLimit : Nat
  bytes : Nat
  state : QueueState
  deriving DecidableEq, Repr

namespace FrameRing

/-- `MaybeUninit::write`. -/
def writeSlot (frames : List (Option Frame)) (index : Nat) (frame : Frame) :
    Except Fault (List (Option Frame)) :=
  match frames[index]? with
  | none => .error .outOfBounds
  | some (some _) => .error .overwritten
  | some none => .ok (frames.set index (some frame))

/-- `MaybeUninit::assume_init_read`, which moves the frame out of the slot. -/
def assumeInitRead (frames : List (Option Frame)) (index : Nat) :
    Except Fault (Frame × List (Option Frame)) :=
  match frames[index]? with
  | none => .error .outOfBounds
  | some none => .error .uninitialized
  | some (some frame) => .ok (frame, frames.set index none)

/-- The slice is allocated when its size is one that a slice may have and the pool has room. -/
def tryNew (limit byteLimit : Nat) (allocated : Bool) : Except QueueError FrameRing :=
  if limit * frameSize < 2 ^ (usizeBits - 1) ∧ allocated then
    .ok { frames := List.replicate limit none, head := 0, length := 0, limit := limit, byteLimit := byteLimit
          bytes := 0, state := .opened }
  else .error .insufficientResources

def checkCapacity (q : FrameRing) (frameLength : Nat) : Except QueueError Unit :=
  if q.state ≠ .opened then .error .closed
  else if q.byteLimit < q.bytes then .error .full
  else if q.limit ≤ q.length ∨ q.byteLimit - q.bytes < frameLength then .error .full
  else .ok ()

def enqueue (q : FrameRing) (frame : Frame) : Except Fault (Except QueueError Unit × FrameRing) := do
  if q.state ≠ .opened then return (.error .closed, q)
  match q.checkCapacity frame.length with
  | .error e => return (.error e, q)
  | .ok () =>
    let index ← remUsize (← addUsize q.head q.length) q.limit
    let frames ← writeSlot q.frames index frame
    let length ← addUsize q.length 1
    let bytes ← addUsize q.bytes frame.length
    return (.ok (), { q with frames := frames, length := length, bytes := bytes })

def dequeue (q : FrameRing) : Except Fault (Option Frame × FrameRing) := do
  if q.length = 0 then return (none, q)
  let (frame, frames) ← assumeInitRead q.frames q.head
  let head ← remUsize (← addUsize q.head 1) q.limit
  let length ← subUsize q.length 1
  let bytes ← subUsize q.bytes frame.length
  return (some frame, { q with frames := frames, head := head, length := length, bytes := bytes })

def beginClose (q : FrameRing) : FrameRing :=
  if q.state = .opened then { q with state := .closing } else q

/-- `while self.dequeue().is_some() {}`, with the frames it releases. -/
def clearLoop : Nat → FrameRing → Except Fault (List Frame × FrameRing)
  | 0, _ => .error .diverged
  | rounds + 1, q => do
    match ← q.dequeue with
    | (none, q) => return ([], q)
    | (some frame, q) =>
      let (released, q) ← clearLoop rounds q
      return (frame :: released, q)

def clearFrames (q : FrameRing) : Except Fault (List Frame × FrameRing) := q.clearLoop (q.length + 1)

def close (q : FrameRing) : Except Fault (List Frame × FrameRing) := do
  let (released, q) ← q.clearFrames
  return (released, { q with state := .closed })

def reopen (q : FrameRing) : Except Fault (List Frame × FrameRing) := do
  let (released, q) ← q.clearFrames
  return (released, { q with state := .opened })

def drop (q : FrameRing) : Except Fault (List Frame) := do
  let (released, _) ← q.clearFrames
  return released

end FrameRing

/-! ### Sequences of operations -/

inductive QueueOp where
  | enqueue (frame : Frame)
  | checkCapacity (frameLength : Nat)
  | dequeue
  | beginClose
  | close
  | reopen
  deriving DecidableEq, Repr

/-- What an operation answers, and the frames it drops. -/
inductive QueueReply where
  | result (r : Except QueueError Unit)
  | frame (f : Option Frame)
  | released (frames : List Frame)
  deriving Repr

def FrameRing.apply (q : FrameRing) : QueueOp → Except Fault (QueueReply × FrameRing)
  | .enqueue frame => (q.enqueue frame).map fun (r, q) => (.result r, q)
  | .checkCapacity frameLength => .ok (.result (q.checkCapacity frameLength), q)
  | .dequeue => q.dequeue.map fun (f, q) => (.frame f, q)
  | .beginClose => .ok (.released [], q.beginClose)
  | .close => q.close.map fun (frames, q) => (.released frames, q)
  | .reopen => q.reopen.map fun (frames, q) => (.released frames, q)

def FrameRing.run : FrameRing → List QueueOp → Except Fault (List QueueReply × FrameRing)
  | q, [] => .ok ([], q)
  | q, op :: ops => do
    let (reply, q) ← q.apply op
    let (replies, q) ← q.run ops
    return (reply :: replies, q)

/-- The same operations on the list of frames. -/
def FrameQueue.apply (q : FrameQueue) : QueueOp → QueueReply × FrameQueue
  | .enqueue frame => match q.enqueue frame with
    | .ok q' => (.result (.ok ()), q')
    | .error e => (.result (.error e), q)
  | .checkCapacity frameLength => (.result (q.checkCapacity frameLength), q)
  | .dequeue => match q.dequeue with
    | none => (.frame none, q)
    | some (f, q') => (.frame (some f), q')
  | .beginClose => (.released [], q.beginClose)
  | .close => (.released q.frames, q.close)
  | .reopen => (.released q.frames, q.reopen)

def FrameQueue.run : FrameQueue → List QueueOp → List QueueReply × FrameQueue
  | q, [] => ([], q)
  | q, op :: ops =>
    let (reply, q) := q.apply op
    let (replies, q) := q.run ops
    (reply :: replies, q)

/-- The frame that an operation put into the queue. -/
def QueueOp.accepted : QueueOp → QueueReply → List Frame
  | .enqueue frame, .result (.ok ()) => [frame]
  | _, _ => []

/-- The frames that an operation took out: the one it handed to its caller, or those it dropped. -/
def QueueReply.removed : QueueReply → List Frame
  | .result _ => []
  | .frame f => f.toList
  | .released frames => frames

def acceptedFrames (ops : List QueueOp) (replies : List QueueReply) : List Frame :=
  (List.zipWith QueueOp.accepted ops replies).flatten

def removedFrames (replies : List QueueReply) : List Frame := replies.flatMap QueueReply.removed

end WinTap

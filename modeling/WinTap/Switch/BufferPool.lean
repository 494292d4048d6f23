import Mathlib.Algebra.Group.Nat.Defs
import Mathlib.Data.List.Basic

/-!
# The buffer pool

The slots of the buffers that the switch has registered with its I/O ring. A read takes a free slot and gets a
generation; the completion of that read names both, and every later operation on the slot has to name them. Generations
count up to the width that a completion identity has room for.

An operation returns its result with the pool it leaves, and an early return leaves the pool as far as it was changed.
-/

namespace WinTap.SwitchCore

/-- `u32::MAX`. -/
def generationLimit : Nat := 2 ^ 32 - 1

inductive SlotState where
  | free
  | readPending
  | dispatching
  | writePending (remaining : Nat)
  deriving DecidableEq, Repr

structure SlotCompletion where
  slot : Nat
  generation : Nat
  deriving DecidableEq, Repr

inductive SlotError where
  | invalidSlot
  | notFree
  | staleCompletion
  | invalidTransition
  | generationExhausted
  | allocationFailed
  deriving DecidableEq, Repr

structure BufferSlot where
  generation : Nat
  state : SlotState
  deriving DecidableEq, Repr

structure BufferPool where
  slots : List BufferSlot
  deriving DecidableEq, Repr

namespace BufferPool

def tryNew (count : Nat) (allocated : Bool) : Except SlotError BufferPool :=
  if allocated then .ok ⟨List.replicate count ⟨0, .free⟩⟩ else .error .allocationFailed

def setSlot (p : BufferPool) (i : Nat) (slot : BufferSlot) : BufferPool := ⟨p.slots.set i slot⟩

def setState (p : BufferPool) (i : Nat) (slot : BufferSlot) (state : SlotState) : BufferPool :=
  p.setSlot i { slot with state := state }

def beginRead (p : BufferPool) (slot : Nat) : Except SlotError SlotCompletion × BufferPool :=
  match p.slots[slot]? with
  | none => (.error .invalidSlot, p)
  | some s =>
    if s.state ≠ .free then (.error .notFree, p)
    else if s.generation + 1 ≤ generationLimit then
      (.ok ⟨slot, s.generation + 1⟩, p.setSlot slot ⟨s.generation + 1, .readPending⟩)
    else (.error .generationExhausted, p)

/-- The slot that a completion names, when the completion is of its generation. -/
def current (p : BufferPool) (c : SlotCompletion) : Except SlotError BufferSlot :=
  match p.slots[c.slot]? with
  | none => .error .invalidSlot
  | some s => if s.generation ≠ c.generation then .error .staleCompletion else .ok s

/-- The operations on a current slot: the next state, or none where the state does not allow it. -/
def transition (p : BufferPool) (c : SlotCompletion) (next : SlotState → Option SlotState) :
    Except SlotError Unit × BufferPool :=
  match p.current c with
  | .error e => (.error e, p)
  | .ok s => match next s.state with
    | none => (.error .invalidTransition, p)
    | some state => (.ok (), p.setState c.slot s state)

def beginDispatch (p : BufferPool) (c : SlotCompletion) : Except SlotError Unit × BufferPool :=
  p.transition c fun state => if state ≠ .readPending then none else some .dispatching

def beginWrites (p : BufferPool) (c : SlotCompletion) (count : Nat) : Except SlotError Unit × BufferPool :=
  p.transition c fun state => if state ≠ .dispatching ∨ count = 0 then none else some (.writePending count)

def completeDispatch (p : BufferPool) (c : SlotCompletion) : Except SlotError Unit × BufferPool :=
  p.transition c fun state => if state ≠ .dispatching then none else some .free

def completeWrite (p : BufferPool) (c : SlotCompletion) : Except SlotError Unit × BufferPool :=
  p.transition c fun state => match state with
    | .writePending remaining =>
      if 1 < remaining then some (.writePending (remaining - 1))
      else if remaining = 1 then some .free
      else none
    | _ => none

def cancel (p : BufferPool) (c : SlotCompletion) : Except SlotError Unit × BufferPool :=
  p.transition c fun state => if state = .free then none else some .free

end BufferPool

/-! ### Sequences of operations -/

inductive PoolOp where
  | beginRead (slot : Nat)
  | beginDispatch (c : SlotCompletion)
  | beginWrites (c : SlotCompletion) (count : Nat)
  | completeDispatch (c : SlotCompletion)
  | completeWrite (c : SlotCompletion)
  | cancel (c : SlotCompletion)
  deriving DecidableEq, Repr

/-- The slot that an operation is about. -/
def PoolOp.slot : PoolOp → Nat
  | .beginRead slot => slot
  | .beginDispatch c | .beginWrites c _ | .completeDispatch c | .completeWrite c | .cancel c => c.slot

/-- The completion that an operation names. -/
def PoolOp.completion : PoolOp → Option SlotCompletion
  | .beginRead _ => none
  | .beginDispatch c | .beginWrites c _ | .completeDispatch c | .completeWrite c | .cancel c => some c

/-- What an operation answers: a read its completion, the others nothing. -/
abbrev PoolReply := Except SlotError (Option SlotCompletion)

def BufferPool.apply (p : BufferPool) : PoolOp → PoolReply × BufferPool
  | .beginRead slot => ((p.beginRead slot).1.map some, (p.beginRead slot).2)
  | .beginDispatch c => ((p.beginDispatch c).1.map fun _ => none, (p.beginDispatch c).2)
  | .beginWrites c count => ((p.beginWrites c count).1.map fun _ => none, (p.beginWrites c count).2)
  | .completeDispatch c => ((p.completeDispatch c).1.map fun _ => none, (p.completeDispatch c).2)
  | .completeWrite c => ((p.completeWrite c).1.map fun _ => none, (p.completeWrite c).2)
  | .cancel c => ((p.cancel c).1.map fun _ => none, (p.cancel c).2)

/-- The operations of a run with their answers, and the pool it leaves. -/
def BufferPool.run : BufferPool → List PoolOp → List (PoolOp × PoolReply) × BufferPool
  | p, [] => ([], p)
  | p, op :: ops =>
    let (reply, p) := p.apply op
    let (trace, p) := p.run ops
    ((op, reply) :: trace, p)

end WinTap.SwitchCore

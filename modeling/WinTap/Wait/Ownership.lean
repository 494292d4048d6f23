import WinTap.Wait.Protocol

/-!
# Who owns a wait

The purpose of the protocol, without its words and loops: at every moment one party is responsible for
the record, and at most one party will complete each request. A thread's `Stage` says what it is
responsible for, a `View` is what the stages talk about, and a `Move` is one thing a party may do. The
protocol of the source performs these moves and no others.

Two stages hold a request and are not responsible for the record: `dispatched` and `completing`. The
callback of a cancelled request is `cancelling` until it learns who completes.
-/

namespace WinTap

/-- `WAIT_*`, as an enumeration. -/
inductive RecordState where
  | free
  | registering
  | pending
  | scheduled
  | unmarking
  | teardown
  | cancelled
  deriving DecidableEq, Repr

/-- The byte the source uses for a state. -/
def RecordState.code : RecordState → BitVec 8
  | .free => waitFree
  | .registering => waitRegistering
  | .pending => waitPending
  | .scheduled => waitScheduled
  | .unmarking => waitUnmarking
  | .teardown => waitTeardown
  | .cancelled => waitCancelled

/-- The shared state ownership depends on. -/
structure View where
  state : RecordState
  slot : Option Request
  handoff : Handoff
  cancel : Request → CancelState
  completions : Request → Nat
  unmarks : Request → Nat
  /-- No request was unmarked after it was completed. -/
  orderly : Prop

/-- The next field a retiring party clears. -/
inductive FinishStage where
  | handoff
  | slot
  | record
  deriving DecidableEq, Repr

/-- What a thread is responsible for. -/
inductive Stage where
  | none
  /-- Registration holds the request and has no record. -/
  | dispatched (r : Request)
  /-- Registration claimed the record and has not published the request. -/
  | begun (r : Request)
  /-- Registration published the request and has not marked it. -/
  | published (r : Request)
  /-- Registration marked the request and is about to make it pending. -/
  | marked (r : Request)
  /-- Registration found its record torn down and is about to unmark. -/
  | torn (r : Request)
  /-- The exclusive owner of the unmark, before and after it read the slot. -/
  | unmarking (r : Option Request)
  /-- The unmark returned that the request was cancelled. -/
  | swapping (r : Request)
  /-- Retiring the record, and then completing the request or not. -/
  | finishing (r : Request) (next : FinishStage) (completes : Bool)
  /-- About to complete a request that nobody else will. -/
  | completing (r : Request)
  /-- The cancellation callback, before its race is decided; `handing` once it saw the unmark. -/
  | cancelling (r : Request) (handing : Bool)
  /-- On a branch the protocol never takes. -/
  | lost
  deriving DecidableEq, Repr

namespace Stage

/-- The party responsible for the record. -/
def owns : Stage → Bool
  | .begun _ | .published _ | .marked _ | .torn _ | .unmarking _ | .swapping _ | .finishing .. => true
  | _ => false

/-- The request the party will complete, whatever the others do. -/
def duty : Stage → Option Request
  | .dispatched r | .begun r | .published r | .completing r | .finishing r _ true => some r
  | _ => Option.none

/-- The request whose cancellation callback the party runs, undecided. -/
def undecided : Stage → Option Request
  | .cancelling r _ => some r
  | _ => Option.none

def retiring : Stage → Bool
  | .finishing .. => true
  | _ => false

end Stage

namespace View

/-- Nothing dispatched yet. -/
def initial : View where
  state := .free
  slot := none
  handoff := .none
  cancel := fun _ => .absent
  completions := fun _ => 0
  unmarks := fun _ => 0
  orderly := True

def setCancel (v : View) (r : Request) (state : CancelState) : View :=
  { v with cancel := Function.update v.cancel r state }

def complete (v : View) (r : Request) : View :=
  { v with completions := Function.update v.completions r (v.completions r + 1) }

def unmark (v : View) (r : Request) : View :=
  { v with
    unmarks := Function.update v.unmarks r (v.unmarks r + 1)
    orderly := v.completions r = 0 ∧ v.orderly }

section
variable (v : View) (r q : Request) (state : CancelState)

@[simp, grind =] theorem setCancel_state : (v.setCancel r state).state = v.state := rfl
@[simp, grind =] theorem setCancel_slot : (v.setCancel r state).slot = v.slot := rfl
@[simp, grind =] theorem setCancel_handoff : (v.setCancel r state).handoff = v.handoff := rfl
@[simp, grind =] theorem setCancel_completions : (v.setCancel r state).completions q = v.completions q := rfl
@[simp, grind =] theorem setCancel_unmarks : (v.setCancel r state).unmarks q = v.unmarks q := rfl

@[simp, grind =] theorem setCancel_orderly : (v.setCancel r state).orderly = v.orderly := rfl

@[simp, grind =] theorem setCancel_cancel :
    (v.setCancel r state).cancel q = if q = r then state else v.cancel q := by
  simp only [setCancel, Function.update_apply]

@[simp, grind =] theorem complete_state : (v.complete r).state = v.state := rfl
@[simp, grind =] theorem complete_slot : (v.complete r).slot = v.slot := rfl
@[simp, grind =] theorem complete_handoff : (v.complete r).handoff = v.handoff := rfl
@[simp, grind =] theorem complete_cancel : (v.complete r).cancel q = v.cancel q := rfl
@[simp, grind =] theorem complete_unmarks : (v.complete r).unmarks q = v.unmarks q := rfl

@[simp, grind =] theorem complete_orderly : (v.complete r).orderly = v.orderly := rfl

@[simp, grind =] theorem complete_completions :
    (v.complete r).completions q = if q = r then v.completions r + 1 else v.completions q := by
  simp only [complete, Function.update_apply]

@[simp, grind =] theorem unmark_state : (v.unmark r).state = v.state := rfl
@[simp, grind =] theorem unmark_slot : (v.unmark r).slot = v.slot := rfl
@[simp, grind =] theorem unmark_handoff : (v.unmark r).handoff = v.handoff := rfl
@[simp, grind =] theorem unmark_cancel : (v.unmark r).cancel q = v.cancel q := rfl
@[simp, grind =] theorem unmark_completions : (v.unmark r).completions q = v.completions q := rfl

@[simp, grind =] theorem unmark_orderly : (v.unmark r).orderly = (v.completions r = 0 ∧ v.orderly) := rfl

@[simp, grind =] theorem unmark_unmarks :
    (v.unmark r).unmarks q = if q = r then v.unmarks r + 1 else v.unmarks q := by
  simp only [unmark, Function.update_apply]

end

end View

/-- The moves of the parties: the view and the mover's stage, before and after. -/
inductive Move : View → Stage → View → Stage → Prop
  | keep (v : View) (x : Stage) : Move v x v x
  -- The framework.
  | dispatch (v : View) (r : Request) : v.cancel r = .absent →
      Move v .none (v.setCancel r .unmarked) (.dispatched r)
  | owe (v : View) (x : Stage) (r : Request) : v.cancel r = .marked → Move v x (v.setCancel r .owed) x
  | arrive (v : View) (r : Request) : v.cancel r = .owed →
      Move v .none (v.setCancel r .called) (.cancelling r false)
  -- Registration.
  | reject (v : View) (r : Request) : Move v (.dispatched r) v (.completing r)
  | begin (v : View) (r : Request) : v.state = .free →
      Move v (.dispatched r) { v with state := .registering } (.begun r)
  | publish (v : View) (r : Request) : v.slot = Option.none →
      Move v (.begun r) { v with slot := some r } (.published r)
  | resetHandoff (v : View) (r : Request) :
      Move v (.published r) { v with handoff := .none } (.published r)
  | abandon (v : View) (r : Request) : Move v (.published r) v (.finishing r .handoff true)
  | mark (v : View) (r : Request) : Move v (.published r) (v.setCancel r .marked) (.marked r)
  | markFailed (v : View) (r : Request) :
      Move v (.published r) (v.setCancel r .cleared) (.finishing r .handoff true)
  | pend (v : View) (r : Request) : v.state = .registering →
      Move v (.marked r) { v with state := .pending } .none
  | sawTeardown (v : View) (r : Request) : v.state = .teardown → Move v (.marked r) v (.torn r)
  | sawCancelled (v : View) (x : Stage) (r : Request) : x = .marked r ∨ x = .torn r →
      v.state = .cancelled → Move v x v (.finishing r .handoff false)
  | resolveTorn (v : View) (r : Request) : v.state = .teardown →
      Move v (.torn r) { v with state := .unmarking } (.unmarking (some r))
  -- Teardown, the worker and claims.
  | tear (v : View) : v.state = .registering → Move v .none { v with state := .teardown } .none
  | schedule (v : View) : v.state = .pending ∨ v.state = .scheduled →
      Move v .none { v with state := .scheduled } .none
  | take (v : View) : v.state = .pending ∨ v.state = .scheduled →
      Move v .none { v with state := .unmarking } (.unmarking Option.none)
  | readSlot (v : View) (r : Request) : v.slot = some r →
      Move v (.unmarking Option.none) v (.unmarking (some r))
  -- The unmark and its handoff.
  | unmarked (v : View) (r : Request) : v.cancel r = .marked →
      Move v (.unmarking (some r)) ((v.setCancel r .cleared).unmark r) (.finishing r .handoff true)
  | unmarkLate (v : View) (r : Request) : v.cancel r = .owed ∨ v.cancel r = .called →
      Move v (.unmarking (some r)) (v.unmark r) (.swapping r)
  | swapArrived (v : View) (r : Request) : v.handoff = .cancelArrived →
      Move v (.swapping r) { v with handoff := .unmarkCancelled } (.finishing r .handoff true)
  | swapLeave (v : View) (r : Request) : v.handoff ≠ .cancelArrived →
      Move v (.swapping r) { v with handoff := .unmarkCancelled } .none
  -- Retiring and completing.
  | clearHandoff (v : View) (r : Request) (completes : Bool) :
      Move v (.finishing r .handoff completes) { v with handoff := .none } (.finishing r .slot completes)
  | clearSlot (v : View) (r : Request) (completes : Bool) :
      Move v (.finishing r .slot completes) { v with slot := Option.none } (.finishing r .record completes)
  | retire (v : View) (r : Request) :
      Move v (.finishing r .record true) { v with state := .free } (.completing r)
  | retireOnly (v : View) (r : Request) :
      Move v (.finishing r .record false) { v with state := .free } .none
  | complete (v : View) (r : Request) : Move v (.completing r) (v.complete r) .none
  -- The cancellation callback.
  | cancelSees (v : View) (r : Request) : v.state = .unmarking →
      Move v (.cancelling r false) v (.cancelling r true)
  | cancelRegistration (v : View) (r : Request) (handing : Bool) :
      v.state = .registering ∨ v.state = .teardown →
      Move v (.cancelling r handing) { v with state := .cancelled } (.completing r)
  | cancelPending (v : View) (r : Request) (handing : Bool) :
      v.state = .pending ∨ v.state = .scheduled →
      Move v (.cancelling r handing) { v with state := .cancelled } (.finishing r .handoff true)
  | cancelHanded (v : View) (r : Request) : v.handoff = .unmarkCancelled →
      Move v (.cancelling r true) { v with handoff := .cancelArrived } (.finishing r .handoff true)
  | cancelLeave (v : View) (r : Request) : v.handoff ≠ .unmarkCancelled →
      Move v (.cancelling r true) { v with handoff := .cancelArrived } .none

end WinTap

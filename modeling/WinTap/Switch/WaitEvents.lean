import WinTap.Switch.Process

/-!
# The event handles of the adaptive waits

`submit_adaptive_wait` keeps the wait of an endpoint with `get_or_insert(AdaptiveWait::new()?)`. The argument is
evaluated on every call, so every call creates an event. When the endpoint has a wait already, the new one is dropped,
and `AdaptiveWait` does not close its event when it is dropped: only the drop of an endpoint does. The events are
numbered in the order of their creation.
-/

namespace WinTap.SwitchRuntime

open Machine

abbrev Event := Nat

structure WaitEvents where
  /-- The number of events that `AdaptiveWait::new` has created. -/
  created : Nat
  /-- The event in the `adaptive_wait` of the first and of the second endpoint. -/
  first : Option Event
  second : Option Event
  /-- The events that were closed. -/
  closed : List Event
  deriving DecidableEq, Repr

namespace WaitEvents

/-- `get_or_insert`: the endpoint keeps the event it has. -/
def getOrInsert (stored : Option Event) (event : Event) : Option Event := some (stored.getD event)

/-- The events in the endpoints. -/
def stored (e : WaitEvents) : List Event := e.first.toList ++ e.second.toList

/-- The drop of the endpoints. -/
def dropEndpoints (e : WaitEvents) : WaitEvents :=
  { e with first := none, second := none, closed := e.closed ++ e.stored }

/-- What a step of the process does to the events. -/
def next (e : WaitEvents) (pc : Pc) (answer : Answer) (pc' : Pc) : WaitEvents :=
  match pc, answer with
  | .armFirst, .wait (.createFailed _) | .armSecond _, .wait (.createFailed _) => e
  | .armFirst, .wait _ => { e with created := e.created + 1, first := getOrInsert e.first e.created }
  | .armSecond _, .wait _ => { e with created := e.created + 1, second := getOrInsert e.second e.created }
  | .returned, _ => if pc' = .closed then e.dropEndpoints else e
  | _, _ => e

end WaitEvents

/-- The process with its events. -/
structure EventWorld where
  process : Process
  events : WaitEvents

def stepEventWorld (c : Config) (s : EventWorld) (answer : Answer) : Option EventWorld :=
  (stepProcess c s.process answer).map fun process =>
    ⟨process, s.events.next s.process.pc answer process.pc⟩

def eventSystem (c : Config) : System EventWorld Answer where
  init s := s = ⟨startProcess c, ⟨0, none, none, []⟩⟩
  step := stepEventWorld c

abbrev EventReach (c : Config) (ok : EventWorld → Answer → Prop) : EventWorld → Prop := Reach (eventSystem c) ok

end WinTap.SwitchRuntime

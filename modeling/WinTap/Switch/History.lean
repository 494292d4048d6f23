import WinTap.Switch.Forwarding

/-!
# What a switch is for

A specification of the switch that has no table in it. What a call returns is determined by the calls
before it: by the source keys that were seen, in the order in which they were first seen, and by the
endpoint on which each of them was seen last.
-/

namespace WinTap.SwitchCore

/-- A call of `Switch::forward`. -/
structure Call where
  source : EndpointId
  frame : List UInt8
  deriving DecidableEq, Repr

namespace Switch

def call (switch : Switch) (call : Call) : Switch × Except ForwardingError (List EndpointId) :=
  switch.forward call.source call.frame

/-- The switch after a sequence of calls, oldest first. -/
def afterCalls (switch : Switch) (calls : List Call) : Switch :=
  calls.foldl (fun switch call => (switch.call call).1) switch

end Switch

/-- The key a frame is learned under. -/
def ParsedFrame.sourceKey (parsed : ParsedFrame) : FdbKey := ⟨parsed.source, parsed.vlan⟩

/-- The key a frame is looked up under. -/
def ParsedFrame.destinationKey (parsed : ParsedFrame) : FdbKey := ⟨parsed.destination, parsed.vlan⟩

/-- A group address, which the low bit of the first byte marks. -/
def isGroup (mac : MacAddress) : Bool := mac.get 0 &&& 1 ≠ 0

/-- An accepted call shows a source key on an endpoint; a refused call shows nothing. -/
def sighting (endpoints : List EndpointId) (call : Call) : Option (FdbKey × EndpointId) :=
  if call.source ∈ endpoints then
    match parseFrame call.frame with
    | .ok parsed => some (parsed.sourceKey, call.source)
    | .error _ => none
  else none

def sightings (endpoints : List EndpointId) (calls : List Call) : List (FdbKey × EndpointId) :=
  calls.filterMap (sighting endpoints)

/-- The first 4096 distinct keys of the accepted frames. -/
def admittedKeys (endpoints : List EndpointId) (calls : List Call) : List FdbKey :=
  BoundedTable.admitted fdbCapacity (sightings endpoints calls)

/-- The endpoint on which a key was last seen as a source. -/
def lastEndpoint (endpoints : List EndpointId) (calls : List Call) (key : FdbKey) : Option EndpointId :=
  BoundedTable.lastSeen (sightings endpoints calls) key

/-- A call of an unknown endpoint, or with a frame that does not parse. -/
def Refused (endpoints : List EndpointId) (call : Call) : Prop :=
  call.source ∉ endpoints ∨ ∃ error, parseFrame call.frame = .error error

/-- What a call must return, and what it must leave, after a sequence of calls to a fresh switch. The keys
count the call itself: a frame is learned before it is looked up. -/
structure ForwardSpec (endpoints : List EndpointId) (calls : List Call) (call : Call) (before after : Switch)
    (result : Except ForwardingError (List EndpointId)) : Prop where
  unknown : call.source ∉ endpoints → result = .error .unknownEndpoint
  invalid : call.source ∈ endpoints → ∀ error, parseFrame call.frame = .error error →
    result = .error (.invalidFrame error)
  refused : Refused endpoints call → after = before
  known : call.source ∈ endpoints → ∀ parsed, parseFrame call.frame = .ok parsed →
    isGroup parsed.destination = false →
    parsed.destinationKey ∈ admittedKeys endpoints (calls ++ [call]) →
    ∃ last, lastEndpoint endpoints (calls ++ [call]) parsed.destinationKey = some last ∧
      result = .ok (if last = call.source then [] else [last])
  flooded : call.source ∈ endpoints → ∀ parsed, parseFrame call.frame = .ok parsed →
    isGroup parsed.destination = true ∨
      parsed.destinationKey ∉ admittedKeys endpoints (calls ++ [call]) →
    result = .ok (endpoints.filter fun endpoint => endpoint ≠ call.source)

end WinTap.SwitchCore

import WinTap.Base.BoundedTable
import Mathlib.Data.List.Basic

/-!
# The learning switch

The pure core of the user-mode switch: parsing the header of an Ethernet frame, the forwarding database
that learns which endpoint a source address was seen on, and the choice of the recipients of a frame. The
database is a `HashMap` in the source; only its lookups, its insertions and its length are observed, so it
is a finite map here.
-/

namespace WinTap.SwitchCore

def frameMinimum : Nat := 14
def frameMaximum : Nat := 65535
def fdbCapacity : Nat := 4096

/-- `EndpointId`. -/
abbrev EndpointId := UInt32

abbrev MacAddress := Vector UInt8 6

structure FdbKey where
  mac : MacAddress
  vlan : Option UInt16
  deriving DecidableEq, Repr

inductive FrameClass where
  | unicast
  | broadcast
  | multicast
  deriving DecidableEq, Repr

structure ParsedFrame where
  source : MacAddress
  destination : MacAddress
  vlan : Option UInt16
  frameClass : FrameClass
  deriving DecidableEq, Repr

inductive FrameError where
  | invalidLength
  | invalidVlan
  deriving DecidableEq, Repr

/-! ### Parsing -/

/-- `u16::from_be_bytes`. -/
def fromBeBytes (high low : UInt8) : UInt16 := high.toUInt16 <<< 8 ||| low.toUInt16

/-- The EtherTypes of a customer and of a service VLAN tag. -/
def isVlanTag (etherType : UInt16) : Bool := etherType = 0x8100 || etherType = 0x88a8

def classify (destination : MacAddress) : FrameClass :=
  if destination = Vector.replicate 6 0xff then .broadcast
  else if destination[0] &&& 1 ≠ 0 then .multicast
  else .unicast

/-- `parse_frame`. -/
def parseFrame (frame : List UInt8) : Except FrameError ParsedFrame :=
  if h : frameMinimum ≤ frame.length ∧ frame.length ≤ frameMaximum then
    have hheader : 14 ≤ frame.length := h.1
    let destination : MacAddress := .ofFn fun i => frame[i.val]
    let source : MacAddress := .ofFn fun i => frame[i.val + 6]
    let parsed (vlan : Option UInt16) : ParsedFrame := ⟨source, destination, vlan, classify destination⟩
    if isVlanTag (fromBeBytes frame[12] frame[13]) then
      if htag : frame.length < 18 then .error .invalidVlan
      else .ok (parsed (some (fromBeBytes frame[14] frame[15] &&& 0x0fff)))
    else .ok (parsed none)
  else .error .invalidLength

/-! ### The forwarding database -/

inductive ForwardingError where
  | invalidFrame (error : FrameError)
  | unknownEndpoint
  deriving DecidableEq, Repr

structure ForwardingDatabase where
  entries : BoundedTable FdbKey EndpointId
  capacity : Nat

namespace ForwardingDatabase

def new : ForwardingDatabase where
  entries := ∅
  capacity := fdbCapacity

def learn (fdb : ForwardingDatabase) (parsed : ParsedFrame) (endpoint : EndpointId) : ForwardingDatabase :=
  let key : FdbKey := ⟨parsed.source, parsed.vlan⟩
  if key ∈ fdb.entries then { fdb with entries := fdb.entries.insert key endpoint }
  else if fdb.entries.len < fdb.capacity then { fdb with entries := fdb.entries.insert key endpoint }
  else fdb

def lookup (fdb : ForwardingDatabase) (parsed : ParsedFrame) : Option EndpointId :=
  fdb.entries.lookup ⟨parsed.destination, parsed.vlan⟩

def len (fdb : ForwardingDatabase) : Nat := fdb.entries.len

end ForwardingDatabase

/-! ### The switch -/

/-- The endpoints of a switch, in the order in which they were given. -/
structure EndpointSet where
  endpoints : List EndpointId
  nonempty : endpoints ≠ []

namespace EndpointSet

def fromIds (ids : List EndpointId) : Except ForwardingError EndpointSet :=
  if h : ids = [] then .error .unknownEndpoint else .ok ⟨ids, h⟩

def contains (set : EndpointSet) (endpoint : EndpointId) : Bool := endpoint ∈ set.endpoints

def peers (set : EndpointSet) (source : EndpointId) : List EndpointId :=
  set.endpoints.filter fun endpoint => endpoint ≠ source

end EndpointSet

structure Switch where
  endpoints : EndpointSet
  fdb : ForwardingDatabase

namespace Switch

def fromEndpoints (ids : List EndpointId) : Except ForwardingError Switch := do
  let endpoints ← EndpointSet.fromIds ids
  return { endpoints := endpoints, fdb := .new }

/-- The recipients of an accepted frame, once its source is learned. -/
def recipients (switch : Switch) (sourceEndpoint : EndpointId) (parsed : ParsedFrame) : List EndpointId :=
  let known := if parsed.frameClass = .unicast then switch.fdb.lookup parsed else none
  match known with
  | some destination =>
    if destination ≠ sourceEndpoint ∧ switch.endpoints.contains destination then [destination] else []
  | none => switch.endpoints.peers sourceEndpoint

/-- `Switch::forward`: the switch it leaves, and what it returns. -/
def forward (switch : Switch) (sourceEndpoint : EndpointId) (frame : List UInt8) :
    Switch × Except ForwardingError (List EndpointId) :=
  if switch.endpoints.contains sourceEndpoint then
    match parseFrame frame with
    | .error error => (switch, .error (.invalidFrame error))
    | .ok parsed =>
      let learned := { switch with fdb := switch.fdb.learn parsed sourceEndpoint }
      (learned, .ok (learned.recipients sourceEndpoint parsed))
  else (switch, .error .unknownEndpoint)

def fdbLen (switch : Switch) : Nat := switch.fdb.len

end Switch

end WinTap.SwitchCore

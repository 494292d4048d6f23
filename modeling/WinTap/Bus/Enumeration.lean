import WinTap.Bus.Manager

/-!
# Enumerating the children of the bus

A client enumerates the children with one request for each page: from cursor 0 through each `next_cursor` until it is 0
again. Between two pages any other request and any callback may run. The world of the bus is extended with the client
and with what is told about its enumeration afterwards: the records it got, and the children that were in the registry
from its first page on.
-/

namespace WinTap.Bus

/-- The children that an enumeration reports. -/
def listedChildren (children : List ChildNode) : List ChildNode :=
  children.filter fun node => node.lifecycle ≠ .absent

/-- The GUIDs in the order of the registry. -/
def BusState.guids (bus : BusState) : List Guid := bus.children.map ChildNode.guid

/-- The request with another cursor. -/
def ManagerCall.withCursor (call : ManagerCall) (cursor : BitVec 32) : ManagerCall :=
  { call with request.cursor := cursor }

/-- The number of records that fit into the output buffer. -/
def ManagerCall.capacity (call : ManagerCall) : Nat :=
  (call.outputLength - managerResponseHeaderSize) / managerRecordSize

/-- The responses to one enumeration of a registry that does not change, with the requests in their order: no result
if `fuel` pages do not end it. -/
def followCursors (bus : BusState) (calls : Nat → ManagerCall) :
    (fuel page : Nat) → BitVec 32 → Option (List ManagerResponse)
  | 0, _, _ => none
  | fuel + 1, page, cursor =>
    (managerEnumerate bus ((calls page).withCursor cursor)).response.bind fun response =>
      if response.nextCursor = 0 then some [response]
      else (followCursors bus calls fuel (page + 1) response.nextCursor).map (response :: ·)

/-! ### An enumeration of a registry that changes -/

/-- Where the client is: the cursor of its next page, unless it has the last one. -/
inductive Progress where
  | first
  | next (cursor : BitVec 32)
  | finished
  deriving DecidableEq, Repr

def Progress.cursor : Progress → Option (BitVec 32)
  | .first => some 0
  | .next cursor => some cursor
  | .finished => none

structure EnumerationWorld where
  world : BusWorld
  progress : Progress
  /-- The records of the pages so far. -/
  reported : List ManagerRecord
  /-- The children that have been in the registry since the first page. -/
  survivors : List Guid

inductive EnumerationAction where
  /-- Any step of the bus. -/
  | bus (a : BusAction)
  /-- The request in progress is the one of the client, and its page is read. -/
  | page (outcome : Outcome)
  deriving DecidableEq, Repr

namespace EnumerationWorld

/-- The page that the request in progress reads for the client. -/
def readPage (s : EnumerationWorld) (outcome : Outcome) : Option ManagerResponse :=
  match s.world.handler with
  | some ⟨call, .enumerate, _⟩ =>
    if outcome.acquired ∧ s.progress.cursor = some call.request.cursor then
      (managerEnumerate s.world.bus call).response
    else none
  | _ => none

/-- The children that still survive after a step of the bus. -/
def surviving (s : EnumerationWorld) (world : BusWorld) : List Guid :=
  s.survivors.filter fun guid => guid ∈ world.bus.guids

/-- The client has got a page. -/
def receive (s : EnumerationWorld) (world : BusWorld) (response : ManagerResponse) : EnumerationWorld where
  world := world
  progress := if response.nextCursor = 0 then .finished else .next response.nextCursor
  reported := s.reported ++ response.records
  survivors := if s.progress = .first then world.bus.guids else s.surviving world

end EnumerationWorld

def stepEnumeration (s : EnumerationWorld) : EnumerationAction → Option EnumerationWorld
  | .bus a => (stepBus s.world a).map fun world => { s with world := world, survivors := s.surviving world }
  | .page outcome =>
    (s.readPage outcome).bind fun response =>
      (stepBus s.world (.handle outcome)).map fun world => s.receive world response

/-- Any interleaving of one enumeration with requests and callbacks. -/
def enumerationSystem : Machine.System EnumerationWorld EnumerationAction where
  init s := busSystem.init s.world ∧ s.progress = .first ∧ s.reported = [] ∧ s.survivors = []
  step := stepEnumeration

abbrev EnumerationReach (ok : EnumerationWorld → EnumerationAction → Prop) : EnumerationWorld → Prop :=
  Machine.Reach enumerationSystem ok

end WinTap.Bus

import WinTap.Base.Machine
import WinTap.Bus.Registry

/-!
# The manager requests and the PnP callbacks

Manager requests are dispatched one at a time, but each one lets go of the bus lock around its child list
call, and the framework creates and cleans up PDOs at any time. A handler is a program counter with its
locals, as the callbacks of the driver are.
-/

namespace WinTap.Bus

/-! ### Manager requests -/

inductive ManagerPc where
  /-- The checks of `evt_manager_device_control`, of `effective_mtu` and of `response_buffer`. -/
  | dispatch
  | create (mtu : BitVec 32)
  | addDescription (mtu : BitVec 32)
  | remove
  | updateAsMissing (mtu : BitVec 32) (removeWithoutPdo : Bool)
  | markFailure (status : NtStatus)
  | reclaim
  | record
  | enumerate
  deriving DecidableEq, Repr

/-- `response_buffer`, and on to the section of the operation. -/
def withResponseBuffer (call : ManagerCall) (next : ManagerPc) : Flow ManagerPc Answer :=
  match responseBufferError call with
  | some status => .ret (complete call status)
  | none => .run next

/-- `evt_manager_device_control`, up to the first lock. -/
def evtManagerDeviceControl (call : ManagerCall) : Flow ManagerPc Answer :=
  match requestError call, ManagerOperation.ofCode call.request.operation with
  | some status, _ => .ret (complete call status)
  | none, some .create =>
    match effectiveMtu call.request.requestedMtu with
    | .error status => .ret (complete call status)
    | .ok mtu => withResponseBuffer call (.create mtu)
  | none, some .remove => withResponseBuffer call .remove
  | none, some .enumerate => withResponseBuffer call .enumerate
  | none, some .query => withResponseBuffer call .record
  | none, none => .ret (complete call statusInvalidParameter)

def newChild (request : ManagerRequest) (mtu : BitVec 32) : ChildNode where
  guid := request.adapterGuid
  lifecycle := .creating
  terminalStatus := statusPending
  requestId := request.requestId
  mtu := mtu
  pdo := none
  interfaceLength := 0
  interfaceName := .replicate maxInterfaceChars 0

/-- The first section of `manager_create`. -/
def managerCreate (bus : BusState) (call : ManagerCall) (mtu : BitVec 32) (outcome : Outcome) :
    BusState × Flow ManagerPc Answer :=
  match findChild bus call.request.adapterGuid with
  | some existing =>
    if existing.lifecycle ≠ .absent then (bus, .ret (completeHeader call statusDeviceBusy))
    else
      (writeChild bus call.request.adapterGuid fun node =>
        { node with
          lifecycle := .creating
          terminalStatus := statusPending
          requestId := call.request.requestId
          mtu := mtu }, .run (.addDescription mtu))
  | none =>
    if outcome.allocated then
      ({ bus with children := newChild call.request mtu :: bus.children }, .run (.addDescription mtu))
    else (bus, .ret (completeHeader call statusInsufficientResources))

/-- `WdfChildListAddOrUpdateChildDescriptionAsPresent`. -/
def addOrUpdateChildDescriptionAsPresent (bus : BusState) (id : ChildIdentification) : BusState :=
  { bus with
    childList := id :: bus.childList.filter fun other => other.guid ≠ id.guid
    owed := id.guid :: bus.owed }

/-- `WdfChildListUpdateChildDescriptionAsMissing`. -/
def updateChildDescriptionAsMissing (bus : BusState) (guid : Guid) : BusState :=
  { bus with
    childList := bus.childList.filter fun other => other.guid ≠ guid
    owed := bus.owed.filter fun other => other ≠ guid }

/-- The first section of `manager_remove`. -/
def managerRemove (bus : BusState) (call : ManagerCall) : BusState × Flow ManagerPc Answer :=
  match findChild bus call.request.adapterGuid with
  | none => (bus, .ret (completeHeader call statusObjectNameNotFound))
  | some node =>
    if node.lifecycle = .absent then (bus, .ret (completeHeader call statusObjectNameNotFound))
    else if node.lifecycle = .creating ∨ node.lifecycle = .removing then
      (bus, .ret (completeHeader call statusDeviceBusy))
    else
      (writeChild bus call.request.adapterGuid fun node =>
        { node with
          lifecycle := .removing
          terminalStatus := statusPending
          requestId := call.request.requestId }, .run (.updateAsMissing node.mtu node.pdo.isNone))

/-- A child that has its PDO is active. -/
def activateChild (node : ChildNode) : ChildNode :=
  if node.lifecycle = .creating ∧ node.pdo ≠ none then
    { node with lifecycle := .active, terminalStatus := statusSuccess }
  else node

/-- `child_record_for`, under the lock. -/
def childRecordFor (bus : BusState) (guid : Guid) : BusState × NtStatus × ManagerRecord :=
  match findChild bus guid with
  | none => (bus, statusSuccess, absentRecord guid statusSuccess 0)
  | some node =>
    (writeChild bus guid activateChild, (activateChild node).terminalStatus,
      writeRecord (activateChild node))

/-- The loop of `manager_enumerate`: the records, and the cursor to go on from. -/
def enumerateFrom (cursor : BitVec 32) (capacity : Nat) :
    List ChildNode → BitVec 32 → List ManagerRecord → List ManagerRecord × BitVec 32
  | [], _, records => (records, 0)
  | node :: rest, index, records =>
    if records.length < capacity then
      if node.lifecycle = .absent then enumerateFrom cursor capacity rest index records
      else
        enumerateFrom cursor capacity rest (if index = .allOnes 32 then index else index + 1)
          (if cursor ≤ index then records ++ [writeRecord node] else records)
    else (records, index)

/-- `manager_enumerate`, under the lock. -/
def managerEnumerate (bus : BusState) (call : ManagerCall) : Answer :=
  let capacity := (call.outputLength - managerResponseHeaderSize) / managerRecordSize
  let (records, nextCursor) := enumerateFrom call.request.cursor capacity bus.children 0 []
  let information := managerResponseHeaderSize + records.length * managerRecordSize
  { call := call
    status := statusSuccess
    information := information
    response := some
      { operationStatus := statusSuccess
        recordCount := .ofNat 32 records.length
        nextCursor := nextCursor
        length := .ofNat 32 information
        records := records } }

/-- One step of a manager request. -/
def stepManager (bus : BusState) (call : ManagerCall) (outcome : Outcome) :
    ManagerPc → BusState × Flow ManagerPc Answer
  | .dispatch => (bus, evtManagerDeviceControl call)
  | .create mtu =>
    underLock bus outcome (.ret (complete call statusDeviceNotReady)) (managerCreate bus call mtu outcome)
  | .addDescription mtu =>
    if outcome.status = statusSuccess then
      (addOrUpdateChildDescriptionAsPresent bus ⟨call.request.adapterGuid, mtu⟩, .run .record)
    else (bus, .run (.markFailure outcome.status))
  | .remove =>
    underLock bus outcome (.ret (complete call statusDeviceNotReady)) (managerRemove bus call)
  | .updateAsMissing _ removeWithoutPdo =>
    if outcome.status = statusSuccess then
      (updateChildDescriptionAsMissing bus call.request.adapterGuid,
        .run (if removeWithoutPdo then .reclaim else .record))
    else (bus, .run (.markFailure outcome.status))
  | .markFailure status =>
    underLock bus outcome (.run .record)
      (markChildFailure bus call.request.adapterGuid status, .run .record)
  | .reclaim =>
    underLock bus outcome (.run .record)
      (reclaimRemovedChildWithoutPdo bus call.request.adapterGuid, .run .record)
  | .record =>
    let (bus', status, record) := childRecordFor bus call.request.adapterGuid
    underLock bus outcome (.ret (completeRecord call statusDeviceNotReady emptyRecord))
      (bus', .ret (completeRecord call status record))
  | .enumerate =>
    underLock bus outcome (.ret (complete call statusDeviceNotReady)) (bus, .ret (managerEnumerate bus call))

/-! ### Callbacks of the framework -/

/-- The framework calls that `evt_child_list_create_device` assigns the IDs of a child with. -/
inductive AssignId where
  | deviceId
  | hardwareId
  | mtuHardwareId
  | compatibleHardwareId
  deriving DecidableEq, Repr

inductive CreateDevicePc where
  | check
  | assign (id : AssignId)
  | createPdo
  | context (pdo : Pdo)
  | publish (pdo : Pdo)
  /-- `WdfObjectDelete` of the PDO, with the bus lock taken or not. -/
  | delete (locked : Bool)
  | markFailure (status : NtStatus)
  deriving DecidableEq, Repr

/-- The call after one that succeeded. -/
def AssignId.next : AssignId → CreateDevicePc
  | .deviceId => .assign .hardwareId
  | .hardwareId => .assign .mtuHardwareId
  | .mtuHardwareId => .assign .compatibleHardwareId
  | .compatibleHardwareId => .createPdo

/-- The PDO of the node is gone, and the interface with it. -/
def clearPdo (node : ChildNode) : ChildNode :=
  { node with pdo := none, interfaceName := .replicate maxInterfaceChars 0, interfaceLength := 0 }

/-- `evt_child_pdo_cleanup`. -/
def evtChildPdoCleanup (bus : BusState) (guid : Guid) (outcome : Outcome) : BusState × Unit :=
  underLock bus outcome () <|
    match findChild bus guid with
    | none => (bus, ())
    | some node =>
      let cleared := writeChild bus guid clearPdo
      if node.lifecycle = .removing then (reclaimChild cleared guid, ())
      else if node.lifecycle = .creating ∨ node.lifecycle = .active then
        (writeChild cleared guid (failChild statusUnsuccessful), ())
      else (cleared, ())

/-- `evt_child_list_create_device`. -/
def evtChildListCreateDevice (bus : BusState) (guid : Guid) (outcome : Outcome) :
    CreateDevicePc → BusState × Flow CreateDevicePc NtStatus
  | .check =>
    (bus, if validGuid guid then .run (.assign .deviceId) else .ret statusInvalidParameter)
  | .assign id =>
    (bus, .run (if outcome.status = statusSuccess then id.next else .markFailure outcome.status))
  | .createPdo =>
    if outcome.status = statusSuccess then
      ({ bus with nextPdo := bus.nextPdo + 1 }, .run (.context bus.nextPdo))
    else (bus, .run (.markFailure outcome.status))
  | .context pdo =>
    -- A PDO without a context is deleted, and its cleanup has nothing to do.
    (bus, .run (if outcome.allocated then .publish pdo else .markFailure statusInsufficientResources))
  | .publish pdo =>
    underLock bus outcome (.run (.delete false)) <|
      match findChild bus guid with
      | none => ({ bus with held := true }, .run (.delete true))
      | some _ =>
        (writeChild { bus with pdos := (pdo, guid) :: bus.pdos } guid fun node => { node with pdo := some pdo },
          .ret statusSuccess)
  | .delete locked =>
    -- The cleanup of the PDO runs here, and asks for the lock whether this callback has it or not.
    let cleaned := (evtChildPdoCleanup bus guid outcome).1
    if locked then ({ cleaned with held := false }, .ret statusObjectNameNotFound)
    else (cleaned, .ret statusDeviceNotReady)
  | .markFailure status => underLock bus outcome (.ret status) (markChildFailure bus guid status, .ret status)

/-! ### The system -/

/-- A callback of the framework that is running, or none. -/
inductive Callback where
  | idle
  | createDevice (guid : Guid) (pc : CreateDevicePc)
  | pdoCleanup (guid : Guid)
  deriving DecidableEq, Repr

/-- The manager request in progress. -/
structure Handler where
  call : ManagerCall
  pc : ManagerPc
  /-- A step of the request changed the registry or the child list. -/
  changed : Bool
  deriving DecidableEq, Repr

structure BusWorld where
  bus : BusState
  handler : Option Handler
  thr : ThreadId → Callback
  /-- The requests answered, newest first, and whether each one changed anything. -/
  answers : List (Answer × Bool)

inductive BusAction where
  /-- A manager request is dispatched. -/
  | dispatch (call : ManagerCall)
  /-- The request in progress takes its next step. -/
  | handle (outcome : Outcome)
  /-- The framework calls `EvtChildListCreateDevice` for a description. -/
  | createDevice (t : ThreadId) (guid : Guid)
  /-- The framework cleans a PDO up. -/
  | pdoCleanup (t : ThreadId) (pdo : Pdo) (guid : Guid)
  /-- The callback takes its next step. -/
  | advance (t : ThreadId) (outcome : Outcome)
  /-- The framework drops a description that it owes no creation for. -/
  | forget (guid : Guid)
  deriving DecidableEq, Repr

def stepCallback (bus : BusState) (outcome : Outcome) : Callback → Option (BusState × Callback)
  | .idle => none
  | .createDevice guid pc =>
    let result := evtChildListCreateDevice bus guid outcome pc
    some (result.1, match result.2 with
      | .run pc => .createDevice guid pc
      | .ret _ => .idle)
  | .pdoCleanup guid => some ((evtChildPdoCleanup bus guid outcome).1, .idle)

/-- The next step of the request asks for the bus lock. -/
def ManagerPc.locks : ManagerPc → Bool
  | .dispatch | .addDescription _ | .updateAsMissing _ _ => false
  | .create _ | .remove | .markFailure _ | .reclaim | .record | .enumerate => true

/-- The next step of the callback asks for the bus lock. -/
def Callback.locks : Callback → Bool
  | .createDevice _ (.publish _) | .createDevice _ (.delete _) | .createDevice _ (.markFailure _)
  | .pdoCleanup _ => true
  | _ => false

/-- An acquisition that waits for a lock that is held. It has no timeout. -/
def BusState.blocks (bus : BusState) (locks : Bool) (outcome : Outcome) : Bool :=
  bus.held && locks && outcome.acquired

namespace BusWorld

def setThread (s : BusWorld) (t : ThreadId) (bus : BusState) (th : Callback) : BusWorld :=
  { s with bus := bus, thr := Function.update s.thr t th }

/-- Put a stepped request back. -/
def setHandler (s : BusWorld) (handler : Handler) (result : BusState × Flow ManagerPc Answer) : BusWorld :=
  let changed := handler.changed ||
    (result.1.children ≠ s.bus.children || result.1.childList ≠ s.bus.childList)
  match result.2 with
  | .run pc => { s with bus := result.1, handler := some { handler with pc := pc, changed := changed } }
  | .ret answer => { s with bus := result.1, handler := none, answers := (answer, changed) :: s.answers }

end BusWorld

def stepBus (s : BusWorld) : BusAction → Option BusWorld
  | .dispatch call =>
    if s.handler = none then some { s with handler := some ⟨call, .dispatch, false⟩ } else none
  | .handle outcome =>
    s.handler.bind fun handler =>
      if s.bus.blocks handler.pc.locks outcome then none
      else some (s.setHandler handler (stepManager s.bus handler.call outcome handler.pc))
  | .createDevice t guid =>
    if s.thr t = .idle ∧ guid ∈ s.bus.childList.map ChildIdentification.guid then
      some (s.setThread t { s.bus with owed := s.bus.owed.filter fun other => other ≠ guid }
        (.createDevice guid .check))
    else none
  | .pdoCleanup t pdo guid =>
    if s.thr t = .idle ∧ (pdo, guid) ∈ s.bus.pdos then
      some (s.setThread t { s.bus with pdos := s.bus.pdos.erase (pdo, guid) } (.pdoCleanup guid))
    else none
  | .advance t outcome =>
    if s.bus.blocks (s.thr t).locks outcome then none
    else (stepCallback s.bus outcome (s.thr t)).map fun (bus, th) => s.setThread t bus th
  | .forget guid =>
    if guid ∉ s.bus.owed then
      some { s with bus.childList := s.bus.childList.filter fun other => other.guid ≠ guid }
    else none

def BusState.initial : BusState where
  children := []
  childList := []
  owed := []
  pdos := []
  nextPdo := 0
  held := false

/-- Any interleaving of manager requests and callbacks, from a bus without children. -/
def busSystem : Machine.System BusWorld BusAction where
  init s := s.bus = .initial ∧ s.handler = none ∧ s.answers = [] ∧ ∀ t, s.thr t = .idle
  step := stepBus

/-- A state that some run of the bus reaches, with every step meeting `ok`. -/
abbrev BusReach (ok : BusWorld → BusAction → Prop) : BusWorld → Prop := Machine.Reach busSystem ok

end WinTap.Bus

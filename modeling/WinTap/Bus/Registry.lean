import WinTap.Base.Keyed
import WinTap.Bus.HardwareId

/-!
# The child registry of the bus driver

The registry is the linked list of child nodes under the bus lock. `BusState` has it together with what the
framework keeps: the child list with its descriptions, the creations it owes for them, and the PDOs whose
cleanup is still to come. A section under the bus lock is one step, so the lock itself appears only where a
callback keeps it across steps.

`WdfWaitLockAcquire` is called without a timeout. The source has a branch for a failed acquisition
nevertheless, so whether it succeeds is a choice of the environment.
-/

namespace WinTap

def statusPending : NtStatus := 0x00000103#32
def statusUnsuccessful : NtStatus := 0xC0000001#32
def statusObjectNameNotFound : NtStatus := 0xC0000034#32
def statusNoSuchDevice : NtStatus := 0xC000000E#32

namespace Bus

/-- The `STATUS_DEVICE_BUSY` of the bus driver, which is not the one of the driver of the child. -/
def statusDeviceBusy : NtStatus := 0xC00000E8#32

/-- `LIFECYCLE_*`. -/
inductive ChildLifecycle where
  | absent
  | creating
  | active
  | removing
  | failed
  deriving DecidableEq, Repr

/-- A PDO that was created. -/
abbrev Pdo := Nat

def maxInterfaceChars : Nat := 260

structure ChildNode where
  guid : Guid
  lifecycle : ChildLifecycle
  terminalStatus : NtStatus
  requestId : BitVec 64
  mtu : BitVec 32
  pdo : Option Pdo
  interfaceLength : BitVec 16
  interfaceName : List Wide
  deriving DecidableEq, Repr

structure ChildIdentification where
  guid : Guid
  mtu : BitVec 32
  deriving DecidableEq, Repr

structure BusState where
  children : List ChildNode
  /-- The descriptions in the child list of the framework. -/
  childList : List ChildIdentification
  /-- Descriptions the framework has not called `EvtChildListCreateDevice` for yet. -/
  owed : List Guid
  /-- PDOs with a context, whose cleanup has not started. -/
  pdos : List (Pdo × Guid)
  nextPdo : Pdo
  /-- A callback deletes a PDO under the bus lock. -/
  held : Bool
  deriving DecidableEq, Repr

/-- What the environment decides at a step. -/
structure Outcome where
  /-- The bus lock was acquired. -/
  acquired : Bool
  /-- An allocation succeeded, or an object has a context. -/
  allocated : Bool
  /-- The status of the framework call. -/
  status : NtStatus
  deriving DecidableEq, Repr

/-- `BusStateGuard::acquire` and the section under it. -/
def underLock {π : Type} (bus : BusState) (outcome : Outcome) (refused : π) (body : BusState × π) :
    BusState × π :=
  if outcome.acquired then body else (bus, refused)

/-! ### The list -/

/-- `find_child`. -/
def findChild (bus : BusState) (guid : Guid) : Option ChildNode := Keyed.find ChildNode.guid guid bus.children

/-- Write to the node of a GUID. -/
def writeChild (bus : BusState) (guid : Guid) (write : ChildNode → ChildNode) : BusState :=
  { bus with children := Keyed.modify ChildNode.guid guid write bus.children }

/-- `reclaim_child`. -/
def reclaimChild (bus : BusState) (guid : Guid) : BusState :=
  { bus with children := Keyed.remove ChildNode.guid guid bus.children }

def failChild (status : NtStatus) (node : ChildNode) : ChildNode :=
  { node with lifecycle := .failed, terminalStatus := status }

/-- `mark_child_failure`, under the lock. -/
def markChildFailure (bus : BusState) (guid : Guid) (status : NtStatus) : BusState :=
  match findChild bus guid with
  | none => bus
  | some _ => writeChild bus guid (failChild status)

/-- `reclaim_removed_child_without_pdo`, under the lock. -/
def reclaimRemovedChildWithoutPdo (bus : BusState) (guid : Guid) : BusState :=
  match findChild bus guid with
  | none => bus
  | some node => if node.lifecycle = .removing ∧ node.pdo = none then reclaimChild bus guid else bus

/-! ### Requests and responses -/

def managerProtocolVersion : BitVec 16 := 2
def managerIoctl : BitVec 32 := 0x00222004
def maxManagerOutput : Nat := 64 * 1024

/-- The size of `ManagerRequest`. -/
def managerRequestSize : Nat := 40

/-- The size of `ManagerResponseHeader`. -/
def managerResponseHeaderSize : Nat := 32

/-- The size of `ManagerRecord`. -/
def managerRecordSize : Nat := 560

inductive ManagerOperation where
  | create
  | remove
  | enumerate
  | query
  deriving DecidableEq, Repr

/-- `MANAGER_OPERATION_*`. -/
def ManagerOperation.ofCode (code : BitVec 16) : Option ManagerOperation :=
  if code = 1 then some .create
  else if code = 2 then some .remove
  else if code = 3 then some .enumerate
  else if code = 4 then some .query
  else none

structure ManagerRequest where
  version : BitVec 16
  operation : BitVec 16
  length : BitVec 32
  requestId : BitVec 64
  adapterGuid : Guid
  cursor : BitVec 32
  requestedMtu : BitVec 32
  deriving DecidableEq, Repr

/-- The arguments of `evt_manager_device_control`, with the outcomes of retrieving the buffers. -/
structure ManagerCall where
  ioctl : BitVec 32
  outputLength : Nat
  inputLength : Nat
  inputStatus : NtStatus
  actualInputLength : Nat
  outputStatus : NtStatus
  actualOutputLength : Nat
  request : ManagerRequest
  deriving DecidableEq, Repr

structure ManagerRecord where
  adapterGuid : Guid
  lifecycle : ChildLifecycle
  terminalStatus : NtStatus
  requestId : BitVec 64
  mtu : BitVec 32
  interfaceLength : BitVec 16
  interfaceName : List Wide
  deriving DecidableEq, Repr

/-- The fields of `ManagerResponseHeader` that are not copied from the request, and the records after it. -/
structure ManagerResponse where
  operationStatus : NtStatus
  recordCount : BitVec 32
  nextCursor : BitVec 32
  length : BitVec 32
  records : List ManagerRecord
  deriving DecidableEq, Repr

/-- The completion of a request: its status and Information, and the response it returns. -/
structure Answer where
  call : ManagerCall
  status : NtStatus
  information : Nat
  response : Option ManagerResponse
  deriving DecidableEq, Repr

/-- `write_record`. -/
def writeRecord (node : ChildNode) : ManagerRecord where
  adapterGuid := node.guid
  lifecycle := node.lifecycle
  terminalStatus := node.terminalStatus
  requestId := node.requestId
  mtu := node.mtu
  interfaceLength := node.interfaceLength
  interfaceName := node.interfaceName

/-- `absent_record`. -/
def absentRecord (guid : Guid) (terminalStatus : NtStatus) (requestId : BitVec 64) : ManagerRecord where
  adapterGuid := guid
  lifecycle := .absent
  terminalStatus := terminalStatus
  requestId := requestId
  mtu := 0
  interfaceLength := 0
  interfaceName := .replicate maxInterfaceChars 0

/-- `empty_record`. -/
def emptyRecord : ManagerRecord := absentRecord ⟨0, 0, 0, .replicate 8 0⟩ statusObjectNameNotFound 0

/-- `complete`. -/
def complete (call : ManagerCall) (status : NtStatus) : Answer where
  call := call
  status := status
  information := 0
  response := none

/-- A response that has a header only. -/
def completeHeader (call : ManagerCall) (operationStatus : NtStatus) : Answer where
  call := call
  status := statusSuccess
  information := managerResponseHeaderSize
  response := some
    { operationStatus := operationStatus
      recordCount := 0
      nextCursor := 0
      length := .ofNat 32 managerResponseHeaderSize
      records := [] }

/-- A response with one record. -/
def completeRecord (call : ManagerCall) (operationStatus : NtStatus) (record : ManagerRecord) : Answer where
  call := call
  status := statusSuccess
  information := managerResponseHeaderSize + managerRecordSize
  response := some
    { operationStatus := operationStatus
      recordCount := 1
      nextCursor := 0
      length := .ofNat 32 (managerResponseHeaderSize + managerRecordSize)
      records := [record] }

/-- What `evt_manager_device_control` refuses a request for. -/
def requestError (call : ManagerCall) : Option NtStatus :=
  let request := call.request
  if call.ioctl ≠ managerIoctl then some statusInvalidDeviceRequest
  else if call.inputLength ≠ managerRequestSize then some statusInvalidBufferSize
  else if call.inputStatus ≠ statusSuccess ∨ call.actualInputLength ≠ managerRequestSize then
    some (if call.inputStatus = statusSuccess then statusInvalidBufferSize else call.inputStatus)
  else if request.version ≠ managerProtocolVersion ∨ request.length.toNat ≠ managerRequestSize ∨
      request.requestId = 0 ∨ ManagerOperation.ofCode request.operation = none ∨
      (ManagerOperation.ofCode request.operation ≠ some .enumerate ∧
        (validGuid request.adapterGuid = false ∨ request.cursor ≠ 0)) ∨
      (ManagerOperation.ofCode request.operation = some .enumerate ∧
        validGuid request.adapterGuid = true) ∨
      (ManagerOperation.ofCode request.operation ≠ some .create ∧ request.requestedMtu ≠ 0) then
    some statusInvalidParameter
  else none

/-- What `response_buffer` refuses a request for, with the minimum length that every operation asks for. -/
def responseBufferError (call : ManagerCall) : Option NtStatus :=
  let minimumLength := managerResponseHeaderSize + managerRecordSize
  if call.outputLength < minimumLength ∨ maxManagerOutput < call.outputLength then some statusBufferTooSmall
  else if call.outputStatus ≠ statusSuccess then some call.outputStatus
  else if call.actualOutputLength < minimumLength ∨ maxManagerOutput < call.actualOutputLength then
    some statusBufferTooSmall
  else none

end Bus

end WinTap

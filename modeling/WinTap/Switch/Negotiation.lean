import WinTap.Switch.EndpointGuid

/-!
# Negotiating adaptive polling

`Runtime::start` opens the two endpoints and asks the driver of each one for adaptive polling. What the driver does with
a handle is part of the state: a request that succeeds leaves the handle in adaptive mode, whatever the response says,
and a handle that is opened anew is in legacy mode.
-/

namespace WinTap.SwitchRuntime

abbrev Dword := UInt32

def adaptivePollingProtocolVersion : Dword := 1

/-- `ADAPTIVE_INTEREST_ALL`. -/
def adaptiveInterestAll : Dword := 3

/-- The size of `AdaptiveEnableResponse`. -/
def adaptiveEnableResponseSize : Dword := 8

def errorInvalidFunction : Dword := 1
def errorNotSupported : Dword := 50
def errorSharingViolation : Dword := 32
def errorBusy : Dword := 170

def cleanupReopenAttempts : Nat := 50

/-! ### Handles -/

/-- How the driver serves the owner of a handle. -/
inductive HandleMode where
  | legacy
  | adaptive (version flags : Dword)
  deriving DecidableEq, Repr

/-- An open endpoint. -/
structure OpenEndpoint where
  guid : List Byte
  mode : HandleMode
  deriving DecidableEq, Repr

/-- `EndpointOpenError`. -/
structure EndpointOpenError where
  path : List Byte
  error : Dword
  deriving DecidableEq, Repr

namespace EndpointOpenError

def message (e : EndpointOpenError) : List Byte :=
  text "CreateFileW failed for " ++ e.path ++ text " with Win32 error " ++ text (toString e.error)

def cleanupIsPending (e : EndpointOpenError) : Bool := e.error = errorBusy || e.error = errorSharingViolation

end EndpointOpenError

/-- `open_endpoint`, with the error of `CreateFileW` if it fails. -/
def openEndpoint (config : EndpointConfig) (failure : Option Dword) : Except EndpointOpenError OpenEndpoint :=
  match failure with
  | some error => .error ⟨config.interfacePath, error⟩
  | none => .ok ⟨config.guid, .legacy⟩

/-- `open_endpoints`. -/
def openEndpoints (first second : EndpointConfig) (failures : Option Dword × Option Dword) :
    Except EndpointOpenError (OpenEndpoint × OpenEndpoint) := do
  let opened ← openEndpoint first failures.1
  let opened' ← openEndpoint second failures.2
  return (opened, opened')

/-- `reopen_legacy_endpoints_after_cleanup`, with so many attempts left. -/
def reopenLegacyEndpointsAfterCleanup (first second : EndpointConfig)
    (failures : Nat → Option Dword × Option Dword) : Nat → Except (List Byte) (OpenEndpoint × OpenEndpoint)
  | 0 => .error (text "timed out waiting for endpoint cleanup after " ++ text (toString cleanupReopenAttempts) ++
      text " attempts")
  | left + 1 =>
    match openEndpoints first second (failures (cleanupReopenAttempts - (left + 1))) with
    | .ok endpoints => .ok endpoints
    | .error error =>
      if error.cleanupIsPending then reopenLegacyEndpointsAfterCleanup first second failures left
      else .error error.message

/-! ### The protocol -/

/-- `AdaptiveEndpointCapability`. -/
inductive AdaptiveEndpointCapability where
  | unsupported
  | incompatible
  | supported (version acceptedFlags : Dword)
  deriving DecidableEq, Repr

/-- `select_adaptive_polling`. -/
def selectAdaptivePolling (endpoints : List AdaptiveEndpointCapability) : Option (Dword × Dword) :=
  match endpoints.head? with
  | some (.supported version acceptedFlags) =>
    if acceptedFlags ≠ adaptiveInterestAll then none
    else if endpoints.all fun endpoint => endpoint = .supported version acceptedFlags then
      some (version, acceptedFlags)
    else none
  | _ => none

/-- What `synchronous_device_control` answers to `TAP_IOCTL_ENABLE_ADAPTIVE_POLLING`. -/
inductive ControlAnswer where
  | failed (error : Dword)
  | succeeded (bytes version flags : Dword)
  deriving DecidableEq, Repr

/-- The endpoint after the request. -/
def OpenEndpoint.enable (endpoint : OpenEndpoint) : ControlAnswer → OpenEndpoint
  | .failed _ => endpoint
  | .succeeded _ version flags => { endpoint with mode := .adaptive version flags }

def isAdaptiveUnsupported (error : Dword) : Bool := error = errorInvalidFunction || error = errorNotSupported

/-- `negotiate_adaptive_endpoint`. -/
def negotiateAdaptiveEndpoint (guid : List Byte) (answer : ControlAnswer) :
    Except (List Byte) AdaptiveEndpointCapability :=
  match answer with
  | .succeeded bytes version flags =>
    if bytes ≠ adaptiveEnableResponseSize then
      .error (text "adaptive enable returned an invalid response size for " ++ guid)
    else if version ≠ adaptivePollingProtocolVersion ∨ flags ≠ adaptiveInterestAll then .ok .incompatible
    else .ok (.supported version flags)
  | .failed error =>
    if isAdaptiveUnsupported error then .ok .unsupported
    else .error (text "adaptive enable failed for " ++ guid ++ text " with Win32 error " ++ text (toString error))

def AdaptiveEndpointCapability.isSupported : AdaptiveEndpointCapability → Bool
  | .supported _ _ => true
  | _ => false

/-- `negotiate_adaptive_polling`: whether to poll adaptively and whether to reopen, and the endpoints. -/
def negotiateAdaptivePolling (endpoints : OpenEndpoint × OpenEndpoint) (answers : ControlAnswer × ControlAnswer) :
    Except (List Byte) ((Bool × Bool) × OpenEndpoint × OpenEndpoint) := do
  let first ← negotiateAdaptiveEndpoint endpoints.1.guid answers.1
  let second ← negotiateAdaptiveEndpoint endpoints.2.guid answers.2
  let adaptivePolling := (selectAdaptivePolling [first, second]).isSome
  let reopenForLegacy := !adaptivePolling && (first.isSupported || second.isSupported)
  return ((adaptivePolling, reopenForLegacy), endpoints.1.enable answers.1, endpoints.2.enable answers.2)

/-- The endpoints that `Runtime::start` goes on with, and whether it polls adaptively: the endpoints are opened, asked
for adaptive polling, and dropped and opened again if the fallback needs it. -/
def startEndpoints (first second : EndpointConfig) (failures : Option Dword × Option Dword)
    (answers : ControlAnswer × ControlAnswer) (failuresAgain : Nat → Option Dword × Option Dword) :
    Except (List Byte) (Bool × OpenEndpoint × OpenEndpoint) :=
  match openEndpoints first second failures with
  | .error error => .error error.message
  | .ok endpoints =>
    match negotiateAdaptivePolling endpoints answers with
    | .error error => .error error
    | .ok ((adaptivePolling, reopenForLegacy), endpoints) =>
      if reopenForLegacy then
        (reopenLegacyEndpointsAfterCleanup first second failuresAgain cleanupReopenAttempts).map (adaptivePolling, ·)
      else .ok (adaptivePolling, endpoints)

end WinTap.SwitchRuntime

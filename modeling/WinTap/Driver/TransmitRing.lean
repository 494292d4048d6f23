import WinTap.Driver.NetRings
import WinTap.Driver.State

/-!
# Capturing the packets of the TX queue

`capture_transmit_packets` on the rings of the TX queue, with the bytes it copies. What the rest of the driver decides
for a packet is given from outside: a READ that direct delivery got hold of, the memory that the frame pool hands out
with whatever is in it, the second look at the lifecycle and the owner, and the answer of the capture queue.
-/

namespace WinTap

/-- What the loop tells the rest of the driver. -/
inductive TxEvent where
  /-- A READ is completed with the packet. -/
  | delivered (packet : RingIndex) (bytes : List UInt8)
  /-- A READ that was retrieved for the packet fails. -/
  | readFailed (status : NtStatus)
  /-- The packet goes into the capture queue. -/
  | queued (packet : RingIndex) (bytes : List UInt8)
  | enqueueWorkItem
  deriving DecidableEq, Repr

/-- The TX rings with their elements and the buffers behind the fragments, and what the loop has told so far. -/
structure TxRings where
  packetRing : NetRing
  fragmentRing : NetRing
  packets : RingIndex → NetPacket
  fragments : RingIndex → NetFragment
  buffers : RingIndex → Option (List UInt8)
  events : List TxEvent
  capturedForLegacyRead : Bool

/-- A READ that direct delivery retrieved: what its output buffer is asked for with, and the buffer. -/
structure DirectRead where
  outputStatus : NtStatus
  output : List UInt8
  deriving DecidableEq, Repr

/-- What the rest of the driver decides for one packet. -/
structure TxChoices where
  /-- None when adaptive polling is on, the callback is not at passive level, the lock is taken, the owner is gone or
  no READ waits. -/
  direct : Option DirectRead
  /-- The data of the frame that the pool hands out, if it does. -/
  storage : Option (Vector UInt8 frameMaximum)
  /-- The instance is open and of the same owner when the frame is filled. -/
  owned : Bool
  adaptive : Bool
  accepted : Bool

section
variable (sizes : ElementSizes) (extension : NetExtension) (maximum : Nat)

/-- `validate_fragment`: the total with the fragment added. -/
def validateFragment (fragment : NetFragment) (buffer : Option (List UInt8)) (total : Nat) : Option Nat :=
  match buffer with
  | none => none
  | some _ =>
    if fragment.offset ≤ fragment.capacity ∧ fragment.validLength ≤ fragment.capacity - fragment.offset ∧
        fragment.validLength ≤ maximum ∧ total ≤ maximum - fragment.validLength then
      some (total + fragment.validLength)
    else none

/-- The first pass over the fragments of a packet: their total length, when all are valid. -/
def validateFragments (s : TxRings) : Nat → RingIndex → Nat → Option Nat
  | 0, _, total => some total
  | count + 1, index, total => do
    let fragment ← s.fragmentRing.fragmentAt sizes index
    let address ← extension.fragmentVirtualAddress index
    let total ← validateFragment maximum (s.fragments fragment) (s.buffers address) total
    let next ← s.fragmentRing.incrementIndex index
    validateFragments s count next total

/-- The bytes of a fragment, read through its address. -/
def fragmentData (fragment : NetFragment) (buffer : Option (List UInt8)) : Except Fault (List UInt8) :=
  match buffer with
  | none => .error .outOfBounds
  | some buffer => readBuffer buffer fragment.offset fragment.validLength

/-- `Frame::copy_from_slice`. -/
def copyFromSlice (data : List UInt8) (offset : Nat) (bytes : List UInt8) : Except Fault (Option (List UInt8)) :=
  if frameMaximum < offset ∨ frameMaximum - offset < bytes.length then .ok none
  else (writeBuffer data offset bytes).map some

/-- The second pass: the copies into the frame, or none where one fails. -/
def copyToFrame (s : TxRings) : Nat → RingIndex → List UInt8 → Nat → Except Fault (Option (List UInt8 × Nat))
  | 0, _, data, offset => .ok (some (data, offset))
  | count + 1, index, data, offset => do
    let some fragment := s.fragmentRing.fragmentAt sizes index | return none
    let some address := extension.fragmentVirtualAddress index | return none
    let bytes ← fragmentData (s.fragments fragment) (s.buffers address)
    let some data ← copyFromSlice data offset bytes | return none
    let some next := s.fragmentRing.incrementIndex index | return none
    copyToFrame s count next data (offset + bytes.length)

namespace ReadDelivery

/-- A retrieved READ: its output buffer, and its status and Information once it is completed. -/
structure Request where
  output : List UInt8
  completion : Option (NtStatus × Nat)
  deriving DecidableEq, Repr

/-- The counters of the instance that a delivery changes. -/
structure Account where
  pendingReads : Nat
  legacyDirectReadClaims : Nat
  deriving DecidableEq, Repr

/-- What a delivery leaves. -/
structure Delivery where
  request : Request
  account : Account
  /-- The frame did not go to the READ and is still to be captured, or goes back into the capture queue. -/
  kept : Bool
  deriving DecidableEq, Repr

/-- `complete_request`. -/
def completeRequest (r : Request) (status : NtStatus) : Request := { r with completion := some (status, 0) }

/-- `complete_request_with_information`. -/
def completeRequestWithInformation (r : Request) (status : NtStatus) (information : Nat) : Request :=
  { r with completion := some (status, information) }

/-- The copies of direct delivery: the output buffer as far as it was written, and the offset unless a fragment was not
found. -/
def copyFragments (s : TxRings) : Nat → RingIndex → List UInt8 → Nat → Except Fault (List UInt8 × Option Nat)
  | 0, _, output, offset => .ok (output, some offset)
  | count + 1, index, output, offset => do
    let some fragment := s.fragmentRing.fragmentAt sizes index | return (output, none)
    let some address := extension.fragmentVirtualAddress index | return (output, none)
    let data ← fragmentData (s.fragments fragment) (s.buffers address)
    let output ← writeBuffer output offset data
    let some next := s.fragmentRing.incrementIndex index | return (output, none)
    copyFragments s count next output (offset + data.length)

/-- `deliver_transmit_packet_to_read`, once it has retrieved a READ. -/
def deliverTransmitPacketToRead (s : TxRings) (retrieve : Nat → NtStatus) (r : Request) (account : Account)
    (fragmentBegin : RingIndex) (count total : Nat) : Except Fault Delivery := do
  let account : Account := ⟨releaseRequest account.pendingReads, account.legacyDirectReadClaims + 1⟩
  let released := { account with legacyDirectReadClaims := releaseRequest account.legacyDirectReadClaims }
  if retrieve total ≠ statusSuccess then return ⟨completeRequest r (retrieve total), released, true⟩
  if r.output.length < total then return ⟨completeRequest r statusBufferTooSmall, released, true⟩
  match ← copyFragments sizes extension s count fragmentBegin r.output 0 with
  | (output, none) => return ⟨completeRequest { r with output := output } statusDeviceNotReady, released, true⟩
  | (output, some offset) =>
    return ⟨completeRequestWithInformation { r with output := output } statusSuccess offset, released, false⟩

end ReadDelivery

/-- `deliver_transmit_packet_to_read`: what it tells, and whether the packet is taken. -/
def deliverTransmitPacketToRead (s : TxRings) (direct : Option DirectRead) (packet fragmentBegin : RingIndex)
    (count total : Nat) : Except Fault (List TxEvent × Bool) := do
  let some read := direct | return ([], false)
  -- The counters decide nothing; the READ is the only one that is counted.
  let delivery ← ReadDelivery.deliverTransmitPacketToRead sizes extension s (fun _ => read.outputStatus)
    ⟨read.output, none⟩ ⟨1, 0⟩ fragmentBegin count total
  let some (status, information) := delivery.request.completion | return ([], false)
  if delivery.kept then return ([.readFailed status], false)
  return ([.delivered packet (delivery.request.output.take information)], true)

end

namespace TxRings

def setIgnore (s : TxRings) (packet : RingIndex) : TxRings :=
  { s with packets := Function.update s.packets packet { s.packets packet with ignore := true } }

def tell (s : TxRings) (events : List TxEvent) : TxRings := { s with events := s.events ++ events }

end TxRings

/-- How a round ends: the loop is left, or goes on. -/
inductive TxRound where
  | done (rings : TxRings)
  | again (rings : TxRings)

/-- The two `BeginIndex` values move past a packet and its fragments. -/
def passPacket (s : TxRings) (packetBegin fragmentBegin : RingIndex) (count : BitVec 32) : TxRound :=
  match s.packetRing.incrementIndex packetBegin with
  | none => .done s
  | some nextPacket => match s.fragmentRing.advanceIndex fragmentBegin count with
    | none => .done s
    | some nextFragment =>
      .again { s with packetRing.beginIndex := nextPacket, fragmentRing.beginIndex := nextFragment }

/-- A packet without usable fragments: only the packet ring moves. -/
def skipPacket (s : TxRings) (packet packetBegin : RingIndex) : TxRound :=
  let s := s.setIgnore packet
  match s.packetRing.incrementIndex packetBegin with
  | none => .done s
  | some nextPacket => .again { s with packetRing.beginIndex := nextPacket }

/-- The rest of a round once the frame is allocated and filled. -/
def enqueueCaptured (s : TxRings) (choices : TxChoices) (packet : RingIndex) (total : Nat)
    (copied : Option (List UInt8 × Nat)) : TxRings :=
  match copied with
  | none => s
  | some (data, offset) =>
    if offset ≠ total then s
    else if !choices.owned then s.setIgnore packet
    else if choices.accepted then
      let s := s.tell [.queued packet (data.take total)]
      if choices.adaptive then s else { s with capturedForLegacyRead := true }
    else s

def capturePacketRound (sizes : ElementSizes) (extension : NetExtension) (maximum : Nat) (framePool : Bool)
    (s : TxRings) (choices : TxChoices) : Except Fault TxRound := do
  let packetBegin := s.packetRing.beginIndex
  let fragmentEnd := s.fragmentRing.endIndex
  if packetBegin = s.packetRing.endIndex then return .done s
  let some packet := s.packetRing.packetAt sizes packetBegin | return .done s
  let count := (s.packets packet).fragmentCount.setWidth 32
  if count = 0 then return skipPacket s packet packetBegin
  let fragmentBegin := (s.packets packet).fragmentIndex
  if fragmentBegin = fragmentEnd ∨ s.fragmentRing.numberOfElements < count then
    return skipPacket s packet packetBegin
  match validateFragments sizes extension maximum s count.toNat fragmentBegin 0 with
  | none => return passPacket (s.setIgnore packet) packetBegin fragmentBegin count
  | some total =>
    if total < frameMinimum ∨ maximum < total then
      return passPacket (s.setIgnore packet) packetBegin fragmentBegin count
    let (events, taken) ←
      deliverTransmitPacketToRead sizes extension s choices.direct packetBegin fragmentBegin count.toNat total
    let s := s.tell events
    if taken then return passPacket s packetBegin fragmentBegin count
    if !framePool then return .done s
    match choices.storage with
    | none => return passPacket (s.setIgnore packet) packetBegin fragmentBegin count
    | some storage =>
      let copied ← copyToFrame sizes extension s count.toNat fragmentBegin storage.toList 0
      return passPacket (enqueueCaptured s choices packet total copied) packetBegin fragmentBegin count

def captureLoop (sizes : ElementSizes) (extension : NetExtension) (maximum : Nat) (framePool : Bool) :
    Nat → (Nat → TxChoices) → TxRings → Except Fault TxRings
  | 0, _, _ => .error .diverged
  | rounds + 1, choices, s => do
    match ← capturePacketRound sizes extension maximum framePool s (choices 0) with
    | .done s => return s
    | .again s => captureLoop sizes extension maximum framePool rounds (fun i => choices (i + 1)) s

/-- `capture_transmit_packets`. -/
def captureTransmitPackets (sizes : ElementSizes) (extension : NetExtension) (maximum : Nat) (framePool : Bool)
    (lifecycle : Lifecycle) (rounds : Nat) (choices : Nat → TxChoices) (s : TxRings) : Except Fault TxRings := do
  if lifecycle ≠ .instanceOpen then return s
  let s ← captureLoop sizes extension maximum framePool rounds choices { s with capturedForLegacyRead := false }
  return if s.capturedForLegacyRead then s.tell [.enqueueWorkItem] else s

end WinTap

import WinTap.Base.Splice
import WinTap.Driver.FrameRing

/-!
# The rings shared with NetAdapterCx

A packet queue has a ring of packets and a ring of fragments. The elements from `BeginIndex` up to `EndIndex` are the
driver's; the driver gives elements back by moving `BeginIndex`. Everything here follows `ring.rs`: an index is checked
against the ring before it is used, and moved with the ring's mask.

A fragment describes a piece of a buffer, whose address is in an extension of the ring. The buffer stands here for the
address; there is none where the address is null.
-/

namespace WinTap

abbrev RingIndex := BitVec 32

structure NetRing where
  elementStride : BitVec 16
  numberOfElements : BitVec 32
  elementIndexMask : BitVec 32
  beginIndex : RingIndex
  endIndex : RingIndex
  deriving DecidableEq, Repr

structure PacketLayout where
  layer2Type : Nat
  layer2HeaderLength : Nat
  /-- The remaining fields. -/
  rest : Nat
  deriving DecidableEq, Repr

structure NetPacket where
  fragmentIndex : RingIndex
  fragmentCount : BitVec 16
  ignore : Bool
  layout : PacketLayout
  deriving DecidableEq, Repr

structure NetFragment where
  offset : Nat
  capacity : Nat
  validLength : Nat
  deriving DecidableEq, Repr

/-- The extension that holds the virtual addresses of the fragments: whether it is enabled, whether it has a table, and
the distance in bytes from one entry of the table to the next. -/
structure NetExtension where
  enabled : Bool
  present : Bool
  stride : Nat
  deriving DecidableEq, Repr

/-- The sizes of the two kinds of ring elements. -/
structure ElementSizes where
  packet : Nat
  fragment : Nat
  deriving DecidableEq, Repr

/-! ### `ring.rs` -/

namespace NetRing

def ringIsValid (r : NetRing) : Bool :=
  r.numberOfElements ≠ 0 && r.elementIndexMask = r.numberOfElements - 1 && r.elementStride ≠ 0

/-- `index & !ring.ElementIndexMask != 0`. -/
def outside (r : NetRing) (index : RingIndex) : Bool := index &&& ~~~r.elementIndexMask ≠ 0

def incrementIndex (r : NetRing) (index : RingIndex) : Option RingIndex :=
  if !r.ringIsValid || r.outside index then none
  else some ((index + 1) &&& r.elementIndexMask)

def advanceIndex (r : NetRing) (index : RingIndex) (count : BitVec 32) : Option RingIndex :=
  if !r.ringIsValid || r.outside index then none
  else some ((index + count) &&& r.elementIndexMask)

/-- The element at an index: the slot that its address is computed from. -/
def elementAt (r : NetRing) (index : RingIndex) (minimumSize : Nat) : Option RingIndex :=
  if !r.ringIsValid || r.elementStride.toNat < minimumSize || r.outside index then none
  else
    let slot := index &&& r.elementIndexMask
    if slot.toNat * r.elementStride.toNat < usizeLimit then some slot else none

def packetAt (r : NetRing) (sizes : ElementSizes) (index : RingIndex) : Option RingIndex :=
  r.elementAt index sizes.packet

def fragmentAt (r : NetRing) (sizes : ElementSizes) (index : RingIndex) : Option RingIndex :=
  r.elementAt index sizes.fragment

end NetRing

/-- `fragment_virtual_address`: the entry of the address table, found at any index. -/
def NetExtension.fragmentVirtualAddress (extension : NetExtension) (index : RingIndex) : Option RingIndex :=
  if !extension.enabled then none
  else if !extension.present then none
  else if index.toNat * extension.stride < usizeLimit then some index
  else none

/-! ### Copies -/

/-- The bytes of a buffer from an offset on. -/
def readBuffer (buffer : List UInt8) (offset length : Nat) : Except Fault (List UInt8) :=
  if offset + length ≤ buffer.length then .ok ((buffer.drop offset).take length) else .error .outOfBounds

def writeBuffer (buffer : List UInt8) (offset : Nat) (bytes : List UInt8) : Except Fault (List UInt8) :=
  if offset + bytes.length ≤ buffer.length then .ok (Splice.splice buffer offset bytes) else .error .outOfBounds

end WinTap

import WinTap.Driver.NetRings
import WinTap.Driver.State

/-!
# Indicating frames to the RX queue

`inject_receive_frames` on the rings of the RX queue. What the injection queue answers at each round is given from
outside, since writers go on while the callback runs; a frame that cannot be indicated is put back.
-/

namespace WinTap

/-- The RX rings with their elements and the buffers behind the fragments. -/
structure RxRings where
  packetRing : NetRing
  fragmentRing : NetRing
  packets : RingIndex → NetPacket
  fragments : RingIndex → NetFragment
  buffers : RingIndex → Option (List UInt8)

/-- `NetPacketLayer2TypeEthernet`. -/
def layer2TypeEthernet : Nat := 2

/-- How a round ends: the callback is done, with the frame it puts back, or it goes on. -/
inductive RxRound where
  | done (rings : RxRings) (putBack : Option (List UInt8))
  | again (rings : RxRings)

def indicateFrame (sizes : ElementSizes) (extension : NetExtension) (s : RxRings)
    (dequeued : Option (List UInt8)) : Except Fault RxRound := do
  let packetBegin := s.packetRing.beginIndex
  let fragmentBegin := s.fragmentRing.beginIndex
  if packetBegin = s.packetRing.endIndex ∨ fragmentBegin = s.fragmentRing.endIndex then return .done s none
  let some frame := dequeued | return .done s none
  let some packet := s.packetRing.packetAt sizes packetBegin | return .done s (some frame)
  let some fragment := s.fragmentRing.fragmentAt sizes fragmentBegin | return .done s (some frame)
  let some address := extension.fragmentVirtualAddress fragmentBegin | return .done s (some frame)
  let some buffer := s.buffers address | return .done s (some frame)
  let s := { s with
    fragments := Function.update s.fragments fragment { s.fragments fragment with offset := 0 } }
  if (s.fragments fragment).capacity < frame.length then return .done s (some frame)
  let buffer ← writeBuffer buffer 0 frame
  let s := { s with
    buffers := Function.update s.buffers address (some buffer)
    fragments := Function.update s.fragments fragment
      { s.fragments fragment with validLength := frame.length }
    packets := Function.update s.packets packet
      { ignore := false, fragmentIndex := fragmentBegin, fragmentCount := 1
        layout := { layer2Type := layer2TypeEthernet, layer2HeaderLength := frameMinimum, rest := 0 } } }
  let some nextPacket := s.packetRing.incrementIndex packetBegin | return .done s none
  let some nextFragment := s.fragmentRing.incrementIndex fragmentBegin | return .done s none
  return .again { s with packetRing.beginIndex := nextPacket, fragmentRing.beginIndex := nextFragment }

/-- The loop, with what the injection queue answers at each round. -/
def indicateLoop (sizes : ElementSizes) (extension : NetExtension) :
    Nat → (Nat → Option (List UInt8)) → RxRings → Except Fault (RxRings × Option (List UInt8))
  | 0, _, _ => .error .diverged
  | rounds + 1, frames, s => do
    match ← indicateFrame sizes extension s (frames 0) with
    | .done s putBack => return (s, putBack)
    | .again s => indicateLoop sizes extension rounds (fun i => frames (i + 1)) s

/-- `inject_receive_frames`. -/
def injectReceiveFrames (sizes : ElementSizes) (extension : NetExtension) (lifecycle : Lifecycle) (rounds : Nat)
    (frames : Nat → Option (List UInt8)) (s : RxRings) : Except Fault (RxRings × Option (List UInt8)) :=
  if lifecycle ≠ .instanceOpen then .ok (s, none)
  else indicateLoop sizes extension rounds frames s

end WinTap

import WinTap.Driver.NetRings

/-!
# Cancelling a packet queue

`evt_packet_queue_cancel` on the rings of its queue. The packets of the RX queue are marked to be ignored, and then the
elements of both rings are given back. A ring may be missing.
-/

namespace WinTap

/-- What the callback finds of its queue. -/
structure CancelledQueue where
  isTransmit : Bool
  packetRing : Option NetRing
  fragmentRing : Option NetRing
  packets : RingIndex → NetPacket
  rxNotificationArmed : Bool

/-- `set_Ignore(1)` on the packet in a slot. -/
def ignorePacket (packets : RingIndex → NetPacket) (slot : RingIndex) : RingIndex → NetPacket :=
  Function.update packets slot { packets slot with ignore := true }

/-- The loop over the packets, from an index up to `EndIndex`. -/
def ignoreLoop (sizes : ElementSizes) (r : NetRing) :
    Nat → RingIndex → (RingIndex → NetPacket) → Except Fault (RingIndex → NetPacket)
  | 0, _, _ => .error .diverged
  | rounds + 1, index, packets =>
    if index = r.endIndex then .ok packets
    else match r.packetAt sizes index with
      | none => .ok packets
      | some packet => match r.incrementIndex index with
        | none => .ok (ignorePacket packets packet)
        | some next => ignoreLoop sizes r rounds next (ignorePacket packets packet)

/-- `BeginIndex = EndIndex`. -/
def NetRing.giveBack (r : NetRing) : NetRing := { r with beginIndex := r.endIndex }

/-- The packets after the loop, which only an RX queue with a packet ring comes to. -/
def ignorePackets (sizes : ElementSizes) (rounds : Nat) (q : CancelledQueue) : Except Fault (RingIndex → NetPacket) :=
  match q.isTransmit, q.packetRing with
  | false, some r => ignoreLoop sizes r rounds r.beginIndex q.packets
  | _, _ => .ok q.packets

/-- `evt_packet_queue_cancel`. -/
def evtPacketQueueCancel (sizes : ElementSizes) (rounds : Nat) (q : CancelledQueue) : Except Fault CancelledQueue := do
  let packets ← ignorePackets sizes rounds q
  return { q with
    packets := packets
    packetRing := q.packetRing.map NetRing.giveBack
    fragmentRing := q.fragmentRing.map NetRing.giveBack
    rxNotificationArmed := q.isTransmit && q.rxNotificationArmed }

end WinTap

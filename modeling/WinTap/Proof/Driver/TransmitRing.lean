import Mathlib.Algebra.Order.BigOperators.Group.Finset
import WinTap.Driver.TransmitRing
import WinTap.Proof.Driver.NetRings

/-!
# TX capture accounts for every packet and every byte

Every round of `capture_transmit_packets` takes one packet from the packet ring and its fragments from the fragment
ring, whichever way the round ends. `Captured` counts the two apart: the packets that the rings are past, and the
packets that may have been handed on. A round first hands its packet on, if it does, and then moves the rings.

The two passes over the fragments go through the same indices. The first finds them in bounds and adds up their
lengths, and the copies of the second then fit and lie side by side.
-/

namespace WinTap

variable {b j n offset total total' : Nat} {i : RingIndex} {buffer : List UInt8} {indices : List RingIndex}
  {result : Except Fault (Option (List UInt8 × Nat))}

namespace TxRings

/-! ### What the rings hold -/

/-- The `FragmentCount` of the packet that is `j` places after `BeginIndex`. -/
def count (s : TxRings) (j : Nat) : Nat := (s.packets (s.packetRing.position j)).fragmentCount.toNat

/-- The number of fragments of the first `j` packets. -/
def countBefore (s : TxRings) (j : Nat) : Nat := ∑ i ∈ Finset.range j, s.count i

theorem countBefore_succ (s : TxRings) (j : Nat) : s.countBefore (j + 1) = s.countBefore j + s.count j :=
  Finset.sum_range_succ ..

theorem countBefore_mono (s : TxRings) {i j : Nat} (h : i ≤ j) : s.countBefore i ≤ s.countBefore j :=
  Finset.sum_le_sum_of_subset (Finset.range_mono h)

/-- The indices of the fragments of a packet. -/
def fragmentsOf (s : TxRings) (j : Nat) : List RingIndex :=
  (List.range' (s.countBefore j) (s.count j)).map s.fragmentRing.position

/-- A fragment has an address and stays within its buffer. -/
def InBounds (s : TxRings) (i : RingIndex) : Prop :=
  (s.buffers i).isSome = true ∧ (s.fragments i).offset ≤ (s.fragments i).capacity ∧
    (s.fragments i).validLength ≤ (s.fragments i).capacity - (s.fragments i).offset

/-- The valid range of a fragment. -/
def validRange (s : TxRings) (i : RingIndex) : List UInt8 :=
  (((s.buffers i).getD []).drop (s.fragments i).offset).take (s.fragments i).validLength

def totalLength (s : TxRings) (indices : List RingIndex) : Nat :=
  (indices.map fun i => (s.fragments i).validLength).sum

theorem totalLength_cons (s : TxRings) (i : RingIndex) (indices : List RingIndex) :
    s.totalLength (i :: indices) = (s.fragments i).validLength + s.totalLength indices := rfl

/-- A buffer is at least as long as the capacity its fragment states. -/
def BuffersFit (s : TxRings) : Prop :=
  ∀ i buffer, s.buffers i = some buffer → (s.fragments i).capacity ≤ buffer.length

/-- What NetAdapterCx keeps to in the rings of a TX queue. -/
structure Contract (sizes : ElementSizes) (s : TxRings) : Prop where
  packetRing : s.packetRing.InRange
  fragmentRing : s.fragmentRing.InRange
  packetsValid : s.packetRing.ringIsValid = true
  fragmentsValid : s.fragmentRing.ringIsValid = true
  packetSize : sizes.packet ≤ s.packetRing.elementStride.toNat
  consecutive : ∀ j < s.packetRing.owned, s.count j ≠ 0 →
    (s.packets (s.packetRing.position j)).fragmentIndex = s.fragmentRing.position (s.countBefore j)
  enough : s.countBefore s.packetRing.owned ≤ s.fragmentRing.owned
  fits : s.BuffersFit

end TxRings

/-- The packet and the bytes, where an event hands a packet on. -/
def TxEvent.handed : TxEvent → Option (RingIndex × List UInt8)
  | .delivered packet bytes => some (packet, bytes)
  | .queued packet bytes => some (packet, bytes)
  | _ => none

/-- The bytes are what packet `j` may be handed on with. -/
structure Deliverable (maximum : Nat) (s : TxRings) (j : Nat) (bytes : List UInt8) : Prop where
  inBounds : ∀ i ∈ s.fragmentsOf j, s.InBounds i
  minimum : frameMinimum ≤ s.totalLength (s.fragmentsOf j)
  maximum : s.totalLength (s.fragmentsOf j) ≤ maximum
  bytes : bytes = (s.fragmentsOf j).flatMap s.validRange

variable {sizes : ElementSizes} {extension : NetExtension} {maximum : Nat} {s s₀ : TxRings}

/-! ### The two passes -/

theorem validateFragment_eq_some {fragment : NetFragment} {buffer : Option (List UInt8)}
    (h : validateFragment maximum fragment buffer total = some total') :
    buffer.isSome = true ∧ fragment.offset ≤ fragment.capacity ∧
      fragment.validLength ≤ fragment.capacity - fragment.offset ∧ total' = total + fragment.validLength := by
  unfold validateFragment at h
  split at h
  · cases h
  split at h
  · rename_i hchecks
    cases h
    exact ⟨rfl, hchecks.1, hchecks.2.1, rfl⟩
  · cases h

/-- The first pass finds every fragment in bounds, and their total length. -/
theorem validateFragments_eq_some (hring : s.fragmentRing.InRange)
    (h : validateFragments sizes extension maximum s n (s.fragmentRing.position b) total = some total') :
    (∀ i ∈ (List.range' b n).map s.fragmentRing.position, s.InBounds i) ∧
      total' = total + s.totalLength ((List.range' b n).map s.fragmentRing.position) := by
  induction n generalizing b total with
  | zero =>
    cases h
    exact ⟨nofun, rfl⟩
  | succ n ih =>
    simp only [validateFragments, Option.bind_eq_bind, Option.bind_eq_some_iff] at h
    obtain ⟨fragment, hfragment, address, haddress, subtotal, hvalidate, next, hnext, hrest⟩ := h
    obtain ⟨rfl, hvalid⟩ := hring.elementAt_eq hfragment
    obtain rfl := extension.fragmentVirtualAddress_eq haddress
    rw [hring.incrementIndex_position hvalid] at hnext
    cases hnext
    obtain ⟨hsome, hoffset, hlength, rfl⟩ := validateFragment_eq_some hvalidate
    obtain ⟨hbounds, rfl⟩ := ih hrest
    rw [List.range'_succ, List.map_cons]
    refine ⟨List.forall_mem_cons.mpr ⟨⟨hsome, hoffset, hlength⟩, hbounds⟩, ?_⟩
    rw [TxRings.totalLength_cons, Nat.add_assoc]

theorem TxRings.InBounds.fragmentData (hfits : s.BuffersFit) (h : s.InBounds i) :
    fragmentData (s.fragments i) (s.buffers i) = .ok (s.validRange i) ∧
      (s.validRange i).length = (s.fragments i).validLength := by
  obtain ⟨hsome, hoffset, hlength⟩ := h
  obtain ⟨buffer, hbuffer⟩ := Option.isSome_iff_exists.mp hsome
  have hcapacity := hfits i buffer hbuffer
  have hrange : (s.fragments i).offset + (s.fragments i).validLength ≤ buffer.length := by omega
  simp only [WinTap.fragmentData, TxRings.validRange, hbuffer, Option.getD_some, readBuffer, if_pos hrange,
    List.length_take, List.length_drop, true_and]
  omega

/-- How the copies of some fragments into a buffer end: one of them is refused, or all lie side by side. -/
inductive CopyOutcome (s : TxRings) (buffer : List UInt8) (offset : Nat) (indices : List RingIndex) :
    Except Fault (Option (List UInt8 × Nat)) → Prop
  | refused : CopyOutcome s buffer offset indices (.ok none)
  | copied {buffer' : List UInt8}
      (hbytes : buffer'.take (offset + s.totalLength indices) = buffer.take offset ++ indices.flatMap s.validRange) :
    CopyOutcome s buffer offset indices (.ok (some (buffer', offset + s.totalLength indices)))

theorem CopyOutcome.cons (hlength : (s.validRange i).length = (s.fragments i).validLength)
    (hoffset : offset ≤ buffer.length)
    (h : CopyOutcome s (Splice.splice buffer offset (s.validRange i)) (offset + (s.validRange i).length) indices
      result) :
    CopyOutcome s buffer offset (i :: indices) result := by
  have htotal : offset + (s.validRange i).length + s.totalLength indices = offset + s.totalLength (i :: indices) := by
    rw [hlength, TxRings.totalLength_cons, Nat.add_assoc]
  cases h with
  | refused => exact .refused
  | copied hbytes =>
    rw [htotal] at hbytes ⊢
    refine .copied ?_
    rw [hbytes, Splice.take_splice hoffset, List.flatMap_cons, List.append_assoc]

theorem CopyOutcome.eq_ok (h : CopyOutcome s buffer offset indices result) : ∃ copied, result = .ok copied := by
  cases h with
  | refused => exact ⟨_, rfl⟩
  | copied _ => exact ⟨_, rfl⟩

theorem copyFragments_outcome (hring : s.fragmentRing.InRange) (hfits : s.BuffersFit) {output : List UInt8}
    (hbounds : ∀ i ∈ (List.range' b n).map s.fragmentRing.position, s.InBounds i)
    (hroom : offset + s.totalLength ((List.range' b n).map s.fragmentRing.position) ≤ output.length) :
    CopyOutcome s output offset ((List.range' b n).map s.fragmentRing.position)
      ((ReadDelivery.copyFragments sizes extension s n (s.fragmentRing.position b) output offset).map fun copied =>
        copied.2.map (copied.1, ·)) := by
  induction n generalizing b offset output with
  | zero => exact .copied (List.append_nil _).symm
  | succ n ih =>
    rw [List.range'_succ, List.map_cons] at hbounds hroom ⊢
    obtain ⟨hfirst, hothers⟩ := List.forall_mem_cons.mp hbounds
    obtain ⟨hdata, hlength⟩ := hfirst.fragmentData hfits
    rw [TxRings.totalLength_cons, ← hlength] at hroom
    unfold ReadDelivery.copyFragments
    split
    swap
    · exact .refused
    rename_i fragment hfragment
    obtain ⟨rfl, hvalid⟩ := hring.elementAt_eq hfragment
    split
    swap
    · exact .refused
    rename_i address haddress
    obtain rfl := extension.fragmentVirtualAddress_eq haddress
    have hwrite : writeBuffer output offset (s.validRange (s.fragmentRing.position b)) =
        .ok (Splice.splice output offset (s.validRange (s.fragmentRing.position b))) := if_pos (by omega)
    simp only [hdata, hwrite, bind, Except.bind, hring.incrementIndex_position hvalid]
    refine .cons hlength (by omega) (ih hothers ?_)
    rw [Splice.length_splice (by omega)]
    exact Nat.add_assoc .. ▸ hroom

theorem copyToFrame_outcome (hring : s.fragmentRing.InRange) (hfits : s.BuffersFit) {data : List UInt8}
    (hbounds : ∀ i ∈ (List.range' b n).map s.fragmentRing.position, s.InBounds i) (hdata : data.length = frameMaximum)
    (hoffset : offset ≤ frameMaximum) :
    CopyOutcome s data offset ((List.range' b n).map s.fragmentRing.position)
      (copyToFrame sizes extension s n (s.fragmentRing.position b) data offset) := by
  induction n generalizing b offset data with
  | zero => exact .copied (List.append_nil _).symm
  | succ n ih =>
    rw [List.range'_succ, List.map_cons] at hbounds ⊢
    obtain ⟨hfirst, hothers⟩ := List.forall_mem_cons.mp hbounds
    obtain ⟨hread, hlength⟩ := hfirst.fragmentData hfits
    unfold copyToFrame
    split
    swap
    · exact .refused
    rename_i fragment hfragment
    obtain ⟨rfl, hvalid⟩ := hring.elementAt_eq hfragment
    split
    swap
    · exact .refused
    rename_i address haddress
    obtain rfl := extension.fragmentVirtualAddress_eq haddress
    by_cases hroom : frameMaximum < offset ∨ frameMaximum - offset < (s.validRange (s.fragmentRing.position b)).length
    · have hrefuse : copyFromSlice data offset (s.validRange (s.fragmentRing.position b)) = .ok none := if_pos hroom
      simp only [hread, hrefuse, bind, Except.bind]
      exact .refused
    · rw [not_or, Nat.not_lt, Nat.not_lt] at hroom
      have hwrite : copyFromSlice data offset (s.validRange (s.fragmentRing.position b)) =
          .ok (some (Splice.splice data offset (s.validRange (s.fragmentRing.position b)))) := by
        rw [copyFromSlice, if_neg (by omega), writeBuffer, if_pos (by omega)]
        rfl
      simp only [hread, hwrite, bind, Except.bind, hring.incrementIndex_position hvalid]
      refine .cons hlength (by omega) (ih hothers ?_ (by omega))
      rw [Splice.length_splice (by omega), hdata]

/-! ### One round -/

/-- The rings are past `j` packets with their fragments, and only packets before the `k`th have been handed on, each
at most once and with its own bytes. -/
structure Captured (maximum : Nat) (s₀ s : TxRings) (j k : Nat) : Prop where
  packetRing : s.packetRing = s₀.packetRing.moved j
  fragmentRing : s.fragmentRing = s₀.fragmentRing.moved (s₀.countBefore j)
  packets : ∀ i, (s.packets i).fragmentIndex = (s₀.packets i).fragmentIndex ∧
    (s.packets i).fragmentCount = (s₀.packets i).fragmentCount
  fragments : s.fragments = s₀.fragments
  buffers : s.buffers = s₀.buffers
  events : ∃ events, s.events = s₀.events ++ events ∧
    ((events.filterMap TxEvent.handed).map Prod.fst).Nodup ∧
    ∀ packet bytes, (packet, bytes) ∈ events.filterMap TxEvent.handed →
      ∃ i < k, packet = s₀.packetRing.position i ∧ Deliverable maximum s₀ i bytes

namespace Captured

variable {j k : Nat}

theorem start (hpackets : s.packetRing.InRange) (hfragments : s.fragmentRing.InRange) : Captured maximum s s 0 0 where
  packetRing := hpackets.moved_zero.symm
  fragmentRing := hfragments.moved_zero.symm
  packets _ := ⟨rfl, rfl⟩
  fragments := rfl
  buffers := rfl
  events := ⟨[], (List.append_nil _).symm, List.nodup_nil, nofun⟩

theorem setIgnore (h : Captured maximum s₀ s j k) (packet : RingIndex) :
    Captured maximum s₀ (s.setIgnore packet) j k where
  packetRing := h.packetRing
  fragmentRing := h.fragmentRing
  packets i := by
    rw [← (h.packets i).1, ← (h.packets i).2, TxRings.setIgnore]
    by_cases hi : i = packet
    · subst hi
      simp only [Function.update_self, and_self]
    · simp only [Function.update_of_ne hi, and_self]
  fragments := h.fragments
  buffers := h.buffers
  events := h.events

theorem tell_silent (h : Captured maximum s₀ s j k) {events : List TxEvent}
    (hsilent : events.filterMap TxEvent.handed = []) : Captured maximum s₀ (s.tell events) j k where
  packetRing := h.packetRing
  fragmentRing := h.fragmentRing
  packets := h.packets
  fragments := h.fragments
  buffers := h.buffers
  events := by
    obtain ⟨earlier, hevents, hearlier⟩ := h.events
    refine ⟨earlier ++ events, ?_, ?_⟩
    · rw [TxRings.tell, hevents, List.append_assoc]
    · rwa [List.filterMap_append, hsilent, List.append_nil]

theorem tell_handed (h : Captured maximum s₀ s j j) (hring : s₀.packetRing.InRange) (hj : j < s₀.packetRing.owned)
    {event : TxEvent} {bytes : List UInt8} (hevent : event.handed = some (s₀.packetRing.position j, bytes))
    (hbytes : Deliverable maximum s₀ j bytes) : Captured maximum s₀ (s.tell [event]) j (j + 1) where
  packetRing := h.packetRing
  fragmentRing := h.fragmentRing
  packets := h.packets
  fragments := h.fragments
  buffers := h.buffers
  events := by
    obtain ⟨earlier, hevents, hnodup, hearlier⟩ := h.events
    have hhanded : (earlier ++ [event]).filterMap TxEvent.handed =
        earlier.filterMap TxEvent.handed ++ [(s₀.packetRing.position j, bytes)] := by
      rw [List.filterMap_append, List.filterMap_cons_some hevent, List.filterMap_nil]
    -- the packets before it are at other places of the ring
    have hnew : s₀.packetRing.position j ∉ (earlier.filterMap TxEvent.handed).map Prod.fst := by
      intro hmem
      obtain ⟨⟨packet, other⟩, hother, hpacket⟩ := List.mem_map.mp hmem
      obtain ⟨i, hi, rfl, -⟩ := hearlier packet other hother
      have hlt := hring.owned_lt
      exact Nat.ne_of_lt hi (hring.position_injective (by omega) (by omega) hpacket)
    refine ⟨earlier ++ [event], ?_, ?_, fun packet other hmem => ?_⟩
    · rw [TxRings.tell, hevents, List.append_assoc]
    · rw [hhanded, List.map_append, List.map_singleton, ← List.concat_eq_append]
      exact List.Nodup.concat hnew hnodup
    · rw [hhanded, List.mem_append, List.mem_singleton] at hmem
      obtain hmem | hmem := hmem
      · obtain ⟨i, hi, hpacket⟩ := hearlier packet other hmem
        exact ⟨i, by omega, hpacket⟩
      · cases hmem
        exact ⟨j, Nat.lt_succ_self j, rfl, hbytes⟩

theorem legacyRead (h : Captured maximum s₀ s j k) (captured : Bool) :
    Captured maximum s₀ { s with capturedForLegacyRead := captured } j k where
  packetRing := h.packetRing
  fragmentRing := h.fragmentRing
  packets := h.packets
  fragments := h.fragments
  buffers := h.buffers
  events := h.events

theorem weaken (h : Captured maximum s₀ s j j) : Captured maximum s₀ s j (j + 1) where
  packetRing := h.packetRing
  fragmentRing := h.fragmentRing
  packets := h.packets
  fragments := h.fragments
  buffers := h.buffers
  events := by
    obtain ⟨events, hevents, hnodup, hhanded⟩ := h.events
    refine ⟨events, hevents, hnodup, fun packet bytes hmem => ?_⟩
    obtain ⟨i, hi, hpacket⟩ := hhanded packet bytes hmem
    exact ⟨i, by omega, hpacket⟩

theorem packetBegin (h : Captured maximum s₀ s j k) : s.packetRing.beginIndex = s₀.packetRing.position j := by
  rw [h.packetRing]
  rfl

theorem passPacket (hcontract : s₀.Contract sizes) (h : Captured maximum s₀ s j (j + 1)) {count : BitVec 32}
    (hcount : count.toNat = s₀.count j) :
    ∃ s', passPacket s (s₀.packetRing.position j) (s₀.fragmentRing.position (s₀.countBefore j)) count = .again s' ∧
      Captured maximum s₀ s' (j + 1) (j + 1) := by
  have hpacket : s.packetRing.incrementIndex (s₀.packetRing.position j) = some (s₀.packetRing.position (j + 1)) := by
    rw [h.packetRing]
    exact hcontract.packetRing.incrementIndex_position hcontract.packetsValid j
  have hfragment : s.fragmentRing.advanceIndex (s₀.fragmentRing.position (s₀.countBefore j)) count =
      some (s₀.fragmentRing.position (s₀.countBefore (j + 1))) := by
    rw [h.fragmentRing, TxRings.countBefore_succ, ← hcount]
    exact hcontract.fragmentRing.advanceIndex_position hcontract.fragmentsValid _ count
  rw [WinTap.passPacket, hpacket, hfragment]
  refine ⟨_, rfl, ?_, ?_, h.packets, h.fragments, h.buffers, h.events⟩
  · rw [h.packetRing]
    rfl
  · rw [h.fragmentRing]
    rfl

theorem skipPacket (hcontract : s₀.Contract sizes) (h : Captured maximum s₀ s j (j + 1)) (hcount : s₀.count j = 0)
    (packet : RingIndex) :
    ∃ s', skipPacket s packet (s₀.packetRing.position j) = .again s' ∧ Captured maximum s₀ s' (j + 1) (j + 1) := by
  have hpacket : (s.setIgnore packet).packetRing.incrementIndex (s₀.packetRing.position j) =
      some (s₀.packetRing.position (j + 1)) := by
    rw [(h.setIgnore packet).packetRing]
    exact hcontract.packetRing.incrementIndex_position hcontract.packetsValid j
  have hignored := h.setIgnore packet
  rw [WinTap.skipPacket, hpacket]
  refine ⟨_, rfl, ?_, ?_, hignored.packets, hignored.fragments, hignored.buffers, hignored.events⟩
  · rw [hignored.packetRing]
    rfl
  · rw [TxRings.countBefore_succ, hcount, Nat.add_zero]
    exact hignored.fragmentRing

/-- The indices that the two passes go through. -/
theorem fragmentsOf (hring : s₀.fragmentRing.InRange) (h : Captured maximum s₀ s j k) :
    (List.range' 0 (s₀.count j)).map s.fragmentRing.position = s₀.fragmentsOf j := by
  have hposition : s.fragmentRing.position = s₀.fragmentRing.position ∘ (s₀.countBefore j + ·) := by
    rw [h.fragmentRing]
    exact funext (hring.position_moved _)
  rw [hposition, ← List.map_map, List.map_add_range', TxRings.fragmentsOf, Nat.add_zero]

/-- The fragments of the next packet are the next ones, and the driver has them all. -/
theorem nextFragments (hcontract : s₀.Contract sizes) (hj : j < s₀.packetRing.owned) (h : Captured maximum s₀ s j k)
    (hcount : s₀.count j ≠ 0) :
    (s.packets (s₀.packetRing.position j)).fragmentIndex = s₀.fragmentRing.position (s₀.countBefore j) ∧
      s₀.fragmentRing.position (s₀.countBefore j) ≠ s.fragmentRing.endIndex ∧
      s₀.count j ≤ s.fragmentRing.numberOfElements.toNat := by
  have henough : s₀.countBefore j + s₀.count j ≤ s₀.fragmentRing.owned := by
    rw [← TxRings.countBefore_succ]
    exact Nat.le_trans (s₀.countBefore_mono hj) hcontract.enough
  have hlt := hcontract.fragmentRing.owned_lt
  refine ⟨?_, ?_, ?_⟩
  · rw [(h.packets _).1, hcontract.consecutive j hj hcount]
  · rw [h.fragmentRing]
    exact hcontract.fragmentRing.position_ne_end (by omega)
  · rw [h.fragmentRing]
    change _ ≤ s₀.fragmentRing.numberOfElements.toNat
    omega

theorem inBounds (h : Captured maximum s₀ s j k) (i : RingIndex) : s.InBounds i ↔ s₀.InBounds i := by
  rw [TxRings.InBounds, TxRings.InBounds, h.fragments, h.buffers]

theorem totalLength (h : Captured maximum s₀ s j k) (indices : List RingIndex) :
    s.totalLength indices = s₀.totalLength indices := by
  rw [TxRings.totalLength, TxRings.totalLength, h.fragments]

theorem validRange (h : Captured maximum s₀ s j k) : s.validRange = s₀.validRange := by
  funext i
  rw [TxRings.validRange, TxRings.validRange, h.fragments, h.buffers]

theorem buffersFit (h : Captured maximum s₀ s j k) (hfits : s₀.BuffersFit) : s.BuffersFit := by
  rw [TxRings.BuffersFit, h.fragments, h.buffers]
  exact hfits

end Captured

/-- Direct delivery takes the packet and hands its bytes on, or hands nothing on. -/
theorem deliverTransmitPacketToRead_cases (sizes : ElementSizes) (extension : NetExtension)
    (hring : s.fragmentRing.InRange) (hfits : s.BuffersFit)
    (hbounds : ∀ i ∈ (List.range' 0 n).map s.fragmentRing.position, s.InBounds i) (direct : Option DirectRead)
    (packet : RingIndex) :
    ∃ events taken, deliverTransmitPacketToRead sizes extension s direct packet (s.fragmentRing.position 0) n
        (s.totalLength ((List.range' 0 n).map s.fragmentRing.position)) = .ok (events, taken) ∧
      (taken = true ∧
          events = [.delivered packet (((List.range' 0 n).map s.fragmentRing.position).flatMap s.validRange)] ∨
        taken = false ∧ events.filterMap TxEvent.handed = []) := by
  unfold deliverTransmitPacketToRead ReadDelivery.deliverTransmitPacketToRead
  obtain _ | read := direct
  · exact ⟨_, _, rfl, .inr ⟨rfl, rfl⟩⟩
  dsimp only
  split
  · exact ⟨_, _, rfl, .inr ⟨rfl, rfl⟩⟩
  split
  · exact ⟨_, _, rfl, .inr ⟨rfl, rfl⟩⟩
  rename_i hroom
  have hcopy : CopyOutcome s read.output 0 ((List.range' 0 n).map s.fragmentRing.position)
      ((ReadDelivery.copyFragments sizes extension s n (s.fragmentRing.position 0) read.output 0).map fun copied =>
        copied.2.map (copied.1, ·)) :=
    copyFragments_outcome hring hfits hbounds (by omega)
  generalize ReadDelivery.copyFragments sizes extension s n (s.fragmentRing.position 0) read.output 0 = result
    at hcopy ⊢
  rcases result with fault | ⟨output, _ | offset⟩
  · cases hcopy
  · exact ⟨_, _, rfl, .inr ⟨rfl, rfl⟩⟩
  · cases hcopy with
    | copied hbytes =>
      rw [List.take_zero, List.nil_append] at hbytes
      exact ⟨_, _, rfl, .inl ⟨rfl, congrArg (fun bytes => [TxEvent.delivered packet bytes]) hbytes⟩⟩

namespace Captured

/-- A filled frame goes into the capture queue with the bytes of its packet, or is dropped. -/
theorem enqueueCaptured (hring : s₀.packetRing.InRange) (hj : j < s₀.packetRing.owned)
    (h : Captured maximum s₀ s j j) (choices : TxChoices) {storage : List UInt8}
    {copied : Option (List UInt8 × Nat)} (hcopied : CopyOutcome s storage 0 (s₀.fragmentsOf j) (.ok copied))
    (hpacket : Deliverable maximum s₀ j ((s₀.fragmentsOf j).flatMap s₀.validRange)) :
    Captured maximum s₀ (enqueueCaptured s choices (s₀.packetRing.position j) (s.totalLength (s₀.fragmentsOf j)) copied)
      j (j + 1) := by
  cases hcopied with
  | refused => exact h.weaken
  | @copied data hbytes =>
    unfold WinTap.enqueueCaptured
    dsimp only
    rw [Nat.zero_add, if_neg (not_not.mpr rfl)]
    rw [Nat.zero_add, List.take_zero, List.nil_append] at hbytes
    rw [hbytes, h.validRange]
    split
    · exact (h.setIgnore _).weaken
    split
    swap
    · exact h.weaken
    have htold : Captured maximum s₀ (s.tell [.queued (s₀.packetRing.position j)
        ((s₀.fragmentsOf j).flatMap s₀.validRange)]) j (j + 1) := h.tell_handed hring hj rfl hpacket
    split
    · exact htold
    · exact htold.legacyRead true

end Captured

/-- A round takes the next packet from the ring, whatever becomes of it. -/
theorem capturePacketRound_captured (extension : NetExtension) (hcontract : s₀.Contract sizes)
    (hj : j < s₀.packetRing.owned) (h : Captured maximum s₀ s j j) (choices : TxChoices) :
    ∃ s', capturePacketRound sizes extension maximum true s choices = .ok (.again s') ∧
      Captured maximum s₀ s' (j + 1) (j + 1) := by
  have hbegin := h.packetBegin
  have hnotEnd : s₀.packetRing.position j ≠ s.packetRing.endIndex := by
    rw [h.packetRing]
    exact hcontract.packetRing.position_ne_end hj
  have hpacketAt : s.packetRing.packetAt sizes (s₀.packetRing.position j) = some (s₀.packetRing.position j) := by
    rw [h.packetRing]
    exact hcontract.packetRing.elementAt_position hcontract.packetsValid hcontract.packetSize j
  unfold capturePacketRound
  dsimp only
  rw [hbegin, if_neg hnotEnd, hpacketAt]
  dsimp only
  have hcount : ((s.packets (s₀.packetRing.position j)).fragmentCount.setWidth 32).toNat = s₀.count j := by
    rw [BitVec.toNat_setWidth_of_le (by decide), (h.packets _).2]
    rfl
  generalize (s.packets (s₀.packetRing.position j)).fragmentCount.setWidth 32 = count at hcount ⊢
  by_cases hzero : count = 0
  · rw [if_pos hzero]
    obtain ⟨s', hskip, hcaptured⟩ :=
      h.weaken.skipPacket hcontract (by rw [← hcount, hzero]; rfl) (s₀.packetRing.position j)
    exact ⟨s', congrArg Except.ok hskip, hcaptured⟩
  have hpos : s₀.count j ≠ 0 := by
    rw [← hcount]
    exact fun hnat => hzero (BitVec.eq_of_toNat_eq hnat)
  obtain ⟨hfragmentIndex, hfragmentEnd, hfragmentCount⟩ := h.nextFragments hcontract hj hpos
  rw [← hcount] at hfragmentCount
  rw [if_neg hzero, hfragmentIndex, if_neg (not_or.mpr ⟨hfragmentEnd, BitVec.not_lt.mpr hfragmentCount⟩), hcount]
  have hring : s.fragmentRing.InRange := h.fragmentRing ▸ hcontract.fragmentRing.moved _
  have hfirst : s₀.fragmentRing.position (s₀.countBefore j) = s.fragmentRing.position 0 := by
    rw [hring.position_zero, h.fragmentRing]
    rfl
  have hindices := h.fragmentsOf hcontract.fragmentRing
  have hdrop : ∃ s', WinTap.passPacket (s.setIgnore (s₀.packetRing.position j)) (s₀.packetRing.position j)
      (s₀.fragmentRing.position (s₀.countBefore j)) count = .again s' ∧ Captured maximum s₀ s' (j + 1) (j + 1) :=
    (h.setIgnore _).weaken.passPacket hcontract hcount
  split
  · obtain ⟨s', hpass, hcaptured⟩ := hdrop
    exact ⟨s', congrArg Except.ok hpass, hcaptured⟩
  rename_i total hvalidate
  rw [hfirst] at hvalidate
  obtain ⟨hbounds, htotal⟩ := validateFragments_eq_some hring hvalidate
  rw [hindices, Nat.zero_add] at htotal
  subst htotal
  split
  · obtain ⟨s', hpass, hcaptured⟩ := hdrop
    exact ⟨s', congrArg Except.ok hpass, hcaptured⟩
  rename_i hlength
  rw [not_or, Nat.not_lt, Nat.not_lt, h.totalLength] at hlength
  have hdeliverable : Deliverable maximum s₀ j ((s₀.fragmentsOf j).flatMap s₀.validRange) :=
    ⟨fun i hi => (h.inBounds i).mp (hbounds i (hindices ▸ hi)), hlength.1, hlength.2, rfl⟩
  have hfits := h.buffersFit hcontract.fits
  obtain ⟨events, taken, hdeliver, houtcome⟩ := deliverTransmitPacketToRead_cases sizes extension
    hring hfits hbounds choices.direct (s₀.packetRing.position j)
  rw [hindices, ← hfirst] at hdeliver
  rw [hindices, h.validRange] at houtcome
  simp only [hdeliver, bind, Except.bind]
  obtain ⟨rfl, rfl⟩ | ⟨rfl, hsilent⟩ := houtcome
  · have htold : Captured maximum s₀ (s.tell [.delivered (s₀.packetRing.position j)
        ((s₀.fragmentsOf j).flatMap s₀.validRange)]) j (j + 1) :=
      h.tell_handed hcontract.packetRing hj rfl hdeliverable
    obtain ⟨s', hpass, hcaptured⟩ := htold.passPacket hcontract hcount
    exact ⟨s', congrArg Except.ok hpass, hcaptured⟩
  have htold := h.tell_silent hsilent
  simp only [Bool.false_eq_true, ↓reduceIte, Bool.not_true]
  split
  · obtain ⟨s', hpass, hcaptured⟩ := (htold.setIgnore (s₀.packetRing.position j)).weaken.passPacket hcontract hcount
    exact ⟨s', congrArg Except.ok hpass, hcaptured⟩
  rename_i storage _
  have hcopy : CopyOutcome (s.tell events) storage.toList 0
      ((List.range' 0 (s₀.count j)).map (s.tell events).fragmentRing.position)
      (copyToFrame sizes extension (s.tell events) (s₀.count j) ((s.tell events).fragmentRing.position 0)
        storage.toList 0) :=
    copyToFrame_outcome (s := s.tell events) hring hfits hbounds storage.length_toList (Nat.zero_le _)
  rw [htold.fragmentsOf hcontract.fragmentRing] at hcopy
  change CopyOutcome _ _ _ _ (copyToFrame _ _ _ _ (s.fragmentRing.position 0) _ _) at hcopy
  rw [← hfirst] at hcopy
  obtain ⟨copied, hresult⟩ := hcopy.eq_ok
  rw [hresult] at hcopy ⊢
  obtain ⟨s', hpass, hcaptured⟩ :=
    (htold.enqueueCaptured hcontract.packetRing hj choices hcopy hdeliverable).passPacket hcontract hcount
  exact ⟨s', congrArg Except.ok hpass, hcaptured⟩

theorem captureLoop_captured (extension : NetExtension) (hcontract : s₀.Contract sizes) {j rounds : Nat}
    (hj : j ≤ s₀.packetRing.owned) (hrounds : s₀.packetRing.owned - j < rounds) (h : Captured maximum s₀ s j j)
    (choices : Nat → TxChoices) :
    ∃ s', captureLoop sizes extension maximum true rounds choices s = .ok s' ∧
      Captured maximum s₀ s' s₀.packetRing.owned s₀.packetRing.owned := by
  induction rounds generalizing s j choices with
  | zero => cases hrounds
  | succ rounds ih =>
    unfold captureLoop
    obtain hlt | rfl := Nat.lt_or_eq_of_le hj
    · obtain ⟨s₁, hround, hcaptured⟩ := capturePacketRound_captured extension hcontract hlt h (choices 0)
      rw [hround]
      exact ih hlt (by omega) hcaptured _
    · have hend : s.packetRing.beginIndex = s.packetRing.endIndex := by
        rw [h.packetBegin, hcontract.packetRing.position_owned, h.packetRing]
        rfl
      have hround : capturePacketRound sizes extension maximum true s (choices 0) = .ok (.done s) := by
        rw [capturePacketRound, if_pos hend]
        rfl
      rw [hround]
      exact ⟨s, rfl, h⟩

/-- For rings that keep to the contract of NetAdapterCx, and whatever the rest of the driver decides for each packet,
`capture_transmit_packets` ends with every packet taken from the packet ring and every fragment of theirs from the
fragment ring. A packet is handed on at most once, and with its own bytes. -/
theorem tx_capture_accounts (extension : NetExtension) (maximum : Nat) (choices : Nat → TxChoices)
    (hcontract : s.Contract sizes) {rounds : Nat} (hrounds : s.packetRing.owned < rounds) :
    ∃ s' events, captureTransmitPackets sizes extension maximum true .instanceOpen rounds choices s = .ok s' ∧
      s'.packetRing = { s.packetRing with beginIndex := s.packetRing.endIndex } ∧
      s'.fragmentRing = s.fragmentRing.moved (∑ j ∈ Finset.range s.packetRing.owned, s.count j) ∧
      s'.events = s.events ++ events ∧
      ((events.filterMap TxEvent.handed).map Prod.fst).Nodup ∧
      ∀ packet bytes, (packet, bytes) ∈ events.filterMap TxEvent.handed →
        ∃ j < s.packetRing.owned, packet = s.packetRing.position j ∧ Deliverable maximum s j bytes := by
  have hstart : Captured maximum s { s with capturedForLegacyRead := false } 0 0 :=
    (Captured.start hcontract.packetRing hcontract.fragmentRing).legacyRead false
  obtain ⟨s₁, hloop, hcaptured⟩ :=
    captureLoop_captured extension hcontract (Nat.zero_le _) hrounds hstart choices
  have hfinal : ∀ s', Captured maximum s s' s.packetRing.owned s.packetRing.owned →
      s'.packetRing = { s.packetRing with beginIndex := s.packetRing.endIndex } := by
    intro s' h
    rw [h.packetRing, NetRing.moved, hcontract.packetRing.position_owned]
  unfold captureTransmitPackets
  rw [if_neg (not_not.mpr rfl), hloop]
  have hlast : Captured maximum s (if s₁.capturedForLegacyRead then s₁.tell [.enqueueWorkItem] else s₁)
      s.packetRing.owned s.packetRing.owned := by
    split
    · exact hcaptured.tell_silent rfl
    · exact hcaptured
  obtain ⟨events, hevents, hnodup, hhanded⟩ := hlast.events
  exact ⟨_, events, rfl, hfinal _ hlast, hlast.fragmentRing, hevents, hnodup, hhanded⟩

/-- Three packets of the driver: one in two fragments, one without fragments, and one in a fragment too short for a
frame. -/
def smallTxRings : TxRings where
  packetRing := ⟨64, 4, 3, 2, 1⟩
  fragmentRing := ⟨16, 4, 3, 3, 2⟩
  packets i := match i with
    | 2 => ⟨3, 2, false, ⟨0, 0, 0⟩⟩
    | 0 => ⟨1, 1, false, ⟨0, 0, 0⟩⟩
    | _ => ⟨0, 0, false, ⟨0, 0, 0⟩⟩
  fragments _ := ⟨1, 10, 8⟩
  buffers i := some (List.replicate 10 (i.toNat.toUInt8))
  events := []
  capturedForLegacyRead := false

/-- The READ gets the first packet. -/
theorem tx_capture_accounts_small :
    ((captureTransmitPackets ⟨40, 8⟩ ⟨true, true, 8⟩ 1514 true .instanceOpen 4
        (fun _ => ⟨some ⟨statusSuccess, List.replicate 20 9⟩, none, true, false, true⟩) smallTxRings).toOption.map
      fun s' => (s'.packetRing.beginIndex, s'.fragmentRing.beginIndex, s'.events)) =
        some (1, 2, [.delivered 2 (List.replicate 8 3 ++ List.replicate 8 0)]) ∧
    ∃ s' events, captureTransmitPackets ⟨40, 8⟩ ⟨true, true, 8⟩ 1514 true .instanceOpen 4
        (fun _ => ⟨some ⟨statusSuccess, List.replicate 20 9⟩, none, true, false, true⟩) smallTxRings = .ok s' ∧
      s'.packetRing = { smallTxRings.packetRing with beginIndex := smallTxRings.packetRing.endIndex } ∧
      s'.fragmentRing = smallTxRings.fragmentRing.moved
        (∑ j ∈ Finset.range smallTxRings.packetRing.owned, smallTxRings.count j) ∧
      s'.events = smallTxRings.events ++ events ∧
      ((events.filterMap TxEvent.handed).map Prod.fst).Nodup ∧
      ∀ packet bytes, (packet, bytes) ∈ events.filterMap TxEvent.handed →
        ∃ j < smallTxRings.packetRing.owned, packet = smallTxRings.packetRing.position j ∧
          Deliverable 1514 smallTxRings j bytes := by
  refine ⟨by decide, tx_capture_accounts _ _ _ ⟨⟨⟨2, rfl⟩, by decide, by decide⟩, ⟨⟨2, rfl⟩, by decide, by decide⟩,
    by decide, by decide, by decide, by decide, by decide, fun i buffer hi => ?_⟩ (by decide)⟩
  cases hi
  exact Nat.le_of_eq (List.length_replicate).symm

end WinTap

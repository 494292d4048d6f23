import WinTap.Driver.QueueCancel
import WinTap.Proof.Driver.NetRings

/-!
# Going round a ring

In a valid ring of a power of two elements the two ways of stepping are the successor and the sum modulo the size, so
a walk from one index to another visits every element between them once. The loop of `evt_packet_queue_cancel` is such
a walk. The validity check itself lets other sizes through: their mask does not cover all indices, and a walk may stand
still.
-/

namespace WinTap

variable {index : RingIndex} {r : NetRing}

namespace NetRing

theorem incrementIndex_modular (hvalid : r.ringIsValid = true) (hsize : ∃ k, r.numberOfElements.toNat = 2 ^ k)
    (hindex : index.toNat < r.numberOfElements.toNat) :
    r.incrementIndex index = some (BitVec.ofNat 32 ((index.toNat + 1) % r.numberOfElements.toNat)) := by
  have hr : NetRing.InRange { r with beginIndex := index, endIndex := index } := ⟨hsize, hindex, hindex⟩
  have hstep := hr.incrementIndex_position hvalid 0
  rwa [hr.position_zero] at hstep

theorem advanceIndex_modular (hvalid : r.ringIsValid = true) (hsize : ∃ k, r.numberOfElements.toNat = 2 ^ k)
    (hindex : index.toNat < r.numberOfElements.toNat) (count : BitVec 32) :
    r.advanceIndex index count
      = some (BitVec.ofNat 32 ((index.toNat + count.toNat) % r.numberOfElements.toNat)) := by
  have hr : NetRing.InRange { r with beginIndex := index, endIndex := index } := ⟨hsize, hindex, hindex⟩
  have hstep := hr.advanceIndex_position hvalid 0 count
  rwa [hr.position_zero, Nat.zero_add] at hstep

/-- Stepping a number of times, as long as there is a next index. -/
def stepping (r : NetRing) (index : RingIndex) : Nat → Option RingIndex
  | 0 => some index
  | count + 1 => (r.stepping index count).bind r.incrementIndex

theorem stepping_modular (hvalid : r.ringIsValid = true) (hsize : ∃ k, r.numberOfElements.toNat = 2 ^ k)
    (hindex : index.toNat < r.numberOfElements.toNat) (count : Nat) :
    r.stepping index count = some (BitVec.ofNat 32 ((index.toNat + count) % r.numberOfElements.toNat)) := by
  induction count with
  | zero => rw [stepping, Nat.add_zero, Nat.mod_eq_of_lt hindex, BitVec.ofNat_toNat, BitVec.setWidth_eq]
  | succ count ih =>
    have hlt := Nat.mod_lt (index.toNat + count) (Nat.lt_of_le_of_lt (Nat.zero_le _) hindex)
    have hnat : (BitVec.ofNat 32 ((index.toNat + count) % r.numberOfElements.toNat)).toNat
        = (index.toNat + count) % r.numberOfElements.toNat :=
      Nat.mod_eq_of_lt (Nat.lt_trans hlt r.numberOfElements.isLt)
    rw [stepping, ih, Option.bind_some, incrementIndex_modular hvalid hsize (by rwa [hnat]), hnat, Nat.mod_add_mod,
      Nat.add_assoc]

theorem elementAt_index (hvalid : r.ringIsValid = true) (hsize : ∃ k, r.numberOfElements.toNat = 2 ^ k)
    (hindex : index.toNat < r.numberOfElements.toNat) {size : Nat} (hfits : size ≤ r.elementStride.toNat) :
    r.elementAt index size = some index := by
  have hr : NetRing.InRange { r with beginIndex := index, endIndex := index } := ⟨hsize, hindex, hindex⟩
  have hfound := hr.elementAt_position hvalid hfits 0
  rwa [hr.position_zero] at hfound

/-- The check lets a ring of another size through, but then some index of the ring has no next one. -/
theorem size_of_incrementIndex (hvalid : r.ringIsValid = true)
    (hnext : ∀ index : RingIndex, index.toNat < r.numberOfElements.toNat → r.incrementIndex index ≠ none) :
    ∃ k, r.numberOfElements.toNat = 2 ^ k := by
  have hmask := mask_of_valid hvalid
  simp only [ringIsValid, Bool.and_eq_true, decide_eq_true_eq, ne_eq] at hvalid
  refine Ring.eq_two_pow_of_covers hvalid.1.1 fun index hindex => ?_
  by_contra houtside
  have hout : r.outside index = true := by
    rw [outside, hmask]
    exact decide_eq_true houtside
  exact hnext index hindex (if_pos (by rw [hout, Bool.or_true]))

end NetRing

/-! ### The loop -/

/-- The packets from the `j`th of the driver's on are marked, and the others are as they were. -/
structure IgnoredFrom (r : NetRing) (j : Nat) (packets packets' : RingIndex → NetPacket) : Prop where
  marked : ∀ m, j ≤ m → m < r.owned → packets' (r.position m) = { packets (r.position m) with ignore := true }
  others : ∀ i, (∀ m, j ≤ m → m < r.owned → i ≠ r.position m) → packets' i = packets i

theorem IgnoredFrom.done (packets : RingIndex → NetPacket) : IgnoredFrom r r.owned packets packets where
  marked _ hm hlt := absurd hm (Nat.not_le.mpr hlt)
  others _ _ := rfl

theorem IgnoredFrom.cons (hr : r.InRange) {j : Nat} (hj : j < r.owned) {packets packets' : RingIndex → NetPacket}
    (h : IgnoredFrom r (j + 1) (ignorePacket packets (r.position j)) packets') : IgnoredFrom r j packets packets' := by
  have hlt := hr.owned_lt
  have hlater : ∀ m, j + 1 ≤ m → m < r.owned → r.position j ≠ r.position m := fun m hm hmlt heq =>
    absurd (hr.position_injective (by omega) (by omega) heq) (by omega)
  refine ⟨fun m hm hmlt => ?_, fun i hi => ?_⟩
  · obtain rfl | hm := Nat.eq_or_lt_of_le hm
    · rw [h.others _ hlater]
      exact Function.update_self ..
    · rw [h.marked m hm hmlt, ignorePacket, Function.update_of_ne (hlater m hm hmlt).symm]
  · rw [h.others i fun m hm hmlt => hi m (by omega) hmlt]
    exact Function.update_of_ne (hi j (Nat.le_refl j) hj) ..

theorem ignoreLoop_ignored (hr : r.InRange) (hvalid : r.ringIsValid = true) {sizes : ElementSizes}
    (hfits : sizes.packet ≤ r.elementStride.toNat) {rounds j : Nat} (hj : j ≤ r.owned) (hrounds : r.owned < j + rounds)
    (packets : RingIndex → NetPacket) :
    ∃ packets', ignoreLoop sizes r rounds (r.position j) packets = .ok packets' ∧
      IgnoredFrom r j packets packets' := by
  induction rounds generalizing j packets with
  | zero => omega
  | succ rounds ih =>
    obtain rfl | hlt := Nat.eq_or_lt_of_le hj
    · rw [ignoreLoop, if_pos hr.position_owned]
      exact ⟨packets, rfl, .done packets⟩
    · obtain ⟨packets', hloop, hignored⟩ := ih hlt (by omega) (ignorePacket packets (r.position j))
      refine ⟨packets', ?_, hignored.cons hr hlt⟩
      rw [ignoreLoop, if_neg (hr.position_ne_end hlt), NetRing.packetAt, hr.elementAt_position hvalid hfits,
        hr.incrementIndex_position hvalid]
      exact hloop

/-- In a valid ring every index has its successor modulo the size as the next one exactly when the size is a power of
two. Then advancing is stepping as often, every element is found, a walk from `BeginIndex` meets the driver's elements
one after the other and ends at `EndIndex`, and `evt_packet_queue_cancel` ends with exactly the driver's packets
marked. -/
theorem ring_steps_modular {r : NetRing} (hvalid : r.ringIsValid = true) :
    ((∀ index : RingIndex, index.toNat < r.numberOfElements.toNat →
        r.incrementIndex index = some (BitVec.ofNat 32 ((index.toNat + 1) % r.numberOfElements.toNat))) ↔
      ∃ k, r.numberOfElements.toNat = 2 ^ k) ∧
    ((∃ k, r.numberOfElements.toNat = 2 ^ k) →
      (∀ index : RingIndex, index.toNat < r.numberOfElements.toNat → ∀ count : BitVec 32,
        index.toNat + 1 < 2 ^ 32 ∧
        r.advanceIndex index count
          = some (BitVec.ofNat 32 ((index.toNat + count.toNat) % r.numberOfElements.toNat)) ∧
        r.advanceIndex index count = r.stepping index count.toNat ∧
        ∀ size ≤ r.elementStride.toNat, r.elementAt index size = some index) ∧
      (r.beginIndex.toNat < r.numberOfElements.toNat → r.endIndex.toNat < r.numberOfElements.toNat →
        (r.stepping r.beginIndex r.owned = some r.endIndex ∧
          (∀ j < r.owned, r.stepping r.beginIndex j = some (r.position j) ∧ r.position j ≠ r.endIndex) ∧
          ∀ i < r.owned, ∀ j < r.owned, r.position i = r.position j → i = j) ∧
        ∀ sizes : ElementSizes, sizes.packet ≤ r.elementStride.toNat → ∀ rounds, r.owned < rounds →
          ∀ q : CancelledQueue, q.packetRing = some r → q.isTransmit = false →
            ∃ q', evtPacketQueueCancel sizes rounds q = .ok q' ∧ IgnoredFrom r 0 q.packets q'.packets ∧
              q'.packetRing = some r.giveBack)) := by
  refine ⟨⟨fun hnext => ?_, fun hsize index => NetRing.incrementIndex_modular hvalid hsize⟩, fun hsize => ⟨?_, ?_⟩⟩
  · refine NetRing.size_of_incrementIndex hvalid fun index hindex hnone => ?_
    rw [hnext index hindex] at hnone
    cases hnone
  · intro index hindex count
    have hadvance := NetRing.advanceIndex_modular hvalid hsize hindex count
    refine ⟨Nat.lt_of_le_of_lt hindex r.numberOfElements.isLt, hadvance, ?_, fun size hfits => ?_⟩
    · rw [hadvance, NetRing.stepping_modular hvalid hsize hindex]
    · exact NetRing.elementAt_index hvalid hsize hindex hfits
  · intro hbegin hend
    have hr : r.InRange := ⟨hsize, hbegin, hend⟩
    have hwalk : ∀ j, r.stepping r.beginIndex j = some (r.position j) := NetRing.stepping_modular hvalid hsize hbegin
    have hlt := hr.owned_lt
    refine ⟨⟨?_, fun j hj => ⟨hwalk j, hr.position_ne_end hj⟩, fun i hi j hj heq => ?_⟩, ?_⟩
    · rw [hwalk, hr.position_owned]
    · exact hr.position_injective (by omega) (by omega) heq
    · intro sizes hfits rounds hrounds q hring hreceive
      obtain ⟨packets', hloop, hignored⟩ :=
        ignoreLoop_ignored hr hvalid hfits (Nat.zero_le _) (by omega : r.owned < 0 + rounds) q.packets
      rw [hr.position_zero] at hloop
      have hpackets : ignorePackets sizes rounds q = .ok packets' := by
        rw [ignorePackets, hring, hreceive]
        exact hloop
      rw [evtPacketQueueCancel, hpackets, hring]
      exact ⟨_, rfl, hignored, rfl⟩

/-- A ring of four with the last and the first packet for the driver. -/
theorem ring_steps_modular_four :
    (⟨64, 4, 3, 3, 1⟩ : NetRing).ringIsValid = true ∧
      (⟨64, 4, 3, 3, 1⟩ : NetRing).advanceIndex 3 5 = (⟨64, 4, 3, 3, 1⟩ : NetRing).stepping 3 5 ∧
      (⟨64, 4, 3, 3, 1⟩ : NetRing).stepping 3 2 = some 1 := by
  have hring := (ring_steps_modular (r := ⟨64, 4, 3, 3, 1⟩) rfl).2 ⟨2, rfl⟩
  exact ⟨rfl, (hring.1 3 (by decide) 5).2.2.1, (hring.2 (by decide) (by decide)).1.1⟩

/-- The check accepts a ring of three. Index 1 has no next one, and the walk from 0 to 2 stays at 0, so the loop does
not end. -/
theorem ring_of_three_stands_still :
    (⟨64, 3, 2, 0, 2⟩ : NetRing).ringIsValid = true ∧ (⟨64, 3, 2, 0, 2⟩ : NetRing).incrementIndex 1 = none ∧
      (⟨64, 3, 2, 0, 2⟩ : NetRing).incrementIndex 0 = some 0 ∧
      ∀ rounds packets, evtPacketQueueCancel ⟨40, 16⟩ rounds ⟨false, some ⟨64, 3, 2, 0, 2⟩, none, packets, true⟩
        = .error .diverged := by
  refine ⟨rfl, rfl, rfl, fun rounds packets => ?_⟩
  have hloop : ∀ rounds packets, ignoreLoop ⟨40, 16⟩ ⟨64, 3, 2, 0, 2⟩ rounds 0 packets = .error .diverged := by
    intro rounds
    induction rounds with
    | zero => exact fun _ => rfl
    | succ rounds ih => exact fun packets => ih (ignorePacket packets 0)
  rw [evtPacketQueueCancel, ignorePackets]
  exact congrArg (· >>= _) (hloop rounds packets)

end WinTap

import WinTap.Base.Ring
import WinTap.Driver.NetRings

/-!
# Positions in a shared ring

A ring whose size is a power of two and whose indices are below it. `NetRing.position` counts from `BeginIndex` round
the ring; the routines of `ring.rs`, where they give an index at all, give the position they should.
-/

namespace WinTap

namespace NetRing

/-- The shape that NetAdapterCx gives a ring. -/
structure InRange (r : NetRing) : Prop where
  size : ∃ k, r.numberOfElements.toNat = 2 ^ k
  begins : r.beginIndex.toNat < r.numberOfElements.toNat
  ends : r.endIndex.toNat < r.numberOfElements.toNat

/-- The index that is `j` elements after `BeginIndex`. -/
def position (r : NetRing) (j : Nat) : RingIndex :=
  BitVec.ofNat 32 ((r.beginIndex.toNat + j) % r.numberOfElements.toNat)

/-- The number of elements that are the driver's. -/
def owned (r : NetRing) : Nat :=
  Ring.distance r.numberOfElements.toNat r.beginIndex.toNat r.endIndex.toNat

variable {r : NetRing}

theorem InRange.pos (h : r.InRange) : 0 < r.numberOfElements.toNat := Nat.lt_of_le_of_lt (Nat.zero_le _) h.begins

theorem InRange.toNat_position (h : r.InRange) (j : Nat) :
    (r.position j).toNat = (r.beginIndex.toNat + j) % r.numberOfElements.toNat := by
  have hlt := Nat.mod_lt (r.beginIndex.toNat + j) h.pos
  exact Nat.mod_eq_of_lt (Nat.lt_trans hlt r.numberOfElements.isLt)

theorem InRange.position_zero (h : r.InRange) : r.position 0 = r.beginIndex := by
  apply BitVec.eq_of_toNat_eq
  rw [h.toNat_position, Nat.add_zero, Nat.mod_eq_of_lt h.begins]

theorem InRange.position_injective (h : r.InRange) {i j : Nat} (hi : i < r.numberOfElements.toNat)
    (hj : j < r.numberOfElements.toNat) (heq : r.position i = r.position j) : i = j := by
  have hnat := congrArg BitVec.toNat heq
  rw [h.toNat_position, h.toNat_position] at hnat
  exact Ring.slot_injective hi hj hnat

theorem InRange.owned_lt (h : r.InRange) : r.owned < r.numberOfElements.toNat := Ring.distance_lt h.begins

theorem InRange.owned_eq_zero (h : r.InRange) : r.owned = 0 ↔ r.beginIndex = r.endIndex := by
  rw [owned, Ring.distance_eq_zero h.begins h.ends, BitVec.toNat_inj]

theorem InRange.position_owned (h : r.InRange) : r.position r.owned = r.endIndex := by
  apply BitVec.eq_of_toNat_eq
  rw [h.toNat_position, owned, Ring.add_distance h.begins h.ends]

theorem InRange.position_ne_end (h : r.InRange) {j : Nat} (hj : j < r.owned) : r.position j ≠ r.endIndex := by
  intro heq
  have hlt := h.owned_lt
  rw [← h.position_owned] at heq
  exact Nat.ne_of_lt hj (h.position_injective (by omega) hlt heq)

/-- The ring after its driver gave back the elements before the `j`th. -/
def moved (r : NetRing) (j : Nat) : NetRing := { r with beginIndex := r.position j }

theorem InRange.moved (h : r.InRange) (j : Nat) : (r.moved j).InRange where
  size := h.size
  begins := by
    change (r.position j).toNat < _
    rw [h.toNat_position]
    exact Nat.mod_lt _ h.pos
  ends := h.ends

theorem InRange.moved_zero (h : r.InRange) : r.moved 0 = r := by rw [NetRing.moved, h.position_zero]

theorem InRange.position_moved (h : r.InRange) (i j : Nat) : (r.moved i).position j = r.position (i + j) := by
  apply BitVec.eq_of_toNat_eq
  rw [(h.moved i).toNat_position, h.toNat_position]
  change ((r.position i).toNat + j) % r.numberOfElements.toNat = _
  rw [h.toNat_position, Nat.mod_add_mod, Nat.add_assoc]

theorem InRange.moved_moved (h : r.InRange) (i j : Nat) : (r.moved i).moved j = r.moved (i + j) := by
  rw [NetRing.moved, h.position_moved]
  rfl

theorem InRange.owned_moved_one (h : r.InRange) (hne : r.beginIndex ≠ r.endIndex) :
    (r.moved 1).owned + 1 = r.owned := by
  have hnext : (r.moved 1).beginIndex.toNat = (r.beginIndex.toNat + 1) % r.numberOfElements.toNat := h.toNat_position 1
  rw [owned, hnext]
  exact Ring.distance_next h.begins h.ends fun heq => hne (BitVec.eq_of_toNat_eq heq)

/-! ### `ring.rs` -/

theorem mask_of_valid (hvalid : r.ringIsValid = true) : r.elementIndexMask = r.numberOfElements - 1 := by
  simp only [ringIsValid, Bool.and_eq_true, decide_eq_true_eq] at hvalid
  exact hvalid.1.2

theorem InRange.outside_eq_false (h : r.InRange) (hvalid : r.ringIsValid = true) (index : RingIndex) :
    r.outside index = false ↔ index.toNat < r.numberOfElements.toNat := by
  obtain ⟨k, hk⟩ := h.size
  rw [outside, mask_of_valid hvalid, decide_eq_false_iff_not, not_not]
  exact Ring.and_not_mask_eq_zero hk

theorem InRange.and_mask (h : r.InRange) (hvalid : r.ringIsValid = true) (index : RingIndex) :
    (index &&& r.elementIndexMask).toNat = index.toNat % r.numberOfElements.toNat := by
  obtain ⟨k, hk⟩ := h.size
  rw [mask_of_valid hvalid]
  exact Ring.toNat_and_mask hk

/-- An element is found only in a valid ring, at the index it was looked for. -/
theorem InRange.elementAt_eq (h : r.InRange) {index slot : RingIndex} {size : Nat}
    (hfound : r.elementAt index size = some slot) : slot = index ∧ r.ringIsValid = true := by
  unfold elementAt at hfound
  split at hfound
  · cases hfound
  rename_i hcheck
  simp only [Bool.or_eq_true, not_or, Bool.not_eq_true, Bool.not_eq_false', decide_eq_true_eq] at hcheck
  obtain ⟨⟨hvalid, -⟩, hinside⟩ := hcheck
  have hlt := (h.outside_eq_false hvalid index).mp hinside
  dsimp only at hfound
  split at hfound
  · cases hfound
    refine ⟨BitVec.eq_of_toNat_eq ?_, hvalid⟩
    rw [h.and_mask hvalid, Nat.mod_eq_of_lt hlt]
  · cases hfound

/-- An element of a valid ring is found at every position, when it is as large as it should be. -/
theorem InRange.elementAt_position (h : r.InRange) (hvalid : r.ringIsValid = true) {size : Nat}
    (hsize : size ≤ r.elementStride.toNat) (j : Nat) : r.elementAt (r.position j) size = some (r.position j) := by
  have hinside := h.toNat_position j ▸ Nat.mod_lt (r.beginIndex.toNat + j) h.pos
  have hmask : r.position j &&& r.elementIndexMask = r.position j :=
    BitVec.eq_of_toNat_eq (by rw [h.and_mask hvalid, Nat.mod_eq_of_lt hinside])
  have houtside : r.outside (r.position j) = false := (h.outside_eq_false hvalid _).mpr hinside
  have hoffset : (r.position j).toNat * r.elementStride.toNat < usizeLimit :=
    calc (r.position j).toNat * r.elementStride.toNat
      _ < 2 ^ 32 * 2 ^ 16 := Nat.mul_lt_mul'' (r.position j).isLt r.elementStride.isLt
      _ < usizeLimit := by decide
  rw [elementAt, hvalid, houtside, decide_eq_false (Nat.not_lt.mpr hsize), if_neg (by decide), hmask, if_pos hoffset]

/-- The mask brings an index that was moved on back into the ring. -/
theorem InRange.masked_position (h : r.InRange) (hvalid : r.ringIsValid = true) (j : Nat) (count : BitVec 32) :
    (r.position j + count) &&& r.elementIndexMask = r.position (j + count.toNat) := by
  obtain ⟨k, hk⟩ := h.size
  have hdvd : r.numberOfElements.toNat ∣ 2 ^ 32 := by
    have hlt := r.numberOfElements.isLt
    rw [hk] at hlt ⊢
    exact Nat.pow_dvd_pow 2 (Nat.le_of_lt ((Nat.pow_lt_pow_iff_right (by decide)).mp hlt))
  apply BitVec.eq_of_toNat_eq
  rw [h.and_mask hvalid, BitVec.toNat_add, Nat.mod_mod_of_dvd _ hdvd, h.toNat_position, h.toNat_position,
    Nat.mod_add_mod, Nat.add_assoc]

theorem InRange.position_inside (h : r.InRange) (hvalid : r.ringIsValid = true) (j : Nat) :
    r.outside (r.position j) = false := by
  rw [h.outside_eq_false hvalid, h.toNat_position]
  exact Nat.mod_lt _ h.pos

theorem InRange.advanceIndex_position (h : r.InRange) (hvalid : r.ringIsValid = true) (j : Nat) (count : BitVec 32) :
    r.advanceIndex (r.position j) count = some (r.position (j + count.toNat)) := by
  rw [advanceIndex, hvalid, h.position_inside hvalid, if_neg (by decide), h.masked_position hvalid]

theorem InRange.incrementIndex_position (h : r.InRange) (hvalid : r.ringIsValid = true) (j : Nat) :
    r.incrementIndex (r.position j) = some (r.position (j + 1)) := by
  rw [incrementIndex, hvalid, h.position_inside hvalid, if_neg (by decide)]
  exact congrArg some (h.masked_position hvalid j 1#32)

end NetRing

theorem NetExtension.fragmentVirtualAddress_eq (extension : NetExtension) {index address : RingIndex}
    (h : extension.fragmentVirtualAddress index = some address) : address = index := by
  unfold NetExtension.fragmentVirtualAddress at h
  split at h
  · cases h
  · split at h
    · cases h
    · split at h <;> cases h
      rfl

end WinTap

import Mathlib.Data.BitVec
import Mathlib.Data.List.Basic
import Mathlib.Data.Nat.ModEq

/-!
# A list laid out in a ring of slots

A ring of slots holds the elements of a list one after the other from a head slot on, and every other slot is empty.
`Laid` is that relation, in one equation: the slot `i` places after the head holds what the list holds at `i`. Taking
the first element and adding one at the end are single writes.

A ring may also be given by two indices that go round it, as in a ring that a device and its driver share. The elements
from the first index up to the second are the owner's; `distance` counts them. The size of such a ring is a power of
two, and an index is brought back into the ring with a mask.
-/

namespace Ring

variable {α : Type}

/-- The slots from `head` on, round the ring, hold `xs` and the others nothing. -/
structure Laid (slots : List (Option α)) (head : Nat) (xs : List α) : Prop where
  fits : xs.length ≤ slots.length
  slot : ∀ i < slots.length, slots[(head + i) % slots.length]? = some xs[i]?

theorem slot_injective {n head i j : Nat} (hi : i < n) (hj : j < n) (h : (head + i) % n = (head + j) % n) : i = j := by
  have hmod : i ≡ j [MOD n] := Nat.ModEq.add_left_cancel' head h
  exact Nat.ModEq.eq_of_lt_of_lt hmod hi hj

theorem exists_slot {n : Nat} (head : Nat) {j : Nat} (hj : j < n) : ∃ i < n, (head + i) % n = j := by
  have hn : 0 < n := by omega
  have hhead := Nat.mod_lt head hn
  refine ⟨(j + (n - head % n)) % n, Nat.mod_lt _ hn, ?_⟩
  have hsum : head % n + (j + (n - head % n)) = j + n := by omega
  rw [Nat.add_mod_mod, ← Nat.mod_add_mod, hsum, Nat.add_mod_right, Nat.mod_eq_of_lt hj]

namespace Laid

variable {slots : List (Option α)} {head : Nat} {x : α} {xs : List α}

theorem empty (n head : Nat) : Laid (List.replicate n (none : Option α)) head [] where
  fits := Nat.zero_le _
  slot i hi := by
    rw [List.length_replicate] at hi ⊢
    have hslot := Nat.mod_lt (head + i) (by omega : 0 < n)
    simp [hslot]

theorem pos (h : Laid slots head (x :: xs)) : 0 < slots.length :=
  Nat.lt_of_lt_of_le (Nat.succ_pos _) h.fits

theorem front (h : Laid slots head (x :: xs)) : slots[head % slots.length]? = some (some x) :=
  h.slot 0 h.pos

/-- The slot after the last element is empty. -/
theorem vacant (h : Laid slots head xs) (hroom : xs.length < slots.length) :
    slots[(head + xs.length) % slots.length]? = some none := by
  rw [h.slot _ hroom, List.getElem?_eq_none (Nat.le_refl _)]

theorem push (h : Laid slots head xs) (hroom : xs.length < slots.length) (x : α) :
    Laid (slots.set ((head + xs.length) % slots.length) (some x)) head (xs ++ [x]) where
  fits := by
    rw [List.length_set, List.length_append]
    exact hroom
  slot i hi := by
    rw [List.length_set] at hi ⊢
    by_cases hlast : i = xs.length
    · subst hlast
      have hslot := Nat.mod_lt (head + xs.length) (by omega : 0 < slots.length)
      simp [hslot]
    · have hne : (head + xs.length) % slots.length ≠ (head + i) % slots.length :=
        fun heq => hlast (slot_injective hi hroom heq.symm)
      rw [List.getElem?_set_ne hne, h.slot i hi]
      by_cases hin : i < xs.length
      · rw [List.getElem?_append_left hin]
      · rw [List.getElem?_eq_none (by omega), List.getElem?_eq_none (by rw [List.length_append]; simp; omega)]

theorem pop (h : Laid slots head (x :: xs)) :
    Laid (slots.set (head % slots.length) none) ((head + 1) % slots.length) xs where
  fits := by
    rw [List.length_set]
    exact Nat.le_of_lt h.fits
  slot i hi := by
    rw [List.length_set] at hi ⊢
    have hplace : ((head + 1) % slots.length + i) % slots.length = (head + (i + 1)) % slots.length := by
      rw [Nat.mod_add_mod, Nat.add_assoc, Nat.add_comm 1 i]
    rw [hplace]
    by_cases hwrap : i + 1 = slots.length
    · -- the last place after the new head is the slot that was emptied
      have hslot := Nat.mod_lt head h.pos
      have hnone : xs[i]? = none := List.getElem?_eq_none (by
        have hfits := h.fits
        rw [List.length_cons] at hfits
        omega)
      rw [hwrap, Nat.add_mod_right, hnone]
      simp [hslot]
    · have hne : head % slots.length ≠ (head + (i + 1)) % slots.length := by
        intro heq
        have hplaces : (head + 0) % slots.length = (head + (i + 1)) % slots.length := heq
        have hzero := slot_injective h.pos (by omega : i + 1 < slots.length) hplaces
        omega
      rw [List.getElem?_set_ne hne, h.slot (i + 1) (by omega), List.getElem?_cons_succ]

/-- The slots that hold something are the ones from the head on, as many as the list is long. -/
theorem occupied_iff (h : Laid slots head xs) {j : Nat} (hj : j < slots.length) :
    (∃ x, slots[j]? = some (some x)) ↔ ∃ i < xs.length, j = (head + i) % slots.length := by
  constructor
  · rintro ⟨x, hx⟩
    obtain ⟨i, hi, rfl⟩ := exists_slot head hj
    rw [h.slot i hi, Option.some.injEq] at hx
    exact ⟨i, (List.getElem?_eq_some_iff.mp hx).1, rfl⟩
  · rintro ⟨i, hi, rfl⟩
    refine ⟨xs[i], ?_⟩
    rw [h.slot i (Nat.lt_of_lt_of_le hi h.fits), List.getElem?_eq_getElem hi]

end Laid

/-! ### The elements between two indices -/

/-- The number of elements from `b` up to `e`, round a ring of `n`. -/
def distance (n b e : Nat) : Nat := (e + n - b) % n

theorem distance_eq {n b e : Nat} (hb : b < n) (he : e < n) :
    distance n b e = if b ≤ e then e - b else e + n - b := by
  unfold distance
  split
  · rw [show e + n - b = e - b + n by omega, Nat.add_mod_right, Nat.mod_eq_of_lt (by omega)]
  · exact Nat.mod_eq_of_lt (by omega)

theorem distance_lt {n b e : Nat} (hb : b < n) : distance n b e < n := Nat.mod_lt _ (by omega)

theorem distance_eq_zero {n b e : Nat} (hb : b < n) (he : e < n) : distance n b e = 0 ↔ b = e := by
  rw [distance_eq hb he]
  split <;> omega

theorem add_distance {n b e : Nat} (hb : b < n) (he : e < n) : (b + distance n b e) % n = e := by
  rw [distance_eq hb he]
  split
  · rw [Nat.add_sub_cancel' (by assumption), Nat.mod_eq_of_lt he]
  · rw [show b + (e + n - b) = e + n by omega, Nat.add_mod_right, Nat.mod_eq_of_lt he]

theorem next_eq {n b : Nat} (hb : b < n) : (b + 1) % n = if b + 1 = n then 0 else b + 1 := by
  split
  · rename_i hlast
    rw [hlast, Nat.mod_self]
  · exact Nat.mod_eq_of_lt (by omega)

theorem distance_next {n b e : Nat} (hb : b < n) (he : e < n) (hne : b ≠ e) :
    distance n ((b + 1) % n) e + 1 = distance n b e := by
  have hnext := Nat.mod_lt (b + 1) (by omega : 0 < n)
  rw [distance_eq hnext he, distance_eq hb he, next_eq hb]
  split_ifs <;> omega

/-! ### Masks -/

theorem toNat_mask {w : Nat} {n : BitVec w} (hpos : 0 < n.toNat) : (n - 1#w).toNat = n.toNat - 1 := by
  have hw : w ≠ 0 := by
    rintro rfl
    have hlt := n.isLt
    omega
  have hone : (1#w).toNat = 1 := Nat.mod_eq_of_lt (Nat.one_lt_two_pow hw)
  rw [BitVec.toNat_sub_of_le (by rw [BitVec.le_def, hone]; exact hpos), hone]

/-- Masking with a size that is a power of two, less one, is the remainder by the size. -/
theorem toNat_and_mask {w : Nat} {k : Nat} {n x : BitVec w} (hn : n.toNat = 2 ^ k) :
    (x &&& (n - 1#w)).toNat = x.toNat % n.toNat := by
  have hpos : 0 < n.toNat := by
    rw [hn]
    exact Nat.two_pow_pos k
  rw [BitVec.toNat_and, toNat_mask hpos, hn, Nat.and_two_pow_sub_one_eq_mod]

theorem and_mask_eq_self {w : Nat} {x m : BitVec w} : x &&& m = x ↔ x &&& ~~~m = 0#w := by
  constructor
  · intro h
    rw [← h, BitVec.and_assoc, BitVec.and_not_self]
    exact BitVec.and_zero
  · intro h
    have hor : x &&& (m ||| ~~~m) = x := by rw [BitVec.or_not_self, BitVec.and_allOnes]
    rwa [BitVec.and_or_distrib_left, h, BitVec.or_zero] at hor

theorem and_not_mask_eq_zero {w : Nat} {k : Nat} {n x : BitVec w} (hn : n.toNat = 2 ^ k) :
    x &&& ~~~(n - 1#w) = 0#w ↔ x.toNat < n.toNat := by
  rw [← and_mask_eq_self, ← BitVec.toNat_inj, toNat_and_mask hn]
  exact ⟨fun h => h ▸ Nat.mod_lt _ (by rw [hn]; exact Nat.two_pow_pos k), Nat.mod_eq_of_lt⟩

/-- A mask one below a size covers every index below the size only when the size is a power of two. -/
theorem eq_two_pow_of_covers {w : Nat} {n : BitVec w} (hn : n ≠ 0#w)
    (hcovers : ∀ x : BitVec w, x.toNat < n.toNat → x &&& ~~~(n - 1#w) = 0#w) : ∃ k, n.toNat = 2 ^ k := by
  have hpos : 0 < n.toNat := Nat.pos_of_ne_zero fun hzero => hn (BitVec.eq_of_toNat_eq (by simp [hzero]))
  have hmask := toNat_mask hpos
  -- the powers of two below the size are all in the mask, so the size is above their sum
  have hbit : ∀ i, 2 ^ i < n.toNat → (n.toNat - 1).testBit i = true := by
    intro i hi
    have hiw : i < w := (Nat.pow_lt_pow_iff_right (by decide)).mp (Nat.lt_trans hi n.isLt)
    have hx : (BitVec.ofNat w (2 ^ i)).toNat = 2 ^ i := Nat.mod_eq_of_lt (Nat.lt_trans hi n.isLt)
    have hzero := congrArg (BitVec.getLsbD · i) (hcovers (BitVec.ofNat w (2 ^ i)) (by rwa [hx]))
    simp only [BitVec.getLsbD_and, BitVec.getLsbD_not, BitVec.getLsbD_zero, hiw, decide_true, Bool.true_and] at hzero
    rw [BitVec.getLsbD, hx, Nat.testBit_two_pow_self, Bool.true_and, Bool.not_eq_false', BitVec.getLsbD, hmask] at hzero
    exact hzero
  obtain ⟨k, hk⟩ : ∃ k, 2 ^ k < n.toNat + 1 ∧ n.toNat < 2 ^ (k + 1) :=
    ⟨n.toNat.log2, Nat.lt_succ_of_le (Nat.log2_self_le hpos.ne'), Nat.lt_log2_self⟩
  refine ⟨k, ?_⟩
  by_contra hne
  have hall : n.toNat - 1 = 2 ^ (k + 1) - 1 := by
    apply Nat.eq_of_testBit_eq
    intro i
    rw [Nat.testBit_two_pow_sub_one]
    by_cases hi : i < k + 1
    · have hle : 2 ^ i ≤ 2 ^ k := Nat.pow_le_pow_right (by decide) (by omega)
      rw [hbit i (by omega), decide_eq_true hi]
    · have hle : 2 ^ (k + 1) ≤ 2 ^ i := Nat.pow_le_pow_right (by decide) (Nat.le_of_not_lt hi)
      rw [decide_eq_false hi]
      exact Nat.testBit_lt_two_pow (by omega)
  omega

end Ring

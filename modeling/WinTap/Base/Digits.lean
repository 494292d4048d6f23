import Mathlib.Data.Nat.Digits.Lemmas

/-!
# Numbers written with a fixed number of digits

A number is read from its digits with the most significant one first. Each digit is then a quotient of the number, also
when the number starts with zeros.
-/

namespace Digits

variable {base : Nat} {digits : List Nat} {d : Nat}

/-- The number that digits stand for, the first digit being the most significant one. -/
def value (base : Nat) (digits : List Nat) : Nat := Nat.ofDigits base digits.reverse

theorem value_cons : value base (d :: digits) = base ^ digits.length * d + value base digits := by
  rw [value, List.reverse_cons, Nat.ofDigits_append, Nat.ofDigits_singleton, List.length_reverse, Nat.add_comm]
  rfl

theorem value_lt (hbase : 1 < base) (hdigits : ∀ d ∈ digits, d < base) : value base digits < base ^ digits.length := by
  rw [← List.length_reverse]
  exact Nat.ofDigits_lt_base_pow_length hbase fun d hd => hdigits d (List.mem_reverse.mp hd)

/-- The digits of a number that was read from them. -/
theorem eq_map_range (hbase : 1 < base) (hdigits : ∀ d ∈ digits, d < base) :
    digits = (List.range digits.length).map fun i => value base digits / base ^ (digits.length - 1 - i) % base := by
  induction digits with
  | nil => rfl
  | cons d digits ih =>
    have hrest : ∀ d ∈ digits, d < base := fun d' hd' => hdigits d' (List.mem_cons_of_mem d hd')
    have hlt := value_lt hbase hrest
    have hpos : 0 < base := Nat.zero_lt_of_lt hbase
    rw [List.length_cons, List.range_succ_eq_map, List.map_cons, List.map_map, Nat.add_sub_cancel, Nat.sub_zero,
      value_cons, Nat.mul_add_div (Nat.pow_pos hpos), Nat.div_eq_of_lt hlt, Nat.add_zero,
      Nat.mod_eq_of_lt (hdigits d List.mem_cons_self)]
    refine congrArg (d :: ·) ((ih hrest).trans (List.map_congr_left fun i hi => ?_))
    -- The digit in front only adds a multiple of the base to the quotient.
    have hi : i < digits.length := List.mem_range.mp hi
    have hpower : base ^ digits.length = base ^ (digits.length - 1 - i) * (base * base ^ i) := by
      rw [← Nat.pow_succ', ← Nat.pow_add]
      congr 1
      omega
    change _ = (base ^ digits.length * d + value base digits) / base ^ (digits.length - (i + 1)) % base
    rw [show digits.length - (i + 1) = digits.length - 1 - i by omega, hpower, Nat.mul_assoc,
      Nat.mul_add_div (Nat.pow_pos hpos), Nat.mul_assoc, Nat.mul_add_mod]

end Digits

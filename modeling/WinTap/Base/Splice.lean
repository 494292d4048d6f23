import Mathlib.Data.List.Basic

/-!
# Writing a piece into a buffer

`splice` overwrites part of a list, as a copy into a buffer does. Pieces that are written one after the other from the
start of a buffer end up side by side, whatever the buffer held before.
-/

namespace Splice

variable {α : Type}

/-- `buffer` with `piece` written at `offset`. -/
def splice (buffer : List α) (offset : Nat) (piece : List α) : List α :=
  buffer.take offset ++ piece ++ buffer.drop (offset + piece.length)

theorem length_splice {buffer piece : List α} {offset : Nat} (h : offset + piece.length ≤ buffer.length) :
    (splice buffer offset piece).length = buffer.length := by
  simp only [splice, List.length_append, List.length_take, List.length_drop]
  omega

theorem take_splice {buffer piece : List α} {offset : Nat} (h : offset ≤ buffer.length) :
    (splice buffer offset piece).take (offset + piece.length) = buffer.take offset ++ piece := by
  have hlength : offset + piece.length = (buffer.take offset ++ piece).length := by
    rw [List.length_append, List.length_take, Nat.min_eq_left h]
  rw [splice, hlength, List.take_left]

theorem take_splice_zero (buffer piece : List α) : (splice buffer 0 piece).take piece.length = piece := by
  rw [splice, List.take_zero, List.nil_append, List.take_left]

theorem splice_nil {buffer : List α} (offset : Nat) : splice buffer offset [] = buffer := by
  rw [splice, List.append_nil, List.length_nil, Nat.add_zero, List.take_append_drop]

/-- Two pieces written one after the other are one piece. -/
theorem splice_splice {buffer first : List α} {offset : Nat} (h : offset + first.length ≤ buffer.length)
    (second : List α) :
    splice (splice buffer offset first) (offset + first.length) second = splice buffer offset (first ++ second) := by
  have hdrop : (splice buffer offset first).drop (offset + first.length + second.length)
      = buffer.drop (offset + (first ++ second).length) := by
    have hlength : (buffer.take offset ++ first).length = offset + first.length := by
      rw [List.length_append, List.length_take, Nat.min_eq_left (by omega)]
    rw [splice, ← hlength, List.drop_length_add_append, List.drop_drop, hlength, List.length_append, Nat.add_assoc]
  rw [splice, take_splice (by omega), hdrop, splice, List.append_assoc (buffer.take offset)]

end Splice

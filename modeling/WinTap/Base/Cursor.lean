import Mathlib.Data.List.Basic
import Mathlib.Data.List.GetD

/-!
# A fixed buffer filled from the front

A buffer of a fixed size is written entry by entry at an offset that only grows. A write past the end has
no result. Starting from a buffer filled with one value, the state is determined by what was written.
-/

/-- A buffer of `n` entries and the offset of the next write. -/
structure Cursor (α : Type) (n : Nat) where
  text : Vector α n
  offset : Nat

namespace Cursor

variable {α β : Type} {n : Nat} {fill : α}

/-- Write at the offset and advance it. -/
def push (c : Cursor α n) (a : α) : Option (Cursor α n) :=
  if h : c.offset < n then some ⟨c.text.set c.offset a h, c.offset + 1⟩ else none

def pushAll (c : Cursor α n) (as : List α) : Option (Cursor α n) := as.foldlM push c

/-- The buffer after `written`, when it was filled with one value before. -/
def filled (fill : α) (written : List α) : Cursor α n where
  text := .ofFn fun i => written.getD i.val fill
  offset := written.length

/-- A buffer before the first write. -/
def start (fill : α) : Cursor α n where
  text := .replicate n fill
  offset := 0

theorem start_eq_filled : (start fill : Cursor α n) = filled fill [] := by
  have htext : (Vector.replicate n fill) = .ofFn fun i => ([] : List α).getD i.val fill := by
    ext i hi
    simp
  rw [start, filled, htext, List.length_nil]

theorem push_filled {written : List α} (hroom : written.length < n) (a : α) :
    (filled fill written : Cursor α n).push a = some (filled fill (written ++ [a])) := by
  have htext : (Vector.ofFn fun i : Fin n => written.getD i.val fill).set written.length a hroom =
      .ofFn fun i => (written ++ [a]).getD i.val fill := by
    ext i hi
    rw [Vector.getElem_set, Vector.getElem_ofFn, Vector.getElem_ofFn]
    by_cases hlt : i < written.length
    · rw [if_neg (Nat.ne_of_gt hlt), List.getD_append _ _ _ _ hlt]
    · by_cases heq : written.length = i
      · rw [if_pos heq, List.getD_append_right _ _ _ _ (Nat.le_of_not_lt hlt), heq, Nat.sub_self]
        rfl
      · rw [if_neg heq, List.getD_eq_default _ _ (Nat.le_of_not_lt hlt), List.getD_eq_default]
        rw [List.length_append, List.length_singleton]
        change written.length + 1 ≤ i
        omega
  rw [push, dif_pos (show (filled fill written : Cursor α n).offset < n from hroom)]
  simp only [filled, List.length_append, List.length_singleton, htext]

theorem pushAll_filled {as written : List α} (hroom : written.length + as.length ≤ n) :
    (filled fill written : Cursor α n).pushAll as = some (filled fill (written ++ as)) := by
  induction as generalizing written with
  | nil => simp [pushAll]
  | cons a as ih =>
    rw [List.length_cons] at hroom
    rw [pushAll, List.foldlM_cons, push_filled (by omega)]
    change (filled fill (written ++ [a]) : Cursor α n).pushAll as = _
    rw [ih (by rw [List.length_append, List.length_singleton]; omega), List.append_assoc]
    rfl

theorem pushAll_nil (c : Cursor α n) : c.pushAll [] = some c := rfl

theorem pushAll_cons (c : Cursor α n) (a : α) (as : List α) :
    c.pushAll (a :: as) = (c.push a).bind fun c' => c'.pushAll as := rfl

theorem pushAll_append (c : Cursor α n) (as bs : List α) :
    c.pushAll (as ++ bs) = (c.pushAll as).bind fun c' => c'.pushAll bs := by
  rw [pushAll, List.foldlM_append]
  rfl

/-- A loop that writes what each entry of a list stands for. -/
theorem foldlM_eq_pushAll {step : Cursor α n → β → Option (Cursor α n)} {emit : β → List α}
    (hstep : ∀ c b, step c b = c.pushAll (emit b)) (bs : List β) (c : Cursor α n) :
    bs.foldlM step c = c.pushAll (bs.flatMap emit) := by
  induction bs generalizing c with
  | nil => rfl
  | cons b bs ih =>
    rw [List.foldlM_cons, hstep, List.flatMap_cons, pushAll_append]
    cases c.pushAll (emit b) with
    | none => rfl
    | some c' => exact ih c'

/-- What was written, followed by what the buffer was filled with. -/
theorem text_filled {written : List α} (hroom : written.length ≤ n) :
    (filled fill written : Cursor α n).text.toList = written ++ List.replicate (n - written.length) fill := by
  refine List.ext_getElem (by simp [hroom]) fun i hi hi' => ?_
  simp only [filled, Vector.getElem_toList, Vector.getElem_ofFn]
  by_cases hlt : i < written.length
  · rw [List.getD_eq_getElem _ _ hlt, List.getElem_append_left hlt]
  · rw [List.getD_eq_default _ _ (Nat.le_of_not_lt hlt), List.getElem_append_right (Nat.le_of_not_lt hlt),
      List.getElem_replicate]

end Cursor

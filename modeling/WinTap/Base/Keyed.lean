import Mathlib.Data.List.Basic
import Mathlib.Data.List.Nodup

/-!
# A list with keys

A linked list whose entries are found by a key. An operation acts on the first entry with the key, as a
walk along the list does; as long as the keys are distinct that is the only one.
-/

namespace Keyed

variable {α κ : Type} [DecidableEq κ] (key : α → κ)

/-- The first entry with the key. -/
def find (k : κ) (l : List α) : Option α := l.find? fun a => key a = k

/-- Change the first entry with the key. -/
def modify (k : κ) (f : α → α) : List α → List α
  | [] => []
  | a :: rest => if key a = k then f a :: rest else a :: modify k f rest

/-- Unlink the first entry with the key. -/
def remove (k : κ) (l : List α) : List α := l.eraseP fun a => key a = k

variable {key} {k k' : κ} {a b : α} {l : List α} {f : α → α}

theorem find_mem (h : find key k l = some a) : a ∈ l ∧ key a = k :=
  ⟨List.mem_of_find?_eq_some h, by simpa using List.find?_some h⟩

theorem find_eq_none : find key k l = none ↔ ∀ a ∈ l, key a ≠ k := by
  simp [find]

theorem find_cons : find key k (a :: l) = if key a = k then some a else find key k l := by
  rw [find, List.find?_cons]
  by_cases h : key a = k <;> simp [h, find]

theorem map_modify (hf : ∀ a, key (f a) = key a) : (modify key k f l).map key = l.map key := by
  induction l with
  | nil => rfl
  | cons a l ih =>
    rw [modify]
    split
    · rw [List.map_cons, List.map_cons, hf]
    · rw [List.map_cons, List.map_cons, ih]

theorem find_modify (hf : ∀ a, key (f a) = key a) :
    find key k' (modify key k f l) = if k' = k then (find key k l).map f else find key k' l := by
  induction l with
  | nil => simp [find, modify]
  | cons a l ih =>
    rw [modify]
    by_cases ha : key a = k
    · rw [if_pos ha, find_cons, find_cons, find_cons, hf, if_pos ha]
      by_cases hk : k' = k
      · rw [if_pos (ha.trans hk.symm), if_pos hk]
        rfl
      · rw [if_neg (fun h => hk (h.symm.trans ha)), if_neg hk, if_neg (fun h => hk (h.symm.trans ha))]
    · rw [if_neg ha, find_cons, find_cons, find_cons, ih, if_neg ha]
      by_cases hk : k' = k
      · rw [if_pos hk, if_pos hk, if_neg (fun h => ha (h.trans hk))]
      · rw [if_neg hk, if_neg hk]

/-- An entry of the changed list is an old one, or the changed one. -/
theorem mem_modify (hb : b ∈ modify key k f l) : b ∈ l ∨ ∃ a, find key k l = some a ∧ b = f a := by
  induction l with
  | nil => cases hb
  | cons a l ih =>
    rw [modify] at hb
    rw [find_cons]
    split at hb
    · rename_i ha
      obtain rfl | hb := List.mem_cons.mp hb
      · exact .inr ⟨a, if_pos ha, rfl⟩
      · exact .inl (List.mem_cons_of_mem a hb)
    · rename_i ha
      obtain rfl | hb := List.mem_cons.mp hb
      · exact .inl List.mem_cons_self
      · obtain hb | ⟨a', ha', rfl⟩ := ih hb
        · exact .inl (List.mem_cons_of_mem a hb)
        · exact .inr ⟨a', by rwa [if_neg ha], rfl⟩

/-! ### Unlinking an entry -/

theorem map_remove : (remove key k l).map key = (l.map key).erase k := by
  induction l with
  | nil => rfl
  | cons a l ih =>
    by_cases h : key a = k
    · rw [remove, List.eraseP_cons_of_pos (by simpa using h), List.map_cons, h, List.erase_cons_head]
    · rw [remove, List.eraseP_cons_of_neg (by simpa using h), List.map_cons, List.map_cons,
        List.erase_cons_tail (by simpa using h)]
      exact congrArg _ ih

theorem mem_of_mem_remove (hb : b ∈ remove key k l) : b ∈ l := List.mem_of_mem_eraseP hb

theorem nodup_remove (h : (l.map key).Nodup) : ((remove key k l).map key).Nodup :=
  h.sublist (List.eraseP_sublist.map key)

theorem find_remove (hnodup : (l.map key).Nodup) :
    find key k' (remove key k l) = if k' = k then none else find key k' l := by
  induction l with
  | nil => simp [find, remove]
  | cons a l ih =>
    rw [List.map_cons, List.nodup_cons] at hnodup
    rw [remove, List.eraseP_cons]
    by_cases ha : key a = k
    · rw [cond_eq_ite, if_pos (by simpa using ha), find_cons]
      by_cases hk : k' = k
      · rw [if_pos hk]
        refine find_eq_none.mpr fun b hb hbk => hnodup.1 ?_
        rw [ha, ← hk, ← hbk]
        exact List.mem_map_of_mem hb
      · rw [if_neg hk, if_neg (fun h => hk (h.symm.trans ha))]
    · rw [cond_eq_ite, if_neg (by simpa using ha), find_cons, find_cons]
      change (if key a = k' then _ else find key k' (remove key k l)) = _
      rw [ih hnodup.2]
      by_cases hk : k' = k
      · rw [if_pos hk, if_pos hk, if_neg (fun h => ha (h.trans hk))]
      · rw [if_neg hk, if_neg hk]

end Keyed

import Mathlib.Data.List.AList
import Mathlib.Data.List.Induction

/-!
# A bounded table without eviction

A table learns a value for each key it is shown. A key that is in the table takes the new value; a new key
is taken in only while there is room, and nothing ever leaves. What such a table holds after a history is
determined by two facts about the history alone: which keys are among the first distinct ones, and what was
last seen with each.
-/

/-- A finite map. -/
abbrev BoundedTable (κ ν : Type) : Type := AList fun _ : κ => ν

namespace BoundedTable

variable {κ ν : Type} [DecidableEq κ] {capacity : Nat}

def len (table : BoundedTable κ ν) : Nat := table.keys.length

/-- Show the table a key with a value. -/
def learn (capacity : Nat) (table : BoundedTable κ ν) (key : κ) (value : ν) : BoundedTable κ ν :=
  if key ∈ table ∨ table.len < capacity then table.insert key value else table

/-- The table after a history, oldest first. -/
def learnAll (capacity : Nat) (history : List (κ × ν)) : BoundedTable κ ν :=
  history.foldl (fun table seen => table.learn capacity seen.1 seen.2) ∅

/-- The keys there was room for: the first distinct ones. -/
def admitted (capacity : Nat) (history : List (κ × ν)) : List κ :=
  (history.map Prod.fst).eraseDups.take capacity

/-- The value last seen with a key. -/
def lastSeen (history : List (κ × ν)) (key : κ) : Option ν :=
  (history.reverse.find? fun seen => seen.1 = key).map Prod.snd

theorem learnAll_append (history : List (κ × ν)) (key : κ) (value : ν) :
    learnAll capacity (history ++ [(key, value)]) = (learnAll capacity history).learn capacity key value := by
  rw [learnAll, List.foldl_append]
  rfl

theorem lastSeen_append (history : List (κ × ν)) (key key' : κ) (value : ν) :
    lastSeen (history ++ [(key, value)]) key' = if key = key' then some value else lastSeen history key' := by
  rw [lastSeen, List.reverse_append, List.reverse_singleton, List.singleton_append, List.find?_cons]
  by_cases hkey : key = key' <;> simp [hkey, lastSeen]

/-! ### Which keys are in -/

theorem eraseDups_append_singleton (keys : List κ) (key : κ) :
    (keys ++ [key]).eraseDups = if key ∈ keys then keys.eraseDups else keys.eraseDups ++ [key] := by
  rw [List.eraseDups_append]
  by_cases hkey : key ∈ keys
  · simp [hkey, List.removeAll]
  · simp [hkey, List.removeAll, List.eraseDups_cons]

theorem mem_of_mem_admitted {history : List (κ × ν)} {key : κ} (h : key ∈ admitted capacity history) :
    key ∈ history.map Prod.fst :=
  List.mem_eraseDups.mp (List.mem_of_mem_take h)

/-- One more sighting adds its key at the end, if the key is new and there is room. -/
theorem admitted_append (history : List (κ × ν)) (key : κ) (value : ν) :
    admitted capacity (history ++ [(key, value)]) =
      if key ∉ admitted capacity history ∧ (admitted capacity history).length < capacity then
        admitted capacity history ++ [key]
      else admitted capacity history := by
  have hmem : key ∈ history.map Prod.fst ↔ key ∈ (history.map Prod.fst).eraseDups := List.mem_eraseDups.symm
  simp only [admitted, List.map_append, List.map_cons, List.map_nil, eraseDups_append_singleton, hmem,
    List.length_take]
  by_cases hroom : (history.map Prod.fst).eraseDups.length < capacity
  · rw [List.take_of_length_le (Nat.le_of_lt hroom), Nat.min_eq_right (Nat.le_of_lt hroom)]
    by_cases hkey : key ∈ (history.map Prod.fst).eraseDups
    · rw [if_pos hkey, List.take_of_length_le (Nat.le_of_lt hroom), if_neg (fun h => h.1 hkey)]
    · rw [if_neg hkey, if_pos ⟨hkey, hroom⟩, List.take_of_length_le]
      rw [List.length_append]
      exact hroom
  · simp only [Nat.min_eq_left (Nat.le_of_not_lt hroom), Nat.lt_irrefl, and_false, if_false]
    split
    · rfl
    · rw [List.take_append_of_le_length (Nat.le_of_not_lt hroom)]

theorem len_insert_of_mem {table : BoundedTable κ ν} {key : κ} (h : key ∈ table) (value : ν) :
    len (table.insert key value) = table.len := by
  have hpos := List.length_pos_of_mem (AList.mem_keys.mp h)
  rw [len, len, AList.keys_insert, List.length_cons, List.length_erase_of_mem (AList.mem_keys.mp h)]
  omega

theorem len_insert_of_notMem {table : BoundedTable κ ν} {key : κ} (h : key ∉ table) (value : ν) :
    len (table.insert key value) = table.len + 1 := by
  rw [len, len, AList.keys_insert, List.length_cons, List.erase_of_not_mem (mt AList.mem_keys.mpr h)]

/-- The table holds the admitted keys and no others. -/
theorem learnAll_keys (capacity : Nat) (history : List (κ × ν)) :
    (∀ key, key ∈ learnAll capacity history ↔ key ∈ admitted capacity history) ∧
      (learnAll capacity history).len = (admitted capacity history).length := by
  induction history using List.reverseRecOn with
  | nil => simp [learnAll, admitted, len]
  | append_singleton history seen ih =>
    obtain ⟨key, value⟩ := seen
    obtain ⟨hmem, hlen⟩ := ih
    rw [learnAll_append, admitted_append, learn]
    by_cases hkey : key ∈ admitted capacity history
    · rw [if_pos (.inl ((hmem key).mpr hkey)), if_neg (fun h => h.1 hkey),
        len_insert_of_mem ((hmem key).mpr hkey)]
      refine ⟨fun key' => ?_, hlen⟩
      rw [AList.mem_insert, hmem]
      exact ⟨fun h => h.elim (fun h => h ▸ hkey) id, .inr⟩
    · have hnew := mt (hmem key).mp hkey
      by_cases hroom : (admitted capacity history).length < capacity
      · rw [if_pos (.inr (hlen ▸ hroom)), if_pos ⟨hkey, hroom⟩, len_insert_of_notMem hnew,
          List.length_append, hlen]
        refine ⟨fun key' => ?_, rfl⟩
        rw [AList.mem_insert, hmem, List.mem_append, List.mem_singleton, or_comm]
      · rw [if_neg (fun h => h.elim hnew (fun h => hroom (hlen ▸ h))), if_neg (fun h => hroom h.2)]
        exact ⟨hmem, hlen⟩

theorem len_learnAll_le (history : List (κ × ν)) : (learnAll capacity history).len ≤ capacity := by
  rw [(learnAll_keys capacity history).2, admitted, List.length_take]
  exact Nat.min_le_left ..

/-! ### What the table answers -/

/-- The table answers for an admitted key with what was last seen with it. -/
theorem lookup_learnAll (history : List (κ × ν)) (key : κ) :
    (learnAll capacity history).lookup key =
      if key ∈ admitted capacity history then lastSeen history key else none := by
  induction history using List.reverseRecOn with
  | nil => simp [learnAll, admitted]
  | append_singleton history seen ih =>
    obtain ⟨key', value⟩ := seen
    obtain ⟨hmem, hlen⟩ := learnAll_keys capacity history
    rw [learnAll_append, admitted_append, lastSeen_append, learn]
    by_cases htaken : key' ∈ learnAll capacity history ∨ (learnAll capacity history).len < capacity
    · rw [if_pos htaken]
      by_cases hsame : key' = key
      · subst hsame
        rw [AList.lookup_insert, if_pos rfl, if_pos]
        by_cases hkey : key' ∈ admitted capacity history
        · rwa [if_neg (fun h => h.1 hkey)]
        · rw [if_pos ⟨hkey, hlen ▸ htaken.resolve_left (mt (hmem key').mp hkey)⟩]
          exact List.mem_append_right _ (List.mem_singleton_self key')
      · rw [AList.lookup_insert_ne (Ne.symm hsame), ih, if_neg hsame]
        refine if_congr ?_ rfl rfl
        split
        · rw [List.mem_append, List.mem_singleton]
          exact ⟨.inl, fun h => h.resolve_right (Ne.symm hsame)⟩
        · rfl
    · obtain ⟨hnew, hfull⟩ := not_or.mp htaken
      have hkey := mt (hmem key').mpr hnew
      have hkeep : ¬(key' ∉ admitted capacity history ∧ (admitted capacity history).length < capacity) :=
        fun h => hfull (hlen ▸ h.2)
      rw [if_neg htaken, ih, if_neg hkeep]
      refine if_ctx_congr Iff.rfl (fun hin => ?_) (fun _ => rfl)
      have hother : key' ≠ key := fun h => hkey (h ▸ hin)
      rw [if_neg hother]

end BoundedTable

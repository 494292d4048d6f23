import Mathlib.Data.List.Basic

/-!
# A list that is read in pages

A list of distinct keys is read from a position on, one page after the other, while keys enter at its head and leave
anywhere in between. A key that was not read yet must stay at or past the position of the next page. A key that enters
moves it away from that position, and a key that leaves from before the position moves it towards it.
-/

namespace Paging

variable {α : Type} [DecidableEq α] {l l' : List α} {a b : α} {position count : Nat}

/-- A page of at most `count` keys. -/
def page (l : List α) (position count : Nat) : List α := (l.drop position).take count

/-- What happens to the list between two pages. -/
inductive Change : List α → List α → Prop
  | same {l : List α} : Change l l
  | enter {l : List α} {a : α} (fresh : a ∉ l) : Change l (a :: l)
  | leave {l : List α} {a : α} (mem : a ∈ l) : Change l (l.erase a)

theorem mem_page (ha : a ∈ l) (hfrom : position ≤ l.idxOf a) (hto : l.idxOf a < position + count) :
    a ∈ page l position count := by
  refine List.mem_of_getElem? (i := l.idxOf a - position) ?_
  rw [page, List.getElem?_take_of_lt (by omega), List.getElem?_drop, Nat.add_sub_cancel' hfrom]
  exact List.getElem?_idxOf ha

theorem idxOf_le_idxOf_erase (hne : a ≠ b) : l.idxOf a ≤ (l.erase b).idxOf a + 1 := by
  induction l with
  | nil => exact Nat.zero_le _
  | cons c l ih =>
    by_cases hcb : c = b
    · subst hcb
      have hidx : (c :: l).idxOf a = l.idxOf a + 1 := List.idxOf_cons_ne _ hne.symm
      rw [List.erase_cons_head]
      exact Nat.le_of_eq hidx
    · rw [List.erase_cons_tail (by simpa using hcb)]
      by_cases hca : c = a
      · rw [List.idxOf_cons_eq _ hca]
        exact Nat.zero_le _
      · rw [List.idxOf_cons_ne _ hca, List.idxOf_cons_ne _ hca]
        exact Nat.succ_le_succ ih

theorem idxOf_erase_of_le (hne : a ≠ b) (hle : l.idxOf a ≤ l.idxOf b) : (l.erase b).idxOf a = l.idxOf a := by
  induction l with
  | nil => rfl
  | cons c l ih =>
    by_cases hca : c = a
    · have hcb : c ≠ b := fun h => hne (hca.symm.trans h)
      rw [List.erase_cons_tail (by simpa using hcb), List.idxOf_cons_eq _ hca, List.idxOf_cons_eq _ hca]
    · by_cases hcb : c = b
      · rw [List.idxOf_cons_eq _ hcb, List.idxOf_cons_ne _ hca] at hle
        exact absurd hle (Nat.not_succ_le_zero _)
      · rw [List.idxOf_cons_ne _ hca, List.idxOf_cons_ne _ hcb] at hle
        rw [List.erase_cons_tail (by simpa using hcb), List.idxOf_cons_ne _ hca, List.idxOf_cons_ne _ hca,
          ih (Nat.le_of_succ_le_succ hle)]

/-- A key that is at or past the position stays there, unless it is the one at the position while another key leaves
from before it. -/
theorem Change.ahead (h : Change l l') (ha : a ∈ l) (ha' : a ∈ l') (hl : l.Nodup) (hahead : position ≤ l.idxOf a)
    (hspares : ∀ b ∈ l, b ∉ l' → l.idxOf b < position → l[position]? ≠ some a) : position ≤ l'.idxOf a := by
  cases h with
  | same => exact hahead
  | @enter b fresh =>
    have hne : b ≠ a := fun h => fresh (h ▸ ha)
    rw [List.idxOf_cons_ne _ hne]
    exact Nat.le_succ_of_le hahead
  | @leave b hb =>
    have hgone : b ∉ l.erase b := hl.not_mem_erase
    have hne : a ≠ b := fun h => hgone (h ▸ ha')
    by_cases hbehind : l.idxOf a ≤ l.idxOf b
    · rw [idxOf_erase_of_le hne hbehind]
      exact hahead
    have hnext := idxOf_le_idxOf_erase (l := l) hne
    by_cases hbefore : l.idxOf b < position
    · have hpast : l.idxOf a ≠ position := by
        rintro rfl
        exact hspares b hb hgone hbefore (List.getElem?_idxOf ha)
      omega
    · omega

end Paging

import Mathlib.Algebra.BigOperators.Group.Finset.Basic
import Mathlib.Algebra.Order.BigOperators.Group.Finset
import Mathlib.Data.Set.Card

/-!
# Counting over unboundedly many agents

A shared counter is right when it equals the sum of what every agent contributes to it. The agents are
unbounded, but only finitely many contribute at any time. `Tally w n` says that the contributions `w`
sum to `n`; an agent that changes its contribution changes the sum by the same amount.
-/

/-- The weights sum to `n`, and only finitely many of them are not zero. -/
def Tally {ι : Type} (w : ι → Nat) (n : Nat) : Prop :=
  ∃ F : Finset ι, (∀ i, i ∉ F → w i = 0) ∧ ∑ i ∈ F, w i = n

namespace Tally

variable {ι σ : Type} {w : ι → Nat} {n n' : Nat}

theorem zero (hw : ∀ i, w i = 0) : Tally w 0 :=
  ⟨∅, fun i _ => hw i, Finset.sum_empty⟩

theorem le (h : Tally w n) (i : ι) : w i ≤ n := by
  obtain ⟨F, hout, hsum⟩ := h
  by_cases hi : i ∈ F
  · rw [← hsum]
    exact Finset.single_le_sum (fun j _ => Nat.zero_le (w j)) hi
  · rw [hout i hi]
    exact Nat.zero_le n

theorem eq_zero (h : Tally w 0) (i : ι) : w i = 0 :=
  Nat.le_zero.mp (h.le i)

theorem sum_eq_zero (h : Tally w n) (hw : ∀ i, w i = 0) : n = 0 := by
  obtain ⟨F, -, hsum⟩ := h
  rw [← hsum]
  exact Finset.sum_eq_zero fun i _ => hw i

/-- When every agent contributes one or nothing, the sum is the number of those that contribute. -/
theorem ncard {p : ι → Prop} [DecidablePred p] (h : Tally (fun i => if p i then 1 else 0) n) :
    {i | p i}.Finite ∧ {i | p i}.ncard = n := by
  obtain ⟨F, hout, hsum⟩ := h
  have hset : {i | p i} = ↑(F.filter p) := by
    ext i
    simp only [Set.mem_ofPred_eq, Finset.coe_filter]
    refine ⟨fun hi => ⟨?_, hi⟩, fun hi => hi.2⟩
    by_contra hF
    simpa [hi] using hout i hF
  rw [hset]
  refine ⟨Finset.finite_toSet _, ?_⟩
  rw [Set.ncard_coe_finset, Finset.card_filter, hsum]

variable [DecidableEq ι]

theorem exists_mem (h : Tally w n) (i : ι) :
    ∃ F : Finset ι, i ∈ F ∧ (∀ j, j ∉ F → w j = 0) ∧ ∑ j ∈ F, w j = n := by
  obtain ⟨F, hout, hsum⟩ := h
  by_cases hi : i ∈ F
  · exact ⟨F, hi, hout, hsum⟩
  · refine ⟨insert i F, Finset.mem_insert_self i F, ?_, ?_⟩
    · intro j hj
      exact hout j fun hjF => hj (Finset.mem_insert_of_mem hjF)
    · rw [Finset.sum_insert hi, hout i hi, Nat.zero_add, hsum]

theorem update (h : Tally w n) (i : ι) (k : Nat) (hn : n' + w i = n + k) :
    Tally (Function.update w i k) n' := by
  obtain ⟨F, hi, hout, hsum⟩ := h.exists_mem i
  refine ⟨F, ?_, ?_⟩
  · intro j hj
    have hji : j ≠ i := fun hEq => hj (hEq ▸ hi)
    rw [Function.update_of_ne hji]
    exact hout j hj
  · rw [← Finset.add_sum_erase F _ hi] at hsum ⊢
    rw [Function.update_self]
    have hrest : ∑ j ∈ F.erase i, Function.update w i k j = ∑ j ∈ F.erase i, w j := by
      refine Finset.sum_congr rfl fun j hj => ?_
      rw [Function.update_of_ne (Finset.ne_of_mem_erase hj)]
    omega

/-- The contribution is read off a state, and one agent's state changes. -/
theorem step {f : σ → Nat} {s : ι → σ} (h : Tally (fun i => f (s i)) n) (i : ι) (x : σ)
    (hn : n' + f (s i) = n + f x) : Tally (fun j => f (Function.update s i x j)) n' := by
  have hupdate := h.update i (f x) hn
  have hcomp : (fun j => f (Function.update s i x j)) = Function.update (fun j => f (s j)) i (f x) := by
    funext j
    exact Function.apply_update (fun _ => f) s i x j
  rwa [hcomp]

theorem keep {f : σ → Nat} {s : ι → σ} (h : Tally (fun i => f (s i)) n) (i : ι) (x : σ)
    (hx : f x = f (s i)) : Tally (fun j => f (Function.update s i x j)) n :=
  h.step i x (by rw [hx])

end Tally

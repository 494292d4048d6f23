import Mathlib.Logic.Function.Basic
import Mathlib.Order.Basic

/-!
# Runs of a guarded transition system

A machine takes labelled steps, and a label carries every choice the environment makes at that step, so
a step is a partial function. A run may be restricted: `Reach ok` keeps to the runs whose steps all
satisfy `ok`, a condition on the state before the step and on the label. An unrestricted run uses
`fun _ _ => True`.

What a proof needs of runs is here once: an invariant is a predicate that holds initially and that one
step keeps, a schedule that executes is a run, and a simulation carries reachability to another machine.
-/

namespace Machine

variable {σ α τ β : Type}

/-- A transition system: its initial states, and what one labelled step does. -/
structure System (σ α : Type) where
  init : σ → Prop
  step : σ → α → Option σ

/-- No restriction on the steps of a run. -/
def Free : σ → α → Prop := fun _ _ => True

/-- The states reached by runs whose steps all satisfy `ok`. -/
inductive Reach (M : System σ α) (ok : σ → α → Prop) : σ → Prop
  | init {s : σ} : M.init s → Reach M ok s
  | step {s s' : σ} {a : α} : Reach M ok s → ok s a → M.step s a = some s' → Reach M ok s'

namespace Reach

variable {M : System σ α} {ok ok' : σ → α → Prop} {s : σ}

/-- What holds initially and survives one step holds in every reached state. The step hypothesis may
use that the state before is itself reached. -/
theorem invariant {P : σ → Prop} (hinit : ∀ s, M.init s → P s)
    (hstep : ∀ s a s', Reach M ok s → P s → ok s a → M.step s a = some s' → P s')
    (h : Reach M ok s) : P s := by
  induction h with
  | init hs => exact hinit _ hs
  | step hr hok hs ih => exact hstep _ _ _ hr ih hok hs

theorem mono (hle : ∀ s a, ok s a → ok' s a) (h : Reach M ok s) : Reach M ok' s := by
  induction h with
  | init hs => exact .init hs
  | step _ hok hs ih => exact .step ih (hle _ _ hok) hs

/-- A restriction may be exchanged for one that its own runs keep to. -/
theorem exchange (hle : ∀ s a, Reach M ok s → ok s a → ok' s a) (h : Reach M ok s) : Reach M ok' s := by
  induction h with
  | init hs => exact .init hs
  | step hr hok hs ih => exact .step ih (hle _ _ hr hok) hs

theorem free (h : Reach M ok s) : Reach M Free s :=
  h.mono fun _ _ _ => trivial

end Reach

/-- The states that a run from a given state reaches when its steps all satisfy `ok`. -/
inductive Path (M : System σ α) (ok : σ → α → Prop) (s : σ) : σ → Prop
  | refl : Path M ok s s
  | step {s' s'' : σ} {a : α} : Path M ok s s' → ok s' a → M.step s' a = some s'' → Path M ok s s''

namespace Path

variable {M : System σ α} {ok ok' : σ → α → Prop} {s s' : σ}

/-- What holds at the start and survives one step holds all along. The step hypothesis may use that the
state before is reached. -/
theorem invariant {P : σ → Prop} (hs : P s)
    (hstep : ∀ s₁ a s₂, Path M ok s s₁ → P s₁ → ok s₁ a → M.step s₁ a = some s₂ → P s₂)
    (h : Path M ok s s') : P s' := by
  induction h with
  | refl => exact hs
  | step hp hok hs ih => exact hstep _ _ _ hp ih hok hs

theorem reach (h : Path M ok s s') (hle : ∀ s a, ok s a → ok' s a) (hs : Reach M ok' s) :
    Reach M ok' s' := by
  induction h with
  | refl => exact hs
  | step _ hok hs ih => exact .step ih (hle _ _ hok) hs

end Path

namespace System

variable (M : System σ α)

/-- Execute a schedule, or stop at the first step that is not enabled. -/
def run (M : System σ α) : σ → List α → Option σ
  | s, [] => some s
  | s, a :: rest => (M.step s a).bind fun s' => M.run s' rest

@[simp] theorem run_nil (s : σ) : M.run s [] = some s := rfl

theorem run_cons (s : σ) (a : α) (rest : List α) :
    M.run s (a :: rest) = (M.step s a).bind fun s' => M.run s' rest := rfl

variable {M}

/-- An executed schedule is a run, and keeps to the restriction that its labels keep to. -/
theorem reach_of_run {ok : σ → α → Prop} {s s' : σ} {acts : List α}
    (hok : ∀ s a, a ∈ acts → ok s a) (hs : Reach M ok s) (hrun : M.run s acts = some s') :
    Reach M ok s' := by
  induction acts generalizing s with
  | nil =>
    rw [run_nil, Option.some.injEq] at hrun
    exact hrun ▸ hs
  | cons a rest ih =>
    rw [run_cons] at hrun
    obtain ⟨mid, hmid, hrest⟩ := Option.bind_eq_some_iff.mp hrun
    have hfirst := hok s a List.mem_cons_self
    exact ih (fun s b hb => hok s b (List.mem_cons_of_mem a hb)) (.step hs hfirst hmid) hrest

/-- A bound that only the steps with certain labels raise, each by one, grows by as many as the schedule has. -/
theorem run_countP {P : σ → Nat → Prop} {p : α → Bool}
    (hstep : ∀ s a s' n, P s n → M.step s a = some s' → P s' (n + if p a then 1 else 0)) {s s' : σ} {n : Nat}
    {acts : List α} (hs : P s n) (hrun : M.run s acts = some s') : P s' (n + acts.countP p) := by
  induction acts generalizing s n with
  | nil =>
    rw [run_nil, Option.some.injEq] at hrun
    exact hrun ▸ hs
  | cons a rest ih =>
    rw [run_cons] at hrun
    obtain ⟨mid, hmid, hrest⟩ := Option.bind_eq_some_iff.mp hrun
    have hlast := ih (hstep s a mid n hs hmid) hrest
    rwa [Nat.add_assoc, Nat.add_comm (if p a then 1 else 0), ← List.countP_cons] at hlast

/-- The state a schedule leads to; the state before, when it does not execute. -/
def after (M : System σ α) (s : σ) (acts : List α) : σ := (M.run s acts).getD s

theorem step_after {s : σ} {a : α} (h : (M.step s a).isSome = true) :
    M.step s a = some (M.after s [a]) := by
  obtain ⟨s', hs'⟩ := Option.isSome_iff_exists.mp h
  rw [after, run_cons, hs']
  rfl

theorem reach_after_of {ok : σ → α → Prop} {s : σ} {acts : List α} (hok : ∀ s a, a ∈ acts → ok s a)
    (hs : Reach M ok s) : Reach M ok (M.after s acts) := by
  unfold after
  cases hrun : M.run s acts with
  | none => exact hs
  | some s' => exact reach_of_run hok hs hrun

/-- Whether a schedule keeps to a restriction, as far as it executes. -/
def keeps (M : System σ α) (ok : σ → α → Prop) [∀ s a, Decidable (ok s a)] : σ → List α → Bool
  | _, [] => true
  | s, a :: rest => decide (ok s a) && (M.step s a).all fun s' => M.keeps ok s' rest

/-- The restriction may depend on the states the schedule goes through. -/
theorem path_after_keeping {ok : σ → α → Prop} [∀ s a, Decidable (ok s a)] {s₀ s : σ} {acts : List α}
    (hkeeps : M.keeps ok s acts = true) (hs : Path M ok s₀ s) : Path M ok s₀ (M.after s acts) := by
  have hrun : ∀ s', M.run s acts = some s' → Path M ok s₀ s' := by
    intro s' hrun
    induction acts generalizing s with
    | nil =>
      rw [run_nil, Option.some.injEq] at hrun
      exact hrun ▸ hs
    | cons a rest ih =>
      rw [run_cons] at hrun
      obtain ⟨mid, hmid, hrest⟩ := Option.bind_eq_some_iff.mp hrun
      rw [keeps, hmid, Option.all_some, Bool.and_eq_true, decide_eq_true_eq] at hkeeps
      exact ih hkeeps.2 (.step hs hkeeps.1 hmid) hrest
  unfold after
  cases hresult : M.run s acts with
  | none => exact hs
  | some s' => exact hrun s' hresult

theorem reach_after_keeping {ok : σ → α → Prop} [∀ s a, Decidable (ok s a)] {s : σ} {acts : List α}
    (hkeeps : M.keeps ok s acts = true) (hs : Reach M ok s) : Reach M ok (M.after s acts) :=
  (path_after_keeping hkeeps .refl).reach (fun _ _ => id) hs

theorem reach_after {s : σ} (hs : Reach M Free s) (acts : List α) : Reach M Free (M.after s acts) :=
  reach_after_of (fun _ _ _ => trivial) hs

theorem path_after (s : σ) (acts : List α) : Path M Free s (M.after s acts) := by
  have hfree : ∀ (s : σ) (a : α), Decidable (Free s a) := fun _ _ => .isTrue trivial
  refine path_after_keeping ?_ .refl
  induction acts generalizing s with
  | nil => rfl
  | cons a rest ih =>
    have hok : Free s a := trivial
    rw [keeps, decide_eq_true hok, Bool.true_and]
    cases M.step s a with
    | none => rfl
    | some s' => exact ih s'

end System

/-- A map that sends initial states to initial states and every reached step to a run of the other
machine carries reachability over. -/
theorem Reach.simulate {M : System σ α} {N : System τ β} {ok : σ → α → Prop} {ok' : τ → β → Prop}
    (f : σ → τ) (hinit : ∀ s, M.init s → N.init (f s))
    (hstep : ∀ s a s', Reach M ok s → Reach N ok' (f s) → ok s a → M.step s a = some s' →
      Reach N ok' (f s'))
    {s : σ} (h : Reach M ok s) : Reach N ok' (f s) := by
  induction h with
  | init hs => exact .init (hinit _ hs)
  | step hr hok hs ih => exact hstep _ _ _ hr ih hok hs

/-! ### One entry of a map changes -/

section
variable {ι : Type} [DecidableEq ι] {f : ι → σ} {i : ι} {x : σ} {g : σ → τ} {b : τ}

theorem exists_update_self (hx : g x = b) : ∃ j, g (Function.update f i x j) = b :=
  ⟨i, by rwa [Function.update_self]⟩

theorem exists_update (h : ∃ j, g (f j) = b) (hkeep : g (f i) = b → g x = b) :
    ∃ j, g (Function.update f i x j) = b := by
  obtain ⟨j, hj⟩ := h
  by_cases hji : j = i
  · exact exists_update_self (hkeep (hji ▸ hj))
  · exact ⟨j, by rwa [Function.update_of_ne hji]⟩

end

end Machine

import WinTap.Wait.Ownership
import Mathlib.Tactic.Common

/-!
# Ownership is kept

`Own` says who is responsible for what: every stage describes the shared state it relies on, two threads
are never at stages that would both complete a request or both retire the record, and whatever the
record is waiting for, some thread or the framework will bring. Every move keeps it.

The proof goes through the roles of a stage (owning the record, owing a completion, deciding a
cancellation, retiring) and not through pairs of stages: a move that takes up a role finds the record in
a state in which no other thread can have it.
-/

namespace WinTap

open Machine

/-- What a stage relies on. -/
def StageOk (v : View) : Stage → Prop
  | .none => True
  | .dispatched r => v.cancel r = .unmarked ∧ v.slot ≠ some r ∧ v.completions r = 0 ∧ v.unmarks r = 0
  | .begun r =>
    (v.state = .registering ∨ v.state = .teardown) ∧ v.slot = none ∧ v.handoff = .none
      ∧ v.cancel r = .unmarked ∧ v.completions r = 0 ∧ v.unmarks r = 0
  | .published r =>
    (v.state = .registering ∨ v.state = .teardown) ∧ v.slot = some r ∧ v.handoff = .none
      ∧ v.cancel r = .unmarked ∧ v.completions r = 0 ∧ v.unmarks r = 0
  | .marked r =>
    (v.state = .registering ∨ v.state = .teardown ∨ v.state = .cancelled) ∧ v.slot = some r
      ∧ v.handoff = .none ∧ (v.cancel r = .marked ∨ v.cancel r = .owed ∨ v.cancel r = .called)
      ∧ (v.state = .cancelled → v.cancel r = .called) ∧ (v.state ≠ .cancelled → v.completions r = 0)
      ∧ v.unmarks r = 0
  | .torn r =>
    (v.state = .teardown ∨ v.state = .cancelled) ∧ v.slot = some r
      ∧ v.handoff = .none ∧ (v.cancel r = .marked ∨ v.cancel r = .owed ∨ v.cancel r = .called)
      ∧ (v.state = .cancelled → v.cancel r = .called) ∧ (v.state ≠ .cancelled → v.completions r = 0)
      ∧ v.unmarks r = 0
  | .unmarking known =>
    v.state = .unmarking ∧ ∃ r, v.slot = some r ∧ (known = none ∨ known = some r)
      ∧ v.handoff ≠ .unmarkCancelled
      ∧ (v.cancel r = .marked ∨ v.cancel r = .owed ∨ v.cancel r = .called)
      ∧ (v.handoff = .cancelArrived → v.cancel r = .called) ∧ v.completions r = 0 ∧ v.unmarks r = 0
  | .swapping r =>
    v.state = .unmarking ∧ v.slot = some r ∧ v.handoff ≠ .unmarkCancelled
      ∧ (v.cancel r = .owed ∨ v.cancel r = .called)
      ∧ (v.handoff = .cancelArrived → v.cancel r = .called) ∧ v.completions r = 0
  | .finishing r next completes =>
    (v.state = .registering ∨ v.state = .teardown ∨ v.state = .unmarking ∨ v.state = .cancelled)
      ∧ (next ≠ .record → v.slot = some r) ∧ (next = .record → v.slot = none)
      ∧ (next ≠ .handoff → v.handoff = .none)
      ∧ (v.cancel r = .unmarked ∨ v.cancel r = .cleared ∨ v.cancel r = .called)
      ∧ (completes = true → v.completions r = 0)
      ∧ (completes = false → v.state = .cancelled ∧ v.cancel r = .called)
  | .completing r =>
    v.completions r = 0 ∧ (v.cancel r = .unmarked ∨ v.cancel r = .cleared ∨ v.cancel r = .called)
      ∧ (v.slot = some r → v.state = .cancelled ∧ v.cancel r = .called)
  | .cancelling r handing =>
    v.slot = some r ∧ v.cancel r = .called ∧ v.handoff ≠ .cancelArrived ∧ v.completions r = 0
      ∧ v.state ≠ .free ∧ v.state ≠ .cancelled ∧ (handing = true → v.state = .unmarking)
  | .lost => False

/-- Stages that two threads may be at together. -/
structure Apart (x y : Stage) : Prop where
  owner : x.owns = true → y.owns = true → False
  duty : ∀ r, x.duty = some r → y.duty = some r → False
  undecided : ∀ r, x.undecided = some r → y.undecided = some r → False
  retiring : ∀ r, x.undecided = some r → y.retiring = true → False
  retired : ∀ r, y.undecided = some r → x.retiring = true → False

/-- What holds of the view by itself. -/
structure ViewOk (v : View) : Prop where
  fresh : ∀ r, v.cancel r = .absent → v.completions r = 0 ∧ v.unmarks r = 0 ∧ v.slot ≠ some r
  armed : ∀ r, v.cancel r = .marked ∨ v.cancel r = .owed → v.slot = some r ∧ v.completions r = 0
    ∧ v.state ≠ .free ∧ v.state ≠ .cancelled ∧ v.handoff ≠ .cancelArrived
  free : v.state = .free → v.slot = none ∧ v.handoff = .none
  published : v.state = .pending ∨ v.state = .scheduled → ∃ r, v.slot = some r ∧ v.handoff = .none
    ∧ (v.cancel r = .marked ∨ v.cancel r = .owed ∨ v.cancel r = .called)
    ∧ v.completions r = 0 ∧ v.unmarks r = 0
  once : ∀ r, v.completions r ≤ 1 ∧ v.unmarks r ≤ 1
  orderly : v.orderly

/-- Ownership of the record and of the requests. -/
structure Own (v : View) (σ : ThreadId → Stage) : Prop where
  view : ViewOk v
  stage : ∀ t, StageOk v (σ t)
  apart : ∀ t u, t ≠ u → Apart (σ t) (σ u)
  /-- A record in these states has an owner. -/
  owned : v.state = .registering ∨ v.state = .teardown ∨ v.state = .cancelled → ∃ t, (σ t).owns = true
  /-- A record being unmarked has an owner, or was left to the cancellation callback. -/
  handed : v.state = .unmarking → (∃ t, (σ t).owns = true) ∨ (v.handoff = .unmarkCancelled
    ∧ ∃ r, v.slot = some r ∧ (v.cancel r = .owed ∨ v.cancel r = .called) ∧ v.completions r = 0)
  /-- A request is completed, or some thread will complete it, or it is published. -/
  answered : ∀ r, v.cancel r ≠ .absent →
    v.completions r = 1 ∨ (∃ t, (σ t).duty = some r) ∨ (v.slot = some r ∧ v.state ≠ .cancelled)
  /-- A cancellation callback of the published request is still undecided, or the record is retiring. -/
  called : ∀ r, v.slot = some r → v.cancel r = .called → v.handoff ≠ .cancelArrived →
    v.state ≠ .cancelled → (∃ t, (σ t).undecided = some r) ∨ ∃ t, (σ t).retiring = true

variable {v v' : View} {σ : ThreadId → Stage} {t : ThreadId} {x x' y : Stage} {r : Request}

/-! ### What a role says of the view -/

theorem StageOk.of_owns (hx : StageOk v x) (hown : x.owns = true) :
    v.state ≠ .free ∧ v.state ≠ .pending ∧ v.state ≠ .scheduled
      ∧ (v.handoff = .unmarkCancelled → x.retiring = true) := by
  cases x <;> simp only [StageOk, Stage.owns, Stage.retiring, Bool.false_eq_true] at hx hown ⊢ <;> grind

theorem StageOk.of_duty (hx : StageOk v x) (hduty : x.duty = some r) :
    v.completions r = 0 ∧ v.cancel r ≠ .absent
      ∧ (x.retiring = true ∨ v.cancel r = .unmarked ∨ v.slot ≠ some r ∨ v.state = .cancelled) := by
  cases x <;> simp only [StageOk, Stage.duty, Stage.retiring] at hx hduty ⊢ <;> grind

theorem StageOk.of_undecided (hx : StageOk v x) (hund : x.undecided = some r) :
    v.slot = some r ∧ v.cancel r = .called ∧ v.handoff ≠ .cancelArrived ∧ v.completions r = 0
      ∧ v.state ≠ .cancelled := by
  cases x <;> simp only [StageOk, Stage.undecided, reduceCtorEq] at hx hund
  grind

theorem StageOk.of_retiring (hx : StageOk v x) (hret : x.retiring = true) (hslot : v.slot = some r) :
    v.cancel r = .unmarked ∨ v.cancel r = .cleared ∨ v.cancel r = .called := by
  cases x <;> simp only [StageOk, Stage.retiring, Bool.false_eq_true] at hx hret
  grind

/-! ### How a move takes up a role -/

theorem Move.owns_new (hm : Move v x v' x') (hown : x'.owns = true) :
    x.owns = true ∨ v.state = .free ∨ v.state = .pending ∨ v.state = .scheduled
      ∨ (v.handoff = .unmarkCancelled ∧ x.undecided ≠ none) := by
  cases hm <;> simp only [Stage.owns, Stage.undecided] at hown ⊢ <;> grind

theorem Move.duty_new (hm : Move v x v' x') (hx : StageOk v x) (hduty : x'.duty = some r) :
    x.duty = some r ∨ v.cancel r = .absent ∨ (v.slot = some r ∧ v.state ≠ .cancelled
      ∧ v.cancel r ≠ .unmarked ∧ (x.owns = true ∨ x.undecided = some r)) := by
  cases hm <;> simp only [Stage.duty, Stage.owns, Stage.undecided, StageOk] at hduty hx ⊢ <;> grind

theorem Move.undecided_new (hm : Move v x v' x') (hund : x'.undecided = some r) :
    x.undecided = some r ∨ v.cancel r = .owed := by
  cases hm <;> simp only [Stage.undecided] at hund ⊢ <;> grind

theorem Move.retiring_new (hm : Move v x v' x') (hx : StageOk v x) (hret : x'.retiring = true) :
    x.retiring = true ∨ v.state = .cancelled ∨ v.handoff = .cancelArrived
      ∨ ∃ q, v.slot = some q ∧ (v.cancel q ≠ .called ∨ x.undecided = some q) := by
  cases hm <;> simp only [Stage.retiring, Stage.undecided, StageOk] at hret hx ⊢ <;> grind

theorem Apart.symm (h : Apart x y) : Apart y x where
  owner hy hx := h.owner hx hy
  duty r hy hx := h.duty r hx hy
  undecided r hy hx := h.undecided r hx hy
  retiring := h.retired
  retired := h.retiring

theorem Apart.move (h : Apart x y) (hv : ViewOk v) (hx : StageOk v x) (hy : StageOk v y)
    (hm : Move v x v' x') : Apart x' y where
  owner hx' hyo := by
    obtain ⟨hfree, hpending, hscheduled, hleft⟩ := hy.of_owns hyo
    rcases hm.owns_new hx' with hown | hstate | hstate | hstate | ⟨hhandoff, hund⟩
    · exact h.owner hown hyo
    · exact hfree hstate
    · exact hpending hstate
    · exact hscheduled hstate
    · obtain ⟨r, hr⟩ := Option.ne_none_iff_exists'.mp hund
      exact h.retiring r hr (hleft hhandoff)
  duty r hx' hyd := by
    obtain ⟨-, hseen, hrole⟩ := hy.of_duty hyd
    rcases hm.duty_new hx hx' with hduty | habsent | ⟨hslot, hstate, hcancel, hmine⟩
    · exact h.duty r hduty hyd
    · exact hseen habsent
    · rcases hrole with hret | hun | hne | hcan
      · rcases hmine with hown | hund
        · exact h.owner hown (by cases y <;> simp_all [Stage.retiring, Stage.owns])
        · exact h.retiring r hund hret
      · exact hcancel hun
      · exact hne hslot
      · exact hstate hcan
  undecided r hx' hyu := by
    rcases hm.undecided_new hx' with hund | howed
    · exact h.undecided r hund hyu
    · exact absurd howed (by simp [(hy.of_undecided hyu).2.1])
  retiring r hx' hyr := by
    rcases hm.undecided_new hx' with hund | howed
    · exact h.retiring r hund hyr
    · have hslot := (hv.armed r (.inr howed)).1
      rcases hy.of_retiring hyr hslot with hc | hc | hc <;> simp [hc] at howed
  retired r hyu hx' := by
    obtain ⟨hslot, hcalled, hhandoff, -, hstate⟩ := hy.of_undecided hyu
    rcases hm.retiring_new hx hx' with hret | hcan | harr | ⟨q, hq, hmine⟩
    · exact h.retired r hyu hret
    · exact hstate hcan
    · exact hhandoff harr
    · obtain rfl : q = r := by simpa [hslot] using hq.symm
      exact hmine.elim (fun hc => hc hcalled) fun hund => h.undecided _ hund hyu

/-! ### What a move keeps of the view and of the mover -/

section
variable (hx : StageOk v x) (hm : Move v x v' x')

include hx hm

theorem ViewOk.fresh_move (h : ViewOk v) (r : Request) (habsent : v'.cancel r = .absent) :
    v'.completions r = 0 ∧ v'.unmarks r = 0 ∧ v'.slot ≠ some r := by
  have hfresh := h.fresh r
  clear h
  cases hm <;> simp only [StageOk] at hx <;> grind

theorem ViewOk.armed_move (h : ViewOk v) (r : Request) (harmed' : v'.cancel r = .marked ∨ v'.cancel r = .owed) :
    v'.slot = some r ∧ v'.completions r = 0 ∧ v'.state ≠ .free ∧ v'.state ≠ .cancelled
      ∧ v'.handoff ≠ .cancelArrived := by
  have harmed := h.armed r
  clear h
  cases hm <;> simp only [StageOk] at hx <;> grind

theorem ViewOk.free_move (h : ViewOk v) (hstate : v'.state = .free) : v'.slot = none ∧ v'.handoff = .none := by
  have hfree := h.free
  clear h
  cases hm <;> simp only [StageOk] at hx <;> grind

theorem ViewOk.published_move (h : ViewOk v) (hstate : v'.state = .pending ∨ v'.state = .scheduled) :
    ∃ r, v'.slot = some r ∧ v'.handoff = .none
      ∧ (v'.cancel r = .marked ∨ v'.cancel r = .owed ∨ v'.cancel r = .called)
      ∧ v'.completions r = 0 ∧ v'.unmarks r = 0 := by
  have hpublished := h.published
  clear h
  cases hm <;> simp only [StageOk] at hx <;> grind

theorem ViewOk.once_move (h : ViewOk v) (r : Request) : v'.completions r ≤ 1 ∧ v'.unmarks r ≤ 1 := by
  have honce := h.once r
  clear h
  cases hm <;> simp only [StageOk] at hx <;> grind

theorem ViewOk.orderly_move (h : ViewOk v) : v'.orderly := by
  have horderly := h.orderly
  clear h
  cases hm <;> simp only [StageOk] at hx <;> grind

end

theorem ViewOk.move (h : ViewOk v) (hx : StageOk v x) (hm : Move v x v' x') : ViewOk v' where
  fresh := h.fresh_move hx hm
  armed := h.armed_move hx hm
  free := h.free_move hx hm
  published := h.published_move hx hm
  once := h.once_move hx hm
  orderly := h.orderly_move hx hm

theorem StageOk.move (hx : StageOk v x) (hv : ViewOk v) (hm : Move v x v' x') : StageOk v' x' := by
  obtain ⟨hfresh, harmed, hfree, hpub, -, -⟩ := hv
  cases hm with
  | owe q hq => cases x <;> simp only [StageOk] at hx ⊢ <;> grind
  | _ => all_goals simp only [StageOk] at hx ⊢ <;> grind

theorem StageOk.other_of_owns (hy : StageOk v y) (hx : StageOk v x) (hown : x.owns = true)
    (hguest : y.owns = false) (hap : Apart x y) (hm : Move v x v' x') : StageOk v' y := by
  have hduty := hap.duty
  have hret := hap.retired
  cases y <;> simp only [Stage.owns, Bool.true_eq_false] at hguest
  all_goals clear hap hguest; cases hm <;> simp only [Stage.owns, Bool.false_eq_true] at hown
  all_goals simp only [StageOk, Stage.duty, Stage.undecided, Stage.retiring] at hx hy hduty hret ⊢
  all_goals grind

/-- The framework moves a request on. -/
theorem StageOk.setCancel {state : CancelState} (hy : StageOk v y)
    (hcancel : v.cancel r = .absent ∧ state = .unmarked ∨ v.cancel r = .marked ∧ state = .owed
      ∨ v.cancel r = .owed ∧ state = .called) : StageOk (v.setCancel r state) y := by
  cases y <;> simp only [StageOk] at hy ⊢ <;> grind

/-- A record without an owner is claimed, scheduled or torn down. -/
theorem StageOk.claim {state : RecordState} (hy : StageOk v y) (hfree : v.state = .free → v.slot = none)
    (hstate : v.state = .free ∧ state = .registering ∨ v.state = .registering ∧ state = .teardown
      ∨ (v.state = .pending ∨ v.state = .scheduled) ∧ (state = .scheduled ∨ state = .unmarking)) :
    StageOk { v with state := state } y := by
  cases y <;> simp only [StageOk] at hy ⊢ <;> grind

/-- The callback of the published request cancels the record. -/
theorem StageOk.cancelRecord (hy : StageOk v y) (hslot : v.slot = some r) (hcalled : v.cancel r = .called)
    (hstate : v.state ≠ .unmarking) (hund : y.undecided ≠ some r) (hret : y.retiring = false) :
    StageOk { v with state := .cancelled } y := by
  cases y <;> simp only [StageOk, Stage.undecided, Stage.retiring] at hy hund hret ⊢ <;> grind

/-- The callback of the published request arrives at the handoff. -/
theorem StageOk.arriveHandoff (hy : StageOk v y) (hslot : v.slot = some r) (hcalled : v.cancel r = .called)
    (hstate : v.state = .unmarking) (hund : y.undecided ≠ some r) (hret : y.retiring = false) :
    StageOk { v with handoff := .cancelArrived } y := by
  cases y <;> simp only [StageOk, Stage.undecided, Stage.retiring] at hy hund hret ⊢ <;> grind

theorem StageOk.complete (hy : StageOk v y) (hx : StageOk v (.completing r)) (hduty : y.duty ≠ some r) :
    StageOk (v.complete r) y := by
  cases y <;> simp only [StageOk, Stage.duty] at hx hy hduty ⊢ <;> grind

/-- A guest moves the record only out of a state the other does not rely on, and settles only requests
that are its own. -/
theorem StageOk.other_of_guest (hy : StageOk v y) (hx : StageOk v x) (hv : ViewOk v)
    (hguest : x.owns = false) (hap : Apart x y) (hm : Move v x v' x') : StageOk v' y := by
  have hfree : v.state = .free → v.slot = none := fun h => (hv.free h).1
  -- What the callback of a cancelled request knows of the others.
  have hcancelling : ∀ r handing, x = .cancelling r handing →
      v.slot = some r ∧ v.cancel r = .called ∧ y.undecided ≠ some r ∧ y.retiring = false := by
    rintro r handing rfl
    obtain ⟨hslot, hcalled, -⟩ := hx
    exact ⟨hslot, hcalled, hap.undecided r rfl, Bool.eq_false_iff.mpr (hap.retiring r rfl)⟩
  cases hm with
  | keep | reject | sawCancelled | cancelSees => exact hy
  | dispatch r hr => exact hy.setCancel (.inl ⟨hr, rfl⟩)
  | owe _ r hr => exact hy.setCancel (.inr (.inl ⟨hr, rfl⟩))
  | arrive r hr => exact hy.setCancel (.inr (.inr ⟨hr, rfl⟩))
  | begin r hstate => exact hy.claim hfree (.inl ⟨hstate, rfl⟩)
  | tear hstate => exact hy.claim hfree (.inr (.inl ⟨hstate, rfl⟩))
  | schedule hstate => exact hy.claim hfree (.inr (.inr ⟨hstate, .inl rfl⟩))
  | take hstate => exact hy.claim hfree (.inr (.inr ⟨hstate, .inr rfl⟩))
  | complete r => exact hy.complete hx fun hduty => hap.duty r rfl hduty
  | cancelRegistration r handing hstate | cancelPending r handing hstate =>
    all_goals
      obtain ⟨hslot, hcalled, hund, hret⟩ := hcancelling r handing rfl
      exact hy.cancelRecord hslot hcalled (by rintro h; simp [h] at hstate) hund hret
  | cancelHanded r | cancelLeave r =>
    all_goals
      obtain ⟨hslot, hcalled, hund, hret⟩ := hcancelling r true rfl
      exact hy.arriveHandoff hslot hcalled (hx.2.2.2.2.2.2 rfl) hund hret
  | _ => all_goals simp [Stage.owns] at hguest

theorem StageOk.other (hy : StageOk v y) (hx : StageOk v x) (hv : ViewOk v) (hap : Apart x y)
    (hm : Move v x v' x') : StageOk v' y := by
  cases hown : x.owns with
  | false => exact hy.other_of_guest hx hv hown hap hm
  | true =>
    refine hy.other_of_owns hx hown ?_ hap hm
    exact Bool.eq_false_iff.mpr fun hyo => hap.owner hown hyo

/-! ### Whatever is waited for will come -/

/-- A thread that owes a completion keeps owing it, or completes, or publishes the request. -/
theorem Move.duty_kept (hm : Move v x v' x') (hx : StageOk v x) (hduty : x.duty = some r) :
    x'.duty = some r ∨ v'.completions r = 1 ∨ (v'.slot = some r ∧ v'.state ≠ .cancelled) := by
  cases hm <;> simp only [Stage.duty, StageOk] at hduty hx ⊢ <;> grind

theorem Move.slot_kept (hm : Move v x v' x') (hx : StageOk v x) (hslot : v.slot = some r)
    (hstate : v.state ≠ .cancelled) :
    x'.duty = some r ∨ (v'.slot = some r ∧ v'.state ≠ .cancelled) := by
  cases hm <;> simp only [Stage.duty, StageOk] at hx ⊢ <;> grind

theorem Move.completed_kept (hm : Move v x v' x') (hx : StageOk v x) (hdone : v.completions r = 1) :
    v'.completions r = 1 := by
  cases hm <;> simp only [StageOk] at hx <;> grind

theorem Move.dispatched_new (hm : Move v x v' x') (hx : StageOk v x) (hseen : v'.cancel r ≠ .absent) :
    v.cancel r ≠ .absent ∨ x'.duty = some r := by
  cases hm <;> simp only [Stage.duty, StageOk] at hx ⊢ <;> grind

/-- The callback of the published request is undecided after a move, unless it was before and the mover
did not decide it, or the mover retires the record. -/
theorem Move.called_new (hm : Move v x v' x') (hx : StageOk v x) (hslot : v'.slot = some r)
    (hcalled : v'.cancel r = .called) (hhandoff : v'.handoff ≠ .cancelArrived)
    (hstate : v'.state ≠ .cancelled) :
    x'.undecided = some r ∨ x'.retiring = true
      ∨ (x.retiring = false ∧ x.undecided ≠ some r ∧ v.slot = some r ∧ v.cancel r = .called
        ∧ v.handoff ≠ .cancelArrived ∧ v.state ≠ .cancelled) := by
  cases hm <;> simp only [Stage.undecided, Stage.retiring, StageOk] at hx ⊢ <;> grind

theorem Move.owns_kept (hm : Move v x v' x') (hx : StageOk v x) (hown : x.owns = true) :
    x'.owns = true ∨ v'.state = .free ∨ v'.state = .pending ∨ (v'.state = .unmarking
      ∧ v'.handoff = .unmarkCancelled ∧ ∃ q, v'.slot = some q
      ∧ (v'.cancel q = .owed ∨ v'.cancel q = .called) ∧ v'.completions q = 0) := by
  cases hm <;> simp only [Stage.owns, StageOk] at hx hown ⊢ <;> grind

theorem Move.owned_new (hm : Move v x v' x') (hx : StageOk v x)
    (hstate : v'.state = .registering ∨ v'.state = .teardown ∨ v'.state = .cancelled) :
    x'.owns = true ∨ v.state = .registering ∨ v.state = .teardown ∨ v.state = .cancelled := by
  cases hm <;> simp only [Stage.owns, StageOk] at hx ⊢ <;> grind

theorem Move.handed_new (hm : Move v x v' x') (hx : StageOk v x) (hguest : x.owns = false)
    (hstate : v'.state = .unmarking) :
    x'.owns = true ∨ (v.state = .unmarking ∧ (v.handoff = .unmarkCancelled → ∀ q, v.slot = some q →
      (v.cancel q = .owed ∨ v.cancel q = .called) → v.completions q = 0 →
      v'.handoff = .unmarkCancelled ∧ v'.slot = some q ∧ (v'.cancel q = .owed ∨ v'.cancel q = .called)
        ∧ v'.completions q = 0)) := by
  cases hm <;> simp only [Stage.owns, StageOk] at hx hguest ⊢ <;> grind

/-! ### A move keeps ownership -/

theorem Own.initial : Own .initial fun _ => .none where
  view := by constructor <;> simp [View.initial]
  stage _ := trivial
  apart _ _ _ := by constructor <;> simp [Stage.owns, Stage.duty, Stage.undecided]
  owned := by simp [View.initial]
  handed := by simp [View.initial]
  answered := by simp [View.initial]
  called := by simp [View.initial]

theorem Own.apart_update (h : Own v σ) (hx : σ t = x) (hm : Move v x v' x') (u w : ThreadId) (hne : u ≠ w) :
    Apart (Function.update σ t x' u) (Function.update σ t x' w) := by
  have hmover : ∀ w, t ≠ w → Apart x' (σ w) := fun w hw =>
    (hx ▸ h.apart t w hw).move h.view (hx ▸ h.stage t) (h.stage w) hm
  by_cases hu : u = t
  · subst hu
    rw [Function.update_self, Function.update_of_ne hne.symm]
    exact hmover w hne
  · rw [Function.update_of_ne hu]
    by_cases hw : w = t
    · subst hw
      rw [Function.update_self]
      exact (hmover u hne.symm).symm
    · rw [Function.update_of_ne hw]
      exact h.apart u w hne

theorem Own.stage_update (h : Own v σ) (hx : σ t = x) (hm : Move v x v' x') (u : ThreadId) :
    StageOk v' (Function.update σ t x' u) := by
  have hxs : StageOk v x := hx ▸ h.stage t
  by_cases hu : u = t
  · subst hu
    rw [Function.update_self]
    exact hxs.move h.view hm
  · rw [Function.update_of_ne hu]
    exact (h.stage u).other hxs h.view (hx ▸ h.apart t u (Ne.symm hu)) hm

/-- Every move of a thread keeps ownership. -/
theorem Own.move (h : Own v σ) (hx : σ t = x) (hm : Move v x v' x') :
    Own v' (Function.update σ t x') := by
  have hxs : StageOk v x := hx ▸ h.stage t
  refine ⟨h.view.move hxs hm, h.stage_update hx hm, h.apart_update hx hm, ?_, ?_, ?_, ?_⟩
  · intro hstate
    rcases hm.owned_new hxs hstate with hown | hold
    · exact exists_update_self hown
    · refine exists_update (h.owned hold) fun hown => ?_
      rw [hx] at hown
      rcases hm.owns_kept hxs hown with hkept | hfree | hpending | ⟨hun, -⟩
      · exact hkept
      all_goals simp_all
  · intro hstate
    by_cases hown : x.owns = true
    · rcases hm.owns_kept hxs hown with hkept | hfree | hpending | ⟨-, hleft⟩
      · exact .inl (exists_update_self hkept)
      · simp [hstate] at hfree
      · simp [hstate] at hpending
      · exact .inr hleft
    · rcases hm.handed_new hxs (Bool.eq_false_iff.mpr hown) hstate with hown' | ⟨hold, hkeep⟩
      · exact .inl (exists_update_self hown')
      · rcases h.handed hold with howner | ⟨hhandoff, q, hslot, hcancel, hopen⟩
        · exact .inl (exists_update howner fun htown => absurd (hx ▸ htown) hown)
        · obtain ⟨h1, h2, h3, h4⟩ := hkeep hhandoff q hslot hcancel hopen
          exact .inr ⟨h1, q, h2, h3, h4⟩
  · intro r hseen
    rcases hm.dispatched_new hxs hseen with hold | hduty
    · rcases h.answered r hold with hdone | howed | ⟨hslot, hstate⟩
      · exact .inl (hm.completed_kept hxs hdone)
      · by_cases hmine : x.duty = some r
        · rcases hm.duty_kept hxs hmine with hduty | hdone | hpub
          · exact .inr (.inl (exists_update_self hduty))
          · exact .inl hdone
          · exact .inr (.inr hpub)
        · exact .inr (.inl (exists_update howed fun hduty => absurd (hx ▸ hduty) hmine))
      · rcases hm.slot_kept hxs hslot hstate with hduty | hpub
        · exact .inr (.inl (exists_update_self hduty))
        · exact .inr (.inr hpub)
    · exact .inr (.inl (exists_update_self hduty))
  · intro r hslot hcalled hhandoff hstate
    rcases hm.called_new hxs hslot hcalled hhandoff hstate with
      hund | hret | ⟨hnret, hnund, hslot₀, hcalled₀, hhandoff₀, hstate₀⟩
    · exact .inl (exists_update_self hund)
    · exact .inr (exists_update_self hret)
    · rcases h.called r hslot₀ hcalled₀ hhandoff₀ hstate₀ with hund | hret
      · exact .inl (exists_update hund fun hmine => absurd (hx ▸ hmine) hnund)
      · exact .inr (exists_update hret fun hmine => absurd (hx ▸ hmine) (by simp [hnret]))

end WinTap

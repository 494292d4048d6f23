import Mathlib.Data.List.Nodup
import Mathlib.Logic.Function.Basic

/-!
# Custody of tokens

Tokens wait in a pool, are held by at most one agent each, and end in a list of finished ones. `Custody`
says that no token is in two of these places at once. The moves are the ones a queue with several
servers makes: an agent takes a token from the pool, puts it back, or finishes it. A move neither loses
nor duplicates a token; issuing a fresh one and letting one go are separate.

`line` is the order in which tokens come out when one agent at a time takes them: the finished ones, the
one in hand, the pool. Taking from the front and finishing keep the line as it is.
-/

/-- Every token is in at most one place: once in the pool, once among the finished, or in one hand. -/
structure Custody {ι τ : Type} (hand : ι → Option τ) (pool gone : List τ) : Prop where
  pool_nodup : pool.Nodup
  gone_nodup : gone.Nodup
  pool_gone : ∀ x, x ∈ pool → x ∉ gone
  hand_pool : ∀ i x, hand i = some x → x ∉ pool
  hand_gone : ∀ i x, hand i = some x → x ∉ gone
  hand_hand : ∀ i j x, hand i = some x → hand j = some x → i = j

namespace Custody

variable {ι τ : Type} {hand : ι → Option τ} {pool gone : List τ} {i : ι} {x : τ}

theorem initial (hhand : ∀ i, hand i = none) : Custody hand [] [] where
  pool_nodup := List.nodup_nil
  gone_nodup := List.nodup_nil
  pool_gone := by simp
  hand_pool := by simp
  hand_gone := by simp
  hand_hand i _ _ hi := by rw [hhand i] at hi; cases hi

theorem thin {pool' : List τ} (h : Custody hand pool gone) (hsub : pool'.Sublist pool) :
    Custody hand pool' gone where
  pool_nodup := hsub.nodup h.pool_nodup
  gone_nodup := h.gone_nodup
  pool_gone z hz := h.pool_gone z (hsub.subset hz)
  hand_pool j z hj hz := h.hand_pool j z hj (hsub.subset hz)
  hand_gone := h.hand_gone
  hand_hand := h.hand_hand

theorem join (h : Custody hand pool gone) (hpool : x ∉ pool) (hgone : x ∉ gone)
    (hhand : ∀ j, hand j ≠ some x) : Custody hand (pool ++ [x]) gone where
  pool_nodup := by
    refine List.Nodup.append h.pool_nodup (List.nodup_singleton x) ?_
    intro z hz hzx
    exact hpool (List.mem_singleton.mp hzx ▸ hz)
  gone_nodup := h.gone_nodup
  pool_gone z hz := by
    obtain hz | hz := List.mem_append.mp hz
    · exact h.pool_gone z hz
    · exact List.mem_singleton.mp hz ▸ hgone
  hand_pool j z hj hz := by
    obtain hz | hz := List.mem_append.mp hz
    · exact h.hand_pool j z hj hz
    · exact hhand j (List.mem_singleton.mp hz ▸ hj)
  hand_gone := h.hand_gone
  hand_hand := h.hand_hand

theorem finish (h : Custody hand pool gone) (hpool : x ∉ pool) (hgone : x ∉ gone)
    (hhand : ∀ j, hand j ≠ some x) : Custody hand pool (x :: gone) where
  pool_nodup := h.pool_nodup
  gone_nodup := List.nodup_cons.mpr ⟨hgone, h.gone_nodup⟩
  pool_gone z hz hzx := by
    obtain rfl | hz' := List.mem_cons.mp hzx
    · exact hpool hz
    · exact h.pool_gone z hz hz'
  hand_pool := h.hand_pool
  hand_gone j z hj hzx := by
    obtain rfl | hz' := List.mem_cons.mp hzx
    · exact hhand j hj
    · exact h.hand_gone j z hj hz'
  hand_hand := h.hand_hand

variable [DecidableEq ι]

/-- What an agent holds after its own hand changed, for the agents that keep theirs. -/
theorem update_cases {y : Option τ} {j : ι} {z : τ} (h : Function.update hand i y j = some z) :
    (j = i ∧ y = some z) ∨ (j ≠ i ∧ hand j = some z) := by
  by_cases hji : j = i
  · subst hji
    rw [Function.update_self] at h
    exact .inl ⟨rfl, h⟩
  · rw [Function.update_of_ne hji] at h
    exact .inr ⟨hji, h⟩

theorem release (h : Custody hand pool gone) : Custody (Function.update hand i none) pool gone where
  pool_nodup := h.pool_nodup
  gone_nodup := h.gone_nodup
  pool_gone := h.pool_gone
  hand_pool j z hj := by
    obtain ⟨-, hnone⟩ | ⟨-, hj⟩ := update_cases hj
    · cases hnone
    · exact h.hand_pool j z hj
  hand_gone j z hj := by
    obtain ⟨-, hnone⟩ | ⟨-, hj⟩ := update_cases hj
    · cases hnone
    · exact h.hand_gone j z hj
  hand_hand j k z hj hk := by
    obtain ⟨-, hnone⟩ | ⟨-, hj⟩ := update_cases hj
    · cases hnone
    · obtain ⟨-, hnone⟩ | ⟨-, hk⟩ := update_cases hk
      · cases hnone
      · exact h.hand_hand j k z hj hk

theorem issue (h : Custody hand pool gone) (hpool : x ∉ pool) (hgone : x ∉ gone)
    (hhand : ∀ j, hand j ≠ some x) : Custody (Function.update hand i (some x)) pool gone where
  pool_nodup := h.pool_nodup
  gone_nodup := h.gone_nodup
  pool_gone := h.pool_gone
  hand_pool j z hj := by
    obtain ⟨-, hx⟩ | ⟨-, hj⟩ := update_cases hj
    · cases hx
      exact hpool
    · exact h.hand_pool j z hj
  hand_gone j z hj := by
    obtain ⟨-, hx⟩ | ⟨-, hj⟩ := update_cases hj
    · cases hx
      exact hgone
    · exact h.hand_gone j z hj
  hand_hand j k z hj hk := by
    obtain ⟨hji, hx⟩ | ⟨-, hj⟩ := update_cases hj
    · obtain ⟨hki, -⟩ | ⟨-, hk⟩ := update_cases hk
      · rw [hji, hki]
      · exact absurd (hx ▸ hk) (hhand k)
    · obtain ⟨-, hx⟩ | ⟨-, hk⟩ := update_cases hk
      · exact absurd (hx ▸ hj) (hhand j)
      · exact h.hand_hand j k z hj hk

theorem released_free (h : Custody hand pool gone) (hi : hand i = some x) (j : ι) :
    Function.update hand i none j ≠ some x := by
  intro hj
  obtain ⟨-, hnone⟩ | ⟨hji, hj⟩ := update_cases hj
  · cases hnone
  · exact hji (h.hand_hand j i x hj hi)

theorem take {rest : List τ} (h : Custody hand (x :: rest) gone) :
    Custody (Function.update hand i (some x)) rest gone := by
  have hnodup := List.nodup_cons.mp h.pool_nodup
  refine (h.thin (List.sublist_cons_self x rest)).issue hnodup.1 ?_ ?_
  · exact h.pool_gone x List.mem_cons_self
  · intro j hj
    exact h.hand_pool j x hj List.mem_cons_self

theorem put (h : Custody hand pool gone) (hi : hand i = some x) :
    Custody (Function.update hand i none) (pool ++ [x]) gone :=
  h.release.join (h.hand_pool i x hi) (h.hand_gone i x hi) (h.released_free hi)

theorem retire (h : Custody hand pool gone) (hi : hand i = some x) :
    Custody (Function.update hand i none) pool (x :: gone) :=
  h.release.finish (h.hand_pool i x hi) (h.hand_gone i x hi) (h.released_free hi)

/-! ### Moves of one agent -/

/-- What one step of an agent does to its hand, the pool and the finished tokens. -/
inductive Move {τ : Type} :
    Option τ → List τ → List τ → Option τ → List τ → List τ → Prop
  | keep {y : Option τ} {pool gone : List τ} : Move y pool gone y pool gone
  | take {x : τ} {rest gone : List τ} : Move none (x :: rest) gone (some x) rest gone
  | put {x : τ} {pool gone : List τ} : Move (some x) pool gone none (pool ++ [x]) gone
  | retire {x : τ} {pool gone : List τ} : Move (some x) pool gone none pool (x :: gone)

variable {pool' gone' : List τ} {y y' : Option τ}

theorem move (h : Custody hand pool gone) (hm : Move (hand i) pool gone y' pool' gone') :
    Custody (Function.update hand i y') pool' gone' := by
  generalize hi : hand i = y at hm
  cases hm with
  | keep => rwa [← hi, Function.update_eq_self]
  | take => exact h.take
  | put => exact h.put hi
  | retire => exact h.retire hi

/-- A token of the agent, the pool or the finished ones. -/
def Has (y : Option τ) (pool gone : List τ) (x : τ) : Prop := y = some x ∨ x ∈ pool ∨ x ∈ gone

omit [DecidableEq ι] in
/-- A move neither loses nor duplicates a token. -/
theorem Move.has_iff (hm : Move y pool gone y' pool' gone') (x : τ) :
    Has y' pool' gone' x ↔ Has y pool gone x := by
  cases hm with
  | keep => exact Iff.rfl
  | take => simp only [Has, Option.some.injEq, List.mem_cons, reduceCtorEq, false_or, or_assoc, eq_comm]
  | put =>
    simp only [Has, List.mem_append, List.mem_singleton, reduceCtorEq, false_or, Option.some.injEq]
    tauto
  | retire =>
    simp only [Has, List.mem_cons, reduceCtorEq, false_or, Option.some.injEq]
    tauto

omit [DecidableEq ι] in
theorem Move.hand_from (hm : Move y pool gone y' pool' gone') (hx : y' = some x) : y = some x ∨ x ∈ pool := by
  cases hm with
  | keep => exact .inl hx
  | take =>
    cases hx
    exact .inr List.mem_cons_self
  | put | retire => cases hx

omit [DecidableEq ι] in
theorem Move.pool_from (hm : Move y pool gone y' pool' gone') (hx : x ∈ pool') : x ∈ pool ∨ y = some x := by
  cases hm with
  | keep | retire => exact .inl hx
  | take => exact .inl (List.mem_cons_of_mem _ hx)
  | put =>
    obtain hx | hx := List.mem_append.mp hx
    · exact .inl hx
    · exact .inr (congrArg some (List.mem_singleton.mp hx).symm)

theorem Move.same_of_none (hm : Move none pool gone none pool' gone') : pool' = pool ∧ gone' = gone := by
  cases hm
  exact ⟨rfl, rfl⟩

/-! ### The line of tokens -/

/-- What the agents hold between them, when one of them at a time holds a token. -/
def InHand (hand : ι → Option τ) (held : Option τ) : Prop := ∀ x, held = some x ↔ ∃ i, hand i = some x

variable {held : Option τ}

omit [DecidableEq ι] in
theorem InHand.initial (hhand : ∀ i, hand i = none) : InHand hand none := by
  refine fun x => ⟨nofun, ?_⟩
  rintro ⟨i, hi⟩
  rw [hhand i] at hi
  cases hi

omit [DecidableEq ι] in
theorem InHand.eq_hand (h : InHand hand held) (hturn : ∀ j, hand j ≠ none → j = i) : held = hand i := by
  refine Option.ext fun x => ⟨fun hx => ?_, fun hx => (h x).mpr ⟨i, hx⟩⟩
  obtain ⟨j, hj⟩ := (h x).mp hx
  rwa [← hturn j (by rw [hj]; exact Option.some_ne_none x)]

theorem InHand.update (hturn : ∀ j, hand j ≠ none → j = i) : InHand (Function.update hand i y) y := by
  refine fun x => ⟨fun hx => ⟨i, by rwa [Function.update_self]⟩, ?_⟩
  rintro ⟨j, hj⟩
  by_cases hji : j = i
  · subst hji
    rwa [Function.update_self] at hj
  · rw [Function.update_of_ne hji] at hj
    exact absurd (hturn j (by rw [hj]; exact Option.some_ne_none x)) hji

/-- The tokens in the order in which they are finished: `gone` is newest first. -/
def line (held : Option τ) (pool gone : List τ) : List τ := gone.reverse ++ (held.toList ++ pool)

/-- An agent that puts a token back only into an empty pool keeps the line. -/
theorem Move.line_taker (hm : Move y pool gone y' pool' gone')
    (hput : pool.length < pool'.length → pool = []) (rest : List τ) :
    line y' (pool' ++ rest) gone' = line y (pool ++ rest) gone := by
  cases hm with
  | keep => rfl
  | take => rfl
  | put =>
    rw [hput (by simp)]
    rfl
  | retire => simp [line]

/-- An agent whose token joins the pool at its end keeps the line, with its token as the last; it may
finish the token itself when no other is before it. -/
theorem Move.line_giver (hm : Move y pool gone y' pool' gone') (hnew : ∀ x, y' = some x → y = some x)
    (hretire : gone.length < gone'.length → held = none ∧ pool = []) :
    line held (pool' ++ y'.toList) gone' = line held (pool ++ y.toList) gone := by
  cases hm with
  | keep => rfl
  | take => exact absurd (hnew _ rfl) nofun
  | put => simp [line]
  | retire =>
    obtain ⟨rfl, rfl⟩ := hretire (by simp)
    simp [line]

theorem line_drop_held (pool gone : List τ) : (line none pool gone).Sublist (line held pool gone) :=
  List.Sublist.append_left (List.sublist_append_right _ _) _

theorem line_drop_last (pool gone : List τ) :
    (line held (pool ++ (none : Option τ).toList) gone).Sublist (line held (pool ++ y.toList) gone) :=
  List.Sublist.append_left (List.Sublist.append_left (List.Sublist.append_left (List.nil_sublist _) _) _) _

/-! ### Losing tokens -/

/-- What one step of an agent does when tokens may also get lost: it makes a move, lets go of what it holds, or the
pool is thinned. -/
inductive Lapse {τ : Type} : Option τ → List τ → List τ → Option τ → List τ → List τ → Prop
  | move {y y' : Option τ} {pool gone pool' gone' : List τ} (hm : Move y pool gone y' pool' gone') :
    Lapse y pool gone y' pool' gone'
  | letGo {y : Option τ} {pool gone : List τ} : Lapse y pool gone none pool gone
  | thin {y : Option τ} {pool pool' gone : List τ} (hsub : pool'.Sublist pool) : Lapse y pool gone y pool' gone

theorem lapse (h : Custody hand pool gone) (hl : Lapse (hand i) pool gone y' pool' gone') :
    Custody (Function.update hand i y') pool' gone' := by
  generalize hi : hand i = y at hl
  cases hl with
  | move hm => exact h.move (hi ▸ hm)
  | letGo => exact h.release
  | thin hsub =>
    rw [← hi, Function.update_eq_self]
    exact h.thin hsub

omit [DecidableEq ι] in
theorem Lapse.has (hl : Lapse y pool gone y' pool' gone') (hx : Has y' pool' gone' x) : Has y pool gone x := by
  cases hl with
  | move hm => exact (hm.has_iff x).mp hx
  | letGo => exact .inr (hx.resolve_left nofun)
  | thin hsub => exact hx.imp_right (Or.imp_left fun hmem => hsub.subset hmem)

omit [DecidableEq ι] in
theorem Lapse.map {υ : Type} (f : τ → υ) (hl : Lapse y pool gone y' pool' gone') :
    Lapse (y.map f) (pool.map f) (gone.map f) (y'.map f) (pool'.map f) (gone'.map f) := by
  cases hl with
  | move hm =>
    refine .move ?_
    cases hm with
    | keep => exact .keep
    | take => exact .take
    | put =>
      rw [List.map_append]
      exact .put
    | retire => exact .retire
  | letGo => exact .letGo
  | thin hsub => exact .thin (hsub.map f)

omit [DecidableEq ι] in
theorem Lapse.hand_from (hl : Lapse y pool gone y' pool' gone') (hx : y' = some x) : y = some x ∨ x ∈ pool := by
  cases hl with
  | move hm => exact hm.hand_from hx
  | letGo => cases hx
  | thin _ => exact .inl hx

omit [DecidableEq ι] in
theorem Lapse.pool_from (hl : Lapse y pool gone y' pool' gone') (hx : x ∈ pool') : x ∈ pool ∨ y = some x := by
  cases hl with
  | move hm => exact hm.pool_from hx
  | letGo => exact .inl hx
  | thin hsub => exact .inl (hsub.subset hx)

omit [DecidableEq ι] in
theorem Lapse.gone_from (hl : Lapse y pool gone y' pool' gone') (hx : x ∈ gone') : x ∈ gone ∨ y = some x := by
  cases hl with
  | move hm =>
    cases hm with
    | keep | take | put => exact .inl hx
    | retire => exact (List.mem_cons.mp hx).symm.imp_right fun heq => congrArg some heq.symm
  | letGo | thin _ => exact .inl hx

/-- A token of any agent, the pool or the finished ones. -/
def Present (hand : ι → Option τ) (pool gone : List τ) (x : τ) : Prop := ∃ i, Has (hand i) pool gone x

theorem Present.of_lapse (hl : Lapse (hand i) pool gone y' pool' gone')
    (hx : Present (Function.update hand i y') pool' gone' x) : Present hand pool gone x := by
  obtain ⟨j, hj⟩ := hx
  by_cases hji : j = i
  · subst hji
    rw [Function.update_self] at hj
    exact ⟨j, hl.has hj⟩
  · rw [Function.update_of_ne hji] at hj
    obtain hhand | hrest := hj
    · exact ⟨j, .inl hhand⟩
    · exact ⟨i, hl.has (.inr hrest)⟩

theorem Present.of_issue {z : τ} (hx : Present (Function.update hand i (some z)) pool gone x) :
    x = z ∨ Present hand pool gone x := by
  obtain ⟨j, hj⟩ := hx
  obtain hhand | hrest := hj
  · obtain ⟨-, hz⟩ | ⟨-, hj⟩ := update_cases hhand
    · exact .inl (Option.some.inj hz).symm
    · exact .inr ⟨j, .inl hj⟩
  · exact .inr ⟨j, .inr hrest⟩

end Custody

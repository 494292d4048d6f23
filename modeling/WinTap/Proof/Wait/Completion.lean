import WinTap.Proof.Wait.Refinement

/-!
# A wait is completed once

What ownership says of the requests, read back from the view to the source's words and to the history of
framework calls.
-/

namespace WinTap

variable {v : View} {σ : ThreadId → Stage} {x : Stage} {r : Request} {s : WaitWorld}

theorem StageOk.slot_open (hx : StageOk v x) (hown : x.owns = true) (hslot : v.slot = some r)
    (hstate : v.state ≠ .cancelled) : v.completions r = 0 := by
  cases x <;> simp only [StageOk, Stage.owns, Bool.false_eq_true] at hx hown <;> grind

theorem Own.slot_open (h : Own v σ) (hslot : v.slot = some r) (hstate : v.state ≠ .cancelled) :
    v.completions r = 0 := by
  have howned : (∃ t, (σ t).owns = true) → v.completions r = 0 := fun ⟨t, hown⟩ =>
    (h.stage t).slot_open hown hslot hstate
  have hpublished : v.state = .pending ∨ v.state = .scheduled → v.completions r = 0 := fun hpub => by
    obtain ⟨q, hq, -, -, hopen, -⟩ := h.view.published hpub
    obtain rfl : q = r := by simpa [hslot] using hq.symm
    exact hopen
  cases hcase : v.state with
  | free => simp [(h.view.free hcase).1] at hslot
  | registering => exact howned (h.owned (.inl hcase))
  | pending => exact hpublished (.inl hcase)
  | scheduled => exact hpublished (.inr hcase)
  | unmarking =>
    rcases h.handed hcase with hown | ⟨-, q, hq, -, hopen⟩
    · exact howned hown
    · obtain rfl : q = r := by simpa [hslot] using hq.symm
      exact hopen
  | teardown => exact howned (h.owned (.inr (.inl hcase)))
  | cancelled => exact absurd hcase hstate

/-- In an orderly history whatever came before an unmark did not complete the request. -/
theorem Orderly.before_unmark {calls later earlier : List Call} (h : Orderly calls)
    (hsplit : calls = later ++ .unmark r :: earlier) : earlier.countP (Call.completes r) = 0 := by
  induction later generalizing calls with
  | nil =>
    subst hsplit
    exact h.1
  | cons call later ih =>
    subst hsplit
    refine ih ?_ rfl
    cases call with
    | unmark q => exact h.2
    | _ => all_goals exact h

/-- In every interleaving no request is completed twice, the unmark is called at most once for a request
and never after the request was completed, and a completed request is still published only while the
record is `WAIT_CANCELLED`. -/
theorem wait_completed_at_most_once (h : WaitReach s) (r : Request) :
    s.core.completions r ≤ 1 ∧ s.core.unmarks r ≤ 1
      ∧ (∀ later earlier, s.core.calls = later ++ .unmark r :: earlier →
        earlier.countP (Call.completes r) = 0)
      ∧ (0 < s.core.completions r → s.core.waitRequest = some r →
        waitRecordState s.core.waitState = waitCancelled) := by
  have hinv := h.inv
  obtain ⟨hcompleted, hunmarked⟩ := hinv.own.view.once r
  refine ⟨hcompleted, hunmarked, fun later earlier => hinv.own.view.orderly.before_unmark, ?_⟩
  intro hdone hslot
  have hcancelled : s.core.view.state = .cancelled := by
    by_contra hstate
    have hopen : s.core.completions r = 0 := hinv.own.slot_open hslot hstate
    omega
  exact code_of_view_state hcancelled (by simp)

/-- An open adapter with both packet queues running, nothing captured and no room to inject. -/
def openEnv : Env where
  lifecycle := .instanceOpen
  adaptiveEnabled := true
  txQueueStarted := true
  rxQueueStarted := true
  captureGeneration := 0
  injectionGeneration := 0
  readable := false
  writable := false

def WaitWorld.initial (env : Env) : WaitWorld where
  env := env
  core := Core.initial
  controlLock := none
  thr := fun _ => .idle

theorem waitReach_initial (env : Env) : WaitReach (.initial env) := .init ⟨rfl, rfl, fun _ => rfl⟩

def readableInput : WaitInput where
  inputLength := 8
  outputLength := 4
  retrieveStatus := statusSuccess
  actualInputLength := 8
  version := 1
  interest := adaptiveInterestReadable

/-- Request 7 is registered on thread 0, cancelled, and completed by its callback on thread 1. -/
def cancelledWait : WaitWorld :=
  waitSystem.after (.initial openEnv)
    (.register 0 7 readableInput :: List.replicate 29 (.advance 0 none)
      ++ .cancelRequest 7 :: .cancel 1 7 :: List.replicate 12 (.advance 1 none))

theorem wait_completed_at_most_once_cancelled :
    cancelledWait.core.completions 7 = 1 ∧ cancelledWait.core.unmarks 7 ≤ 1 :=
  ⟨by decide +kernel,
    (wait_completed_at_most_once (s := cancelledWait)
      (Machine.System.reach_after (waitReach_initial openEnv) _) 7).2.1⟩

end WinTap

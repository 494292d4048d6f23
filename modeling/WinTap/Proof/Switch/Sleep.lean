import WinTap.Proof.Switch.Close

/-!
# Sleeping with operations in flight

`wait_for_adaptive_change` does not look at the ring while it sleeps, and `run_until_stopped_adaptive` calls it as soon
as the polling budget has passed without progress. Nothing makes sure that the ring has completed what was submitted,
so the process may fall asleep on reads, and on a write, that the driver finishes a moment later.

The table of active operations tells the two cases apart: where the process is about to sleep, the slots with an active
operation are the ones with an operation in flight.
-/

namespace WinTap.SwitchRuntime

open SwitchCore Machine

variable {answer : Answer}
variable {c : Config} {s s' : Process}

/-- The process falls asleep only when no slot has an active operation. -/
def SleepsIdle (c : Config) (s : Process) (answer : Answer) : Prop :=
  s.pc ≠ .asleep → ((switchSystem c).step s answer).any (fun s' => s'.pc = .asleep) = true →
    s.runtime.anyActive c = false

instance (c : Config) (s : Process) (answer : Answer) : Decidable (SleepsIdle c s answer) :=
  inferInstanceAs (Decidable (_ → _ → _))

/-! ### How the process falls asleep -/

theorem call_awake {α : Type} {called : Called α} {failed : Pc} {next : α → Pc} (hfailed : failed ≠ .asleep)
    (hnext : ∀ a, next a ≠ .asleep) : (s.call called failed next).pc ≠ .asleep := by
  obtain ⟨result, r'⟩ := called
  cases result with
  | ok a => exact hnext a
  | error e => exact hfailed

theorem popAndProcess_awake {answer : PopAnswer} {built : HResult} {empty : Pc} {next : Option Bool → Pc}
    (hstep : popAndProcess c s answer built empty next = some s') (hempty : empty ≠ .asleep)
    (hnext : ∀ processed, next processed ≠ .asleep) : s'.pc ≠ .asleep := by
  unfold popAndProcess at hstep
  cases answer with
  | empty =>
    cases hstep
    exact hempty
  | failed status =>
    cases hstep
    exact nofun
  | popped index resultCode information contents =>
    dsimp only at hstep
    split at hstep <;> cases hstep
    exact call_awake (s := s) nofun hnext

theorem stepStart_awake (hstep : stepStart c s answer = some s') : s'.pc ≠ .asleep := by
  unfold stepStart at hstep
  dsimp only at hstep
  split at hstep
  · split at hstep <;> cases hstep
    · exact nofun
    · exact call_awake nofun fun _ => nofun
  · cases hstep
    exact call_awake nofun fun _ => nofun
  · split at hstep <;> cases hstep
    · exact nofun
    · change (if _ then _ else _) ≠ _
      split <;> exact nofun
  · cases hstep

theorem stepLegacy_awake (hstep : stepLegacy c s answer = some s') : s'.pc ≠ .asleep := by
  unfold stepLegacy at hstep
  dsimp only at hstep
  split at hstep
  · cases hstep
    exact nofun
  · exact popAndProcess_awake hstep nofun fun _ => nofun
  · cases hstep
    exact call_awake nofun fun _ => nofun
  · exact popAndProcess_awake hstep nofun fun _ => nofun
  · cases hstep
    exact call_awake nofun fun _ => nofun
  · cases hstep

theorem stepAdaptive_awake (hstep : stepAdaptive c s answer = some s') : s'.pc ≠ .asleep := by
  unfold stepAdaptive at hstep
  dsimp only at hstep
  split at hstep
  · cases hstep
    exact nofun
  · cases hstep
    exact nofun
  · refine popAndProcess_awake hstep ?_ fun _ => nofun
    split <;> exact nofun
  · cases hstep
    refine call_awake nofun fun _ => ?_
    split <;> exact nofun
  · cases hstep
    change (if _ then _ else _) ≠ _
    split <;> exact nofun
  · split at hstep
    · cases hstep
      exact nofun
    split at hstep <;> cases hstep
    · exact nofun
    · exact call_awake nofun fun _ => nofun
  · cases hstep
    exact call_awake nofun fun _ => nofun
  · cases hstep

/-- The steps to the sleep: its own timeout, and a wait of the second endpoint that the driver keeps. -/
theorem stepWaiting_asleep (hstep : stepWaiting c s answer = some s') (hasleep : s'.pc = .asleep) :
    s' = s ∧ s.pc = .asleep ∨
      (∃ ready, s.pc = .armSecond ready) ∧ ∃ waits, s'.runtime = { s.runtime with waits := waits } := by
  unfold stepWaiting at hstep
  dsimp only at hstep
  split at hstep
  · cases hstep
    exact absurd hasleep (call_awake nofun fun _ => nofun)
  · rename_i ready answer hat
    cases hstep
    exact .inr ⟨⟨ready, hat⟩, _, s.call_runtime ..⟩
  · rename_i hat
    cases hstep
    exact .inl ⟨rfl, hat⟩
  all_goals cases hstep
  all_goals cases hasleep

theorem stepProcess_asleep (hinv : ProcessInv c s) (hstep : stepProcess c s answer = some s')
    (hasleep : s'.pc = .asleep) :
    s' = s ∧ s.pc = .asleep ∨
      (∃ ready, s.pc = .armSecond ready) ∧ ∃ waits, s'.runtime = { s.runtime with waits := waits } := by
  by_cases hstopping : s.pc.stopping = true
  · have hstops := (stepProcess_stopsOn hinv hstopping hstep).stopping
    rw [hasleep] at hstops
    cases hstops
  unfold stepProcess at hstep
  split at hstep
  all_goals first
    | exact absurd hasleep (stepStart_awake hstep)
    | exact absurd hasleep (stepLegacy_awake hstep)
    | exact absurd hasleep (stepAdaptive_awake hstep)
    | exact stepWaiting_asleep hstep hasleep
    | exact absurd (by simp only [*, Pc.stopping]) hstopping

/-! ### What is in flight then -/

/-- Before the process falls asleep everything that was built is submitted. -/
theorem ProcessInv.submitted_eq_nil (hinv : ProcessInv c s) {ready : Bool} (hpc : s.pc = .armSecond ready) :
    s.runtime.ring.submitted = [] ↔ s.runtime.anyActive c = false := by
  obtain ⟨hrunning, -, hqueue⟩ : Running s.errors s.runtime ∧ s.runtime.operationsMayBeInFlight = true ∧
      s.runtime.ring.queue = [] := by
    have hat := hinv.pc
    rwa [hpc] at hat
  have houtstanding : s.runtime.ring.outstanding = s.runtime.ring.submitted := by
    rw [IoRing.outstanding, hqueue, List.nil_append]
  constructor
  · intro hempty
    rw [Runtime.anyActive, List.any_eq_false]
    intro i hi hsome
    obtain ⟨slot, hpool, hok⟩ := hinv.runtime.slots i (List.mem_range.mp hi)
    have hentries : s.runtime.entries i = [] := by
      rw [Runtime.entries, houtstanding, hempty]
      rfl
    rw [hentries] at hok
    generalize s.runtime.active i = active at hok hsome
    cases hok with
    | idle hfree => cases hsome
    | unbuilt hmatches hloose => exact hloose hrunning.1
  · intro hnone
    have hcancellation : s.runtime.anyCancellation c = false := by
      rw [Runtime.anyCancellation, List.any_eq_false]
      intro i _
      rw [hrunning.2 i]
      exact Bool.false_ne_true
    rw [← houtstanding]
    exact hinv.runtime.outstanding_eq_nil hnone hcancellation

/-- In a run that falls asleep only without active operations, no operation is in flight while the process sleeps. Any
other step into the sleep leaves one in flight. -/
theorem sleep_needs_idle (c : Config) :
    (∀ s, SwitchReach c (SleepsIdle c) s → s.pc = .asleep → s.runtime.ring.submitted = []) ∧
    ∀ s answer, SwitchReach c Free s → ¬SleepsIdle c s answer →
      ∃ s', (switchSystem c).step s answer = some s' ∧ s'.pc = .asleep ∧ s'.runtime.ring.submitted ≠ [] := by
  constructor
  · intro s hreach
    refine hreach.invariant (P := fun s => s.pc = .asleep → s.runtime.ring.submitted = [])
      (fun s hinit hasleep => ?_) fun s answer s' hs hslept hidle hstep hasleep => ?_
    · obtain rfl : s = startProcess c := hinit
      cases hasleep
    have hinv := SwitchReach.inv hs
    obtain ⟨rfl, hat⟩ | ⟨⟨ready, hat⟩, waits, hruntime⟩ := stepProcess_asleep hinv hstep hasleep
    · exact hslept hat
    · have hawake : s.pc ≠ .asleep := by
        rw [hat]
        exact nofun
      have hnone := hidle hawake (by rw [hstep, Option.any_some]; exact decide_eq_true hasleep)
      rw [hruntime]
      exact (hinv.submitted_eq_nil hat).mpr hnone
  · intro s answer hreach hidle
    unfold SleepsIdle at hidle
    rw [Classical.not_imp, Classical.not_imp] at hidle
    obtain ⟨hawake, hasleep, hactive⟩ := hidle
    obtain ⟨s', hstep, hasleep⟩ := (Option.any_eq_true _ _).mp hasleep
    have hasleep : s'.pc = .asleep := of_decide_eq_true hasleep
    refine ⟨s', hstep, hasleep, ?_⟩
    have hinv := SwitchReach.inv hreach
    obtain ⟨-, hat⟩ | ⟨⟨ready, hat⟩, waits, hruntime⟩ := stepProcess_asleep hinv hstep hasleep
    · exact absurd hat hawake
    · rw [hruntime]
      exact fun hempty => hactive ((hinv.submitted_eq_nil hat).mp hempty)

/-- The budget passes before the reads of `start` have completed, and both waits are kept. -/
def sleepsEarly : List Answer :=
  startsUp ++ [.advance, .pop .empty sOk, .elapsed true, .wait .pended, .wait .pended]

/-- The process sleeps with both its reads in flight. -/
theorem asleep_with_reads_in_flight :
    ∃ s, SwitchReach (smallConfig true) Free s ∧ s.pc = .asleep ∧
      s.runtime.ring.submitted = [.read 10 0 1514 (2 ^ 31), .read 20 1 1514 (2 ^ 31 + 1)] :=
  ⟨(switchSystem (smallConfig true)).after (startProcess (smallConfig true)) sleepsEarly,
    System.reach_after (.init rfl) _, by decide +kernel, by decide +kernel⟩

/-- Both reads find nothing, and the process sleeps with nothing in flight. -/
def sleepsIdle : List Answer :=
  startsUp ++ [.advance, .pop (.popped 0 statusNoMoreEntries 0 fun _ => 0) sOk,
    .pop (.popped 0 statusNoMoreEntries 0 fun _ => 0) sOk, .pop .empty sOk, .submitted sOk, .elapsed true,
    .wait .pended, .wait .pended]

theorem sleep_needs_idle_empty :
    let s := (switchSystem (smallConfig true)).after (startProcess (smallConfig true)) sleepsIdle
    s.pc = .asleep ∧ s.runtime.ring.submitted = [] := by
  intro s
  have hreach : SwitchReach (smallConfig true) (SleepsIdle (smallConfig true)) s :=
    System.reach_after_keeping (by decide +kernel) (.init rfl)
  have hasleep : s.pc = .asleep := by decide +kernel
  exact ⟨hasleep, (sleep_needs_idle (smallConfig true)).1 s hreach hasleep⟩

end WinTap.SwitchRuntime

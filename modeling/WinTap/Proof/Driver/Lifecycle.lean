import WinTap.Proof.Driver.Callbacks

/-!
# The lifecycle of an instance

Four operations write the lifecycle: a cleanup takes it out of OPEN and gives it back, D0 exit suspends the instance
and D0 entry opens it. A cleanup moves it only where it finds it as expected, so from D0 exit's store to D0 entry's
the instance stays suspended, whatever the cleanups do.
-/

namespace WinTap

variable {d d' : Device} {t : ThreadId} {choice : Choice} {th : Thread} {next : Device × Thread}

/-- An operation that writes the lifecycle. -/
inductive LifecycleMove : Thread → Lifecycle → Lifecycle → Thread → Prop
  | close (h : Handle) : LifecycleMove (.cleanup h .claimLifecycle) .instanceOpen .instanceOwnerClosing
      (.cleanup h (.quiesce true .shutReceive))
  | resume (h : Handle) : LifecycleMove (.cleanup h .resume) .instanceOwnerClosing .instanceOpen
      (.cleanup h (.readmitResumed .receive))
  | suspend (old : Lifecycle) : LifecycleMove (.d0Exit .suspend) old .instanceSuspended
      (.d0Exit (.quiesce .shutReceive))
  | enter (old : Lifecycle) : LifecycleMove (.d0Entry .openLifecycle) old .instanceOpen
      (.d0Entry (.readmitCallbacks .receive))

/-- The callback is between D0 exit's store to the lifecycle and D0 entry's. -/
def Thread.suspended : Thread → Bool
  | .d0Exit pc => pc ≠ .suspend
  | .d0Entry (.readmitCallbacks _) => false
  | .d0Entry _ => true
  | _ => false

theorem Thread.transition_of_suspended (h : th.suspended = true) : th.transition ≠ none := by
  cases th with
  | d0Entry pc | d0Exit pc => exact Option.some_ne_none _
  | _ => cases h

section
variable (d t choice)

theorem evtFileCleanup_lifecycle (h : Handle) {pc : CleanupPc} {flow : Flow CleanupPc Unit}
    (hstep : evtFileCleanup d t h choice pc = some (d', flow)) :
    d'.lifecycle = d.lifecycle ∨
      ∃ pc', flow = .run pc' ∧ LifecycleMove (.cleanup h pc) d.lifecycle d'.lifecycle (.cleanup h pc') := by
  cases evtFileCleanup_cases hstep with
  | claim hopen =>
    rw [hopen]
    exact .inr ⟨_, rfl, .close h⟩
  | resume _ hclosing =>
    rw [hclosing]
    exact .inr ⟨_, rfl, .resume h⟩
  | _ => exact .inl rfl

theorem evtDeviceD0Exit_lifecycle {pc : D0ExitPc} {flow : Flow D0ExitPc Unit}
    (hstep : evtDeviceD0Exit d t choice pc = some (d', flow)) :
    d'.lifecycle = d.lifecycle ∧ pc ≠ .suspend ∧ flow ≠ .run .suspend ∨
      ∃ pc', flow = .run pc' ∧ LifecycleMove (.d0Exit pc) d.lifecycle d'.lifecycle (.d0Exit pc') := by
  cases evtDeviceD0Exit_cases hstep with
  | suspend _ => exact .inr ⟨_, rfl, .suspend _⟩
  | _ => exact .inl ⟨rfl, nofun, nofun⟩

theorem evtDeviceD0Entry_lifecycle {pc : D0EntryPc} {flow : Flow D0EntryPc Unit}
    (hstep : evtDeviceD0Entry d pc = some (d', flow)) :
    d'.lifecycle = d.lifecycle ∧
        flow.on (fun pc' => (Thread.d0Entry pc').suspended = (Thread.d0Entry pc).suspended) True ∨
      ∃ pc', flow = .run pc' ∧ LifecycleMove (.d0Entry pc) d.lifecycle d'.lifecycle (.d0Entry pc') := by
  cases evtDeviceD0Entry_cases hstep with
  | openLifecycle _ => exact .inr ⟨_, rfl, .enter _⟩
  | _ => exact .inl ⟨rfl, by trivial⟩

end

/-- A step writes the lifecycle in one of the four ways, or leaves it; then no callback gets into or out of the
suspension, unless it ends. -/
theorem stepThread_lifecycle (hstep : stepThread d t choice th = some next) :
    next.1.lifecycle = d.lifecycle ∧ (next.2 = .idle ∨ next.2.suspended = th.suspended) ∨
      LifecycleMove th d.lifecycle next.1.lifecycle next.2 := by
  by_cases hkind : th.kind ∈ [.cleanup, .d0Entry, .d0Exit]
  · cases th <;> simp [Thread.kind] at hkind
    case cleanup h pc =>
      obtain ⟨⟨d', flow⟩, hresult, rfl⟩ := Option.map_eq_some_iff.mp hstep
      obtain hsame | ⟨pc', rfl, hmove⟩ := evtFileCleanup_lifecycle d t choice h hresult
      · refine .inl ?_
        cases flow with
        | run pc' => exact ⟨hsame, .inr rfl⟩
        | ret value => exact ⟨hsame, .inl rfl⟩
      · exact .inr hmove
    case d0Entry pc =>
      obtain ⟨⟨d', flow⟩, hresult, rfl⟩ := Option.map_eq_some_iff.mp hstep
      obtain ⟨hsame, hflow⟩ | ⟨pc', rfl, hmove⟩ := evtDeviceD0Entry_lifecycle d hresult
      · refine .inl ?_
        cases flow with
        | run pc' => exact ⟨hsame, .inr hflow⟩
        | ret value => exact ⟨hsame, .inl rfl⟩
      · exact .inr hmove
    case d0Exit pc =>
      obtain ⟨⟨d', flow⟩, hresult, rfl⟩ := Option.map_eq_some_iff.mp hstep
      obtain ⟨hsame, hpc, hflow⟩ | ⟨pc', rfl, hmove⟩ := evtDeviceD0Exit_lifecycle d t choice hresult
      · refine .inl ?_
        cases flow with
        | run pc' =>
          have hpc' : pc' ≠ .suspend := fun heq => hflow (heq ▸ rfl)
          refine ⟨hsame, .inr ?_⟩
          change decide (pc' ≠ .suspend) = decide (pc ≠ .suspend)
          simp [hpc, hpc']
        | ret value => exact ⟨hsame, .inl rfl⟩
      · exact .inr hmove
  · refine .inl ⟨(stepThread_frames hstep).lifecycle hkind, ?_⟩
    have hnone : ∀ {th : Thread}, th.kind ∉ [.cleanup, .d0Entry, .d0Exit] → th.suspended = false := by
      intro th hkind
      cases th <;> first | rfl | simp [Thread.kind] at hkind
    exact .inr ((hnone (stepThread_kind_not_mem hstep (by decide) hkind)).trans (hnone hkind).symm)

/-- Power goes down at the end of D0 exit. -/
theorem stepThread_down (hstep : stepThread d t choice th = some next) (hdown : next.1.power = .down) :
    d.power = .down ∨ th.suspended = true := by
  obtain ⟨-, hsame⟩ | ⟨hth, -⟩ := stepThread_transition hstep
  · exact .inl (hsame.symm.trans hdown)
  cases th with
  | d0Entry pc =>
    obtain ⟨⟨d', flow⟩, hresult, rfl⟩ := Option.map_eq_some_iff.mp hstep
    obtain ⟨_, _, _, _, rfl⟩ := evtDeviceD0Entry_frame d pc hresult
    cases flow with
    | run pc' => exact .inl hdown
    | ret value => cases hdown
  | d0Exit pc =>
    obtain ⟨⟨d', flow⟩, hresult, rfl⟩ := Option.map_eq_some_iff.mp hstep
    obtain ⟨-, hpc, -⟩ | ⟨pc', rfl, hmove⟩ := evtDeviceD0Exit_lifecycle d t choice hresult
    · exact .inr (decide_eq_true hpc)
    · obtain ⟨_, _, _, _, _, _, _, _, _, _, _, _, rfl⟩ := evtDeviceD0Exit_frame d t choice pc hresult
      exact .inl hdown
  | _ => exact absurd rfl hth

/-- Between D0 exit's store and D0 entry's the instance is suspended. -/
structure Suspension (s : Driver) : Prop where
  down : s.dev.power = .down → s.dev.lifecycle = .instanceSuspended
  passing : ∀ t, (s.thr t).suspended = true → s.dev.lifecycle = .instanceSuspended

namespace Suspension

variable {s s' : Driver} {a : Action}

/-- A thread moves, and the lifecycle stays. -/
theorem keep (h : Suspension s) (hlifecycle : d.lifecycle = s.dev.lifecycle)
    (hdown : d.power = .down → s.dev.lifecycle = .instanceSuspended)
    (hth : th.suspended = true → s.dev.lifecycle = .instanceSuspended) : Suspension (s.setThread t d th) := by
  refine ⟨fun hpower => hlifecycle.trans (hdown hpower), fun u hu => hlifecycle.trans ?_⟩
  by_cases hut : u = t
  · subst hut
    rw [Driver.setThread_self] at hu
    exact hth hu
  · rw [Driver.setThread_of_ne _ _ _ _ hut] at hu
    exact h.passing u hu

theorem step (h : Suspension s) (halt : Alternating s) (hstep : stepDriver s a = some s') : Suspension s' := by
  cases stepDriver_cases hstep with
  | @start t a d th hidle hstart =>
    cases hstart
    case d0Entry hpower => exact h.keep rfl nofun fun _ => h.down hpower
    case d0Exit hpower => exact h.keep rfl nofun nofun
    all_goals exact h.keep rfl h.down nofun
  | @framework a d hmove => cases hmove <;> exact ⟨h.down, h.passing⟩
  | @packet t length passive gen captured hthr hlength => exact h.keep rfl h.down nofun
  | @advance t choice next hadvance =>
    obtain ⟨hsame, hnext⟩ | hmove := stepThread_lifecycle hadvance
    · refine h.keep hsame (fun hdown => (stepThread_down hadvance hdown).elim h.down (h.passing t)) fun hth => ?_
      obtain hend | hkeep := hnext
      · rw [hend] at hth
        cases hth
      · exact h.passing t (hkeep ▸ hth)
    · obtain ⟨d', th'⟩ := next
      generalize hthr : s.thr t = th at hmove
      generalize hold : s.dev.lifecycle = old at hmove
      generalize hnew : d'.lifecycle = new at hmove
      cases hmove with
      | close | resume =>
        -- a cleanup writes only over a value that no suspended instance has
        have hpower : d'.power = .down → False := fun hdown => by
          have hsuspended := (stepThread_down hadvance hdown).elim h.down (h.passing t)
          rw [hold] at hsuspended
          cases hsuspended
        refine ⟨fun hdown => (hpower hdown).elim, fun u hu => ?_⟩
        rw [Driver.setThread_keep s t d' _ (f := Thread.suspended) (by rw [hthr]; rfl) u] at hu
        have hsuspended := h.passing u hu
        rw [hold] at hsuspended
        cases hsuspended
      | suspend => exact ⟨fun _ => hnew, fun _ _ => hnew⟩
      | enter =>
        have htransition : (s.thr t).transition = some .entering := by rw [hthr]; rfl
        refine ⟨fun hdown => ?_, fun u hu => ?_⟩
        · obtain ⟨-, hsame⟩ | ⟨-, hend⟩ := stepThread_transition hadvance
          · have hpower := hsame.trans (halt.power t _ htransition)
            cases hpower.symm.trans hdown
          · cases hend
        · by_cases hut : u = t
          · subst hut
            rw [Driver.setThread_self] at hu
            cases hu
          · rw [Driver.setThread_of_ne _ _ _ _ hut] at hu
            exact absurd (halt.unique u t (Thread.transition_of_suspended hu) (by simp [htransition])) hut

end Suspension

theorem DriverReach.suspension {ok : Driver → Action → Prop} {s : Driver} (h : DriverReach ok s) :
    Suspension s := by
  refine h.invariant (fun s hinit => ?_) fun _ _ _ hreach hinv _ hstep =>
    hinv.step (DriverReach.alternating hreach) hstep
  obtain ⟨⟨mtu, -, -, hdev⟩, hidle⟩ := hinit
  refine ⟨fun hdown => ?_, fun t ht => ?_⟩
  · rw [hdev] at hdown
    cases hdown
  · rw [hidle t] at ht
    cases ht

end WinTap

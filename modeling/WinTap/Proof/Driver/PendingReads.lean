import WinTap.Proof.Driver.Callbacks
import WinTap.Proof.Driver.Leases
import WinTap.Proof.Driver.Mode

/-!
# The pending-read counter

`pending_reads` moves with the READs that it counts: those waiting in the manual queue, and those that a path
has admitted and not released. A teardown path purges the queue and then resets the counter. Every path that
is counted works under a capture lease, and the teardown path has waited the leases out behind its closer, so
at the reset there is nothing left to count, as long as nobody readmits the direction meanwhile. For the power
closer nobody can. The owner closer is shared by all cleanups, so one cleanup can release it under another.

What the counter never learns of is a READ that the framework cancels while it waits.
-/

namespace WinTap

variable {d : Device} {th : Thread} {t : ThreadId} {choice : Choice} {next : Device × Thread}

/-! ### How far a teardown has come -/

/-- How far a teardown path is, up to its reset of the counter: its closer is set, the capture leases were
waited out, the manual queue was purged. -/
inductive TeardownPhase where
  | outside
  | shut
  | drained
  | purged
  deriving DecidableEq

def QuiescePc.phase : QuiescePc → TeardownPhase
  | .shutReceive | .shutCapture => .outside
  | .drainReceive | .drainCapture => .shut

def CleanupPc.phase : CleanupPc → TeardownPhase
  | .quiesce _ pc => pc.phase
  | .lockDirect _ | .lockWrite _ | .adaptive _ | .teardown .. | .flush .. | .purge .. => .drained
  | .clear .. | .shouldResume _ | .zeroReads _ => .purged
  | _ => .outside

def D0ExitPc.phase : D0ExitPc → TeardownPhase
  | .quiesce pc => pc.phase
  | .lockDirect | .lockWrite | .adaptive | .teardown .. | .flush .. | .purge .. => .drained
  | .clear .. | .zeroReads => .purged
  | _ => .outside

def Thread.phase : Thread → TeardownPhase
  | .cleanup _ pc => pc.phase
  | .d0Exit pc => pc.phase
  | _ => .outside

/-- The closer of a teardown path. -/
def Thread.scope : Thread → Closer
  | .d0Exit _ => .power
  | _ => .owner

/-- The mode that a teardown path has read, while it still needs it. -/
def Thread.readMode : Thread → Bool
  | .cleanup _ (.teardown _ adaptive _) | .cleanup _ (.flush _ adaptive) | .cleanup _ (.purge _ adaptive)
  | .d0Exit (.teardown adaptive _) | .d0Exit (.flush adaptive) | .d0Exit (.purge adaptive) => adaptive
  | _ => false

/-- What a teardown path relies on. -/
structure Secured (d : Device) (th : Thread) : Prop where
  closed : th.phase ≠ .outside → closedBy d.capture.callbackLeases th.scope
  drained : th.phase = .drained ∨ th.phase = .purged → leaseCount d.capture.callbackLeases = 0
  purged : th.phase = .purged → d.readQueue.waiting = []

theorem Secured.outside (h : th.phase = .outside) : Secured d th := by
  refine ⟨fun hphase => absurd h hphase, fun hphase => ?_, fun hphase => ?_⟩
  · rw [h] at hphase
    rcases hphase with hphase | hphase <;> cases hphase
  · rw [h] at hphase
    cases hphase

/-- What a step of a teardown path does to the counter and to the manual queue. -/
inductive CounterStep (d : Device) (th : Thread) (next : Device × Thread) : Prop
  | same (hwaiting : next.1.readQueue.waiting = d.readQueue.waiting)
      (hpending : next.1.pendingReads = d.pendingReads) (hphase : next.2.phase = .purged ↔ th.phase = .purged)
  | purge (hwaiting : next.1.readQueue.waiting = []) (hphase : next.2.phase = .purged)
  | reset (hwaiting : next.1.readQueue.waiting = d.readQueue.waiting) (hpending : next.1.pendingReads = 0)
      (hphase : th.phase = .purged)

/-- How a step of a teardown path in legacy mode comes from one phase to the next. -/
structure PhaseStep (d : Device) (th : Thread) (next : Device × Thread) : Prop where
  counter : CounterStep d th next
  closes : next.2.phase ≠ .outside → next.2.scope = th.scope ∧ (th.phase ≠ .outside ∨ th.shuts .capture th.scope)
  drains : next.2.phase = .drained ∨ next.2.phase = .purged →
    (th.phase = .drained ∨ th.phase = .purged) ∨ leaseCount d.capture.callbackLeases = 0
  mode : next.2.readMode = false

section
variable {d d' : Device}

theorem PhaseStep.stay (hwaiting : next.1.readQueue.waiting = d.readQueue.waiting)
    (hpending : next.1.pendingReads = d.pendingReads) (hphase : next.2.phase = th.phase)
    (hscope : next.2.scope = th.scope) (hmode : next.2.readMode = false) : PhaseStep d th next where
  counter := .same hwaiting hpending (by rw [hphase])
  closes h := ⟨hscope, .inl (hphase ▸ h)⟩
  drains h := .inl (hphase ▸ h)
  mode := hmode

theorem PhaseStep.leave (hwaiting : next.1.readQueue.waiting = d.readQueue.waiting)
    (hpending : next.1.pendingReads = d.pendingReads) (hbefore : th.phase ≠ .purged)
    (hphase : next.2.phase = .outside) (hmode : next.2.readMode = false) : PhaseStep d th next where
  counter := .same hwaiting hpending (by simp [hphase, hbefore])
  closes h := absurd hphase h
  drains h := by simp [hphase] at h
  mode := hmode

theorem PhaseStep.shut (hwaiting : next.1.readQueue.waiting = d.readQueue.waiting)
    (hpending : next.1.pendingReads = d.pendingReads) (hbefore : th.phase = .outside)
    (hshuts : th.shuts .capture th.scope) (hphase : next.2.phase = .shut) (hscope : next.2.scope = th.scope)
    (hmode : next.2.readMode = false) : PhaseStep d th next where
  counter := .same hwaiting hpending (by simp [hphase, hbefore])
  closes _ := ⟨hscope, .inr hshuts⟩
  drains h := by simp [hphase] at h
  mode := hmode

theorem PhaseStep.drained (hwaiting : next.1.readQueue.waiting = d.readQueue.waiting)
    (hpending : next.1.pendingReads = d.pendingReads) (hbefore : th.phase = .shut)
    (hcount : leaseCount d.capture.callbackLeases = 0) (hphase : next.2.phase = .drained)
    (hscope : next.2.scope = th.scope) (hmode : next.2.readMode = false) : PhaseStep d th next where
  counter := .same hwaiting hpending (by simp [hphase, hbefore])
  closes _ := ⟨hscope, .inl (by simp [hbefore])⟩
  drains _ := .inr hcount
  mode := hmode

theorem evtFileCleanup_phase {h : Handle} {pc : CleanupPc} {flow : Flow CleanupPc Unit}
    (hresult : evtFileCleanup d t h choice pc = some (d', flow)) (hlegacy : d.adaptiveEnabled = false)
    (hread : (Thread.cleanup h pc).readMode = false) :
    PhaseStep d (.cleanup h pc) (d', flow.on (Thread.cleanup h) .idle) := by
  cases evtFileCleanup_cases hresult with
  | shutCapture owns => exact .shut rfl rfl rfl ⟨rfl, rfl⟩ rfl rfl rfl
  | drainCapture owns hcount => exact .drained rfl rfl rfl hcount rfl rfl rfl
  | adaptive owns _ => exact .stay rfl rfl rfl rfl hlegacy
  | teardown owns adaptive _ | tornDown owns adaptive _ => exact .stay rfl rfl rfl rfl hread
  | flush owns adaptive _ => exact .stay rfl rfl rfl rfl hread
  | keepQueue owns => cases hread
  | purge owns _ => exact ⟨.purge rfl rfl, fun _ => ⟨rfl, .inl nofun⟩, fun _ => .inl (.inl rfl), rfl⟩
  | zeroReads resume =>
    exact ⟨.reset rfl rfl rfl, fun h => absurd rfl h, fun h => (by rcases h with h | h <;> cases h), rfl⟩
  | _ => exact .stay rfl rfl rfl rfl rfl

theorem evtDeviceD0Exit_phase {pc : D0ExitPc} {flow : Flow D0ExitPc Unit}
    (hresult : evtDeviceD0Exit d t choice pc = some (d', flow)) (hlegacy : d.adaptiveEnabled = false)
    (hread : (Thread.d0Exit pc).readMode = false) :
    PhaseStep d (.d0Exit pc) (d', flow.on Thread.d0Exit .idle) := by
  cases evtDeviceD0Exit_cases hresult with
  | shutCapture => exact .shut rfl rfl rfl ⟨rfl, rfl⟩ rfl rfl rfl
  | drainCapture hcount => exact .drained rfl rfl rfl hcount rfl rfl rfl
  | adaptive _ => exact .stay rfl rfl rfl rfl hlegacy
  | teardown adaptive _ | tornDown adaptive _ => exact .stay rfl rfl rfl rfl hread
  | flush adaptive _ => exact .stay rfl rfl rfl rfl hread
  | keepQueue => cases hread
  | purge _ => exact ⟨.purge rfl rfl, fun _ => ⟨rfl, .inl nofun⟩, fun _ => .inl (.inl rfl), rfl⟩
  | zeroReads _ =>
    exact ⟨.reset rfl rfl rfl, fun h => absurd rfl h, fun h => (by rcases h with h | h <;> cases h), rfl⟩
  | unlockDirect => exact .leave rfl rfl nofun rfl rfl
  | _ => exact .stay rfl rfl rfl rfl rfl

end

/-- A return touches neither the counter nor the manual queue. -/
theorem PhaseStep.settle {π : Type} {inside : π → Thread} {result : Device × Flow π Unit}
    (h : PhaseStep d th (result.1, result.2.on inside .idle)) : PhaseStep d th (th.settle inside result) := by
  obtain ⟨_, _, _, _, _, _, _, hframe⟩ := th.settle_frame inside result
  have hthread : (th.settle inside result).2 = result.2.on inside .idle := by rw [Thread.settle_eq]
  obtain ⟨hcounter, hcloses, hdrains, hmode⟩ := h
  rw [← Prod.mk.eta (p := th.settle inside result), hframe, hthread]
  refine ⟨?_, hcloses, hdrains, hmode⟩
  cases hcounter with
  | same hwaiting hpending hphase => exact .same hwaiting hpending hphase
  | purge hwaiting hphase => exact .purge hwaiting hphase
  | reset hwaiting hpending hphase => exact .reset hwaiting hpending hphase

theorem Thread.outside_of_kind (hk : th.kind ∉ [.cleanup, .d0Exit]) : th.phase = .outside ∧ th.readMode = false := by
  cases th <;> first | exact ⟨rfl, rfl⟩ | simp [Thread.kind] at hk

theorem stepThread_phase (hstep : stepThread d t choice th = some next) (hk : th.kind ∈ [.cleanup, .d0Exit])
    (hlegacy : d.adaptiveEnabled = false) (hread : th.readMode = false) : PhaseStep d th next := by
  cases th <;> simp [Thread.kind] at hk
  case cleanup h pc =>
    obtain ⟨⟨d', flow⟩, hresult, rfl⟩ := Option.map_eq_some_iff.mp hstep
    exact (evtFileCleanup_phase hresult hlegacy hread).settle
  case d0Exit pc =>
    obtain ⟨⟨d', flow⟩, hresult, rfl⟩ := Option.map_eq_some_iff.mp hstep
    exact (evtDeviceD0Exit_phase hresult hlegacy hread).settle

/-! ### Legacy mode -/

/-- An enable request about to set the mode. -/
def Thread.setsMode : Thread → Bool
  | .enable _ _ .store => true
  | _ => false

theorem stepThread_legacy (hstep : stepThread d t choice th = some next) (hlegacy : d.adaptiveEnabled = false)
    (hsets : th.setsMode = false) : next.1.adaptiveEnabled = false := by
  by_cases hk : th.kind ∈ [.enable, .cleanup]
  · cases th <;> simp [Thread.kind] at hk
    case enable h input pc =>
      obtain ⟨result, hresult, rfl⟩ := Option.map_eq_some_iff.mp hstep
      obtain ⟨_, _, _, _, _, _, _, hframe⟩ := (Thread.enable h input pc).settle_frame (.enable h input) result
      rw [hframe]
      change result.1.adaptiveEnabled = false
      cases pc with
      | store => cases hsets
      | _ =>
        simp only [handleEnableAdaptivePolling] at hresult
        repeat' split at hresult
        all_goals first | (cases hresult; exact hlegacy) | cases hresult
    case cleanup h pc =>
      obtain ⟨⟨d', flow⟩, hresult, rfl⟩ := Option.map_eq_some_iff.mp hstep
      obtain ⟨_, _, _, _, _, _, _, hframe⟩ := (Thread.cleanup h pc).settle_frame (.cleanup h) (d', flow)
      rw [hframe]
      change d'.adaptiveEnabled = false
      cases evtFileCleanup_cases hresult with
      | disableAdaptive resume => rfl
      | _ => exact hlegacy
  · rw [(stepThread_frames hstep).adaptiveEnabled hk]
    exact hlegacy

/-! ### Counted paths work under a lease -/

theorem Thread.counted_le_leases (th : Thread) : th.counted ≤ th.captureLeases := by
  cases th with
  | read r pc =>
    cases pc with
    | take | release | forward | forwardFailed | releaseRequest => exact Nat.le_refl 1
    | _ => exact Nat.zero_le _
  | worker pc =>
    cases pc with
    | wait pc => exact Nat.zero_le _
    | drain pc =>
      cases pc with
      | take | release | forward | forwardFailed | releaseRequest => exact Nat.le_refl 1
      | _ => exact Nat.zero_le _
  | transmit passive pc =>
    cases pc with
    | packet gen captured f pc =>
      cases pc with
      | releaseRead r => exact Nat.le_refl 1
      | _ => exact Nat.zero_le _
    | _ => exact Nat.zero_le _
  | _ => exact Nat.zero_le _

theorem Thread.forwards_leases (h : th.forwards = true) : 1 ≤ th.captureLeases := by
  cases th with
  | read r pc =>
    cases pc with
    | tryAdmit | take | forward => exact Nat.le_refl 1
    | _ => cases h
  | worker pc =>
    cases pc with
    | wait pc => cases h
    | drain pc =>
      cases pc with
      | take | forward => exact Nat.le_refl 1
      | _ => cases h
  | _ => cases h

/-! ### Runs -/

/-- Legacy mode without the stop callback of the manual queue: nobody sets the mode. -/
def LegacyMode (s : Driver) (a : Action) : Prop :=
  a.kind ≠ .stopRead ∧ ∀ t, t ∈ a.thread → (s.thr t).setsMode = false

/-- No READ is cancelled while it waits, and no cleanup releases the owner closer of the capture direction
while another one is between closing it and its reset of the counter. -/
def ResetsUndisturbed (s : Driver) (a : Action) : Prop :=
  LegacyMode s a ∧ (∀ r, a ≠ .cancelRead r) ∧ ∀ t, t ∈ a.thread → (s.thr t).readmits .capture .owner →
    ∀ u h pc, s.thr u = .cleanup h pc → pc.phase = .outside

/-- The counter is exact, unless a teardown has purged the queue and is about to reset it. -/
structure PendingInv (s : Driver) : Prop where
  legacy : s.dev.adaptiveEnabled = false
  modes : ∀ t, (s.thr t).readMode = false
  secured : ∀ t, Secured s.dev (s.thr t)
  exact : (∃ t, (s.thr t).phase = .purged) ∨
    ∃ n, Tally (fun t => (s.thr t).counted) n ∧ s.dev.readQueue.waiting.length + n = s.dev.pendingReads

namespace PendingInv

variable {s s' : Driver} {a : Action}

theorem init (h : driverSystem.init s) : PendingInv s := by
  obtain ⟨⟨mtu, -, -, hdev⟩, hidle⟩ := h
  refine ⟨by rw [hdev]; rfl, fun t => by rw [hidle t]; rfl, fun t => .outside (by rw [hidle t]; rfl),
    .inr ⟨0, Tally.zero fun t => by rw [hidle t]; rfl, by rw [hdev]; rfl⟩⟩

theorem keep (h : PendingInv s) (hlegacy : d.adaptiveEnabled = s.dev.adaptiveEnabled)
    (hreads : d.readQueue.waiting = s.dev.readQueue.waiting) (hpending : d.pendingReads = s.dev.pendingReads)
    (hleases : d.capture.callbackLeases = s.dev.capture.callbackLeases) (hmode : th.readMode = (s.thr t).readMode)
    (hphase : th.phase = (s.thr t).phase) (hscope : th.phase ≠ .outside → th.scope = (s.thr t).scope)
    (hcounted : th.counted = (s.thr t).counted) :
    PendingInv (s.setThread t d th) where
  legacy := hlegacy.trans h.legacy
  modes i := (s.setThread_keep t d th hmode i).trans (h.modes i)
  secured i := by
    have hdev : ∀ th', Secured s.dev th' → Secured d th' := fun th' hth' =>
      ⟨hleases ▸ hth'.closed, hleases ▸ hth'.drained, hreads ▸ hth'.purged⟩
    by_cases hi : i = t
    · subst hi
      rw [Driver.setThread_self]
      have hold := hdev _ (h.secured i)
      refine ⟨fun hout => ?_, fun hdrained => hold.drained (hphase ▸ hdrained),
        fun hpurged => hold.purged (hphase ▸ hpurged)⟩
      rw [hscope hout]
      exact hold.closed (hphase ▸ hout)
    · rw [Driver.setThread_of_ne _ _ _ _ hi]
      exact hdev _ (h.secured i)
  exact := by
    obtain ⟨u, hu⟩ | ⟨n, htally, hsum⟩ := h.exact
    · exact .inl ⟨u, (s.setThread_keep t d th hphase u).trans hu⟩
    · refine .inr ⟨n, htally.keep t th hcounted, ?_⟩
      change d.readQueue.waiting.length + n = d.pendingReads
      rw [hreads, hpending, hsum]

/-- What a teardown path relies on survives the step of another thread. -/
theorem secured_step (h : PendingInv s) (hleases : LeasesCounted s) (halternating : Alternating s) {t u : ThreadId}
    (hut : u ≠ t)
    (hreadmits : (s.thr t).readmits .capture .owner → ∀ u h pc, s.thr u = .cleanup h pc → pc.phase = .outside)
    (hkind : (s.thr t).kind ≠ .stopRead) (hstep : stepThread s.dev t choice (s.thr t) = some next) :
    Secured next.1 (s.thr u) := by
  have hold := h.secured u
  have hword := stepThread_word hstep .capture ((hleases .capture).le t)
  -- the closer stays, because nobody readmits the direction for its scope
  have hclosed : (s.thr u).phase ≠ .outside → closedBy next.1.capture.callbackLeases (s.thr u).scope := by
    intro hphase
    refine (hword.closers _).mpr ⟨.inl (hold.closed hphase), fun hreadmit => ?_⟩
    cases hu : s.thr u <;> rw [hu] at hphase hreadmit <;> try exact hphase rfl
    case cleanup h' pc => exact hphase (hreadmits hreadmit u h' pc hu)
    case d0Exit pc =>
      have hentry : (s.thr t).transition ≠ none := by
        cases ht : s.thr t <;> rw [ht] at hreadmit <;> try exact hreadmit.elim
        case cleanup h' pc' =>
          cases pc' <;> first | exact hreadmit.elim | cases hreadmit.1
        case d0Entry pc' => exact nofun
      exact hut (halternating.unique u t (by rw [hu]; exact nofun) hentry)
  have hdrained : (s.thr u).phase = .drained ∨ (s.thr u).phase = .purged →
      leaseCount next.1.capture.callbackLeases = 0 := by
    intro hphase
    have hzero := hold.drained hphase
    have hout : (s.thr u).phase ≠ .outside := by
      intro hout
      rw [hout] at hphase
      rcases hphase with hphase | hphase <;> cases hphase
    have hcount : leaseCount next.1.capture.callbackLeases + (s.thr t).leases .capture
        = leaseCount s.dev.capture.callbackLeases + next.2.leases .capture := hword.count
    have hheld : (s.thr t).leases .capture ≤ leaseCount s.dev.capture.callbackLeases := (hleases .capture).le t
    have hnogrant : ¬(s.thr t).leases .capture < next.2.leases .capture := fun hless =>
      hword.granted hless _ (hold.closed hout)
    omega
  refine ⟨hclosed, hdrained, fun hphase => ?_⟩
  have hempty := hold.purged hphase
  by_cases hk : (s.thr t).kind ∈ [.cleanup, .d0Exit]
  · cases (stepThread_phase hstep hk h.legacy (h.modes t)).counter with
    | same hwaiting => rw [hwaiting, hempty]
    | purge hwaiting => exact hwaiting
    | reset hwaiting => rw [hwaiting, hempty]
  · by_contra hsome
    simp only [List.mem_cons, List.not_mem_nil, or_false, not_or] at hk
    obtain hbefore | hforwards := (stepThread_mode (by simp [hk, hkind]) hstep).waiting hsome
    · exact hbefore hempty
    · have hlease := Thread.forwards_leases hforwards
      have hheld : (s.thr t).captureLeases ≤ leaseCount s.dev.capture.callbackLeases := (hleases .capture).le t
      have hzero := hold.drained (.inr hphase)
      omega

/-- So does what it relies on itself, in every phase it comes to. -/
theorem secured_self (h : PendingInv s) (hleases : LeasesCounted s) (hk : (s.thr t).kind ∈ [.cleanup, .d0Exit])
    (hstep : stepThread s.dev t choice (s.thr t) = some next) : Secured next.1 next.2 := by
  have hphase := stepThread_phase hstep hk h.legacy (h.modes t)
  have hold := h.secured t
  have hword := stepThread_word hstep .capture ((hleases .capture).le t)
  have hnone : (s.thr t).leases .capture = 0 ∧ next.2.leases .capture = 0 := by
    have hzero : (s.thr t).leases .capture = 0 := by
      refine Thread.leases_eq_zero ?_ .capture
      rcases List.mem_cons.mp hk with hk | hk
      · rw [hk]; decide
      · rw [List.mem_singleton.mp hk]; decide
    refine ⟨hzero, (stepThread_teardown_leases ?_ hstep .capture).trans hzero⟩
    simp only [List.mem_cons, List.not_mem_nil, or_false] at hk ⊢
    tauto
  refine ⟨fun hout => ?_, fun hdrained => ?_, fun hpurged => ?_⟩
  · obtain ⟨hscope, hbefore⟩ := hphase.closes hout
    rw [hscope]
    refine (hword.closers _).mpr ⟨hbefore.imp_left hold.closed, fun hreadmit => ?_⟩
    -- a path that readmits is past its reset
    cases ht : s.thr t <;> rw [ht] at hbefore hreadmit <;> try exact hreadmit.elim
    case cleanup h' pc => cases pc <;> first | exact hreadmit.elim | exact hbefore.elim (fun h => h rfl) id
    case d0Entry pc => cases pc <;> first | exact hreadmit.elim | exact hbefore.elim (fun h => h rfl) id
  · have hcount : leaseCount next.1.capture.callbackLeases + (s.thr t).leases .capture
        = leaseCount s.dev.capture.callbackLeases + next.2.leases .capture := hword.count
    have hzero := (hphase.drains hdrained).elim hold.drained id
    omega
  · cases hphase.counter with
    | same hwaiting _ hsame => rw [hwaiting, hold.purged (hsame.mp hpurged)]
    | purge hwaiting => exact hwaiting
    | reset hwaiting _ hsame => rw [hwaiting, hold.purged hsame]

theorem exact_step (h : PendingInv s) (hleases : LeasesCounted s) (hkind : (s.thr t).kind ≠ .stopRead)
    (hstep : stepThread s.dev t choice (s.thr t) = some next) :
    (∃ u, ((s.setThread t next.1 next.2).thr u).phase = .purged) ∨
      ∃ n, Tally (fun u => ((s.setThread t next.1 next.2).thr u).counted) n ∧
        next.1.readQueue.waiting.length + n = next.1.pendingReads := by
  have hother : ∀ u, u ≠ t → (s.thr u).phase = .purged →
      ∃ u, ((s.setThread t next.1 next.2).thr u).phase = .purged := fun u hu hphase =>
    ⟨u, by rwa [Driver.setThread_of_ne _ _ _ _ hu]⟩
  by_cases hk : (s.thr t).kind ∈ [.cleanup, .d0Exit]
  · have hphase := stepThread_phase hstep hk h.legacy (h.modes t)
    have hcounted : next.2.counted = 0 ∧ (s.thr t).counted = 0 := by
      have hzero : (s.thr t).kind ∉ [.read, .worker, .transmit] := by
        cases hth : (s.thr t).kind <;> rw [hth] at hk <;> first | decide | simp at hk
      exact ⟨(Thread.not_counted (stepThread_kind_not_mem hstep (by decide) hzero)).1, (Thread.not_counted hzero).1⟩
    cases hphase.counter with
    | same hwaiting hpending hsame =>
      obtain ⟨u, hu⟩ | ⟨n, htally, hsum⟩ := h.exact
      · refine .inl ?_
        by_cases hut : u = t
        · subst hut
          exact ⟨u, by rw [Driver.setThread_self]; exact hsame.mpr hu⟩
        · exact hother u hut hu
      · refine .inr ⟨n, htally.keep t next.2 (hcounted.1.trans hcounted.2.symm), ?_⟩
        rw [hwaiting, hpending, hsum]
    | purge _ hpurged => exact .inl ⟨t, by rw [Driver.setThread_self]; exact hpurged⟩
    | reset hwaiting hpending hpurged =>
      -- nothing waits and nobody holds a lease, so there is nothing to count
      have hzero := (h.secured t).drained (.inr hpurged)
      refine .inr ⟨0, Tally.zero fun u => ?_, ?_⟩
      · by_cases hut : u = t
        · subst hut
          rw [Driver.setThread_self]
          exact hcounted.1
        · rw [Driver.setThread_of_ne _ _ _ _ hut]
          have hle := Thread.counted_le_leases (s.thr u)
          have hheld : (s.thr u).captureLeases ≤ leaseCount s.dev.capture.callbackLeases :=
            (hleases .capture).le u
          omega
      · rw [hwaiting, (h.secured t).purged hpurged, hpending]
        rfl
  · obtain ⟨u, hu⟩ | ⟨n, htally, hsum⟩ := h.exact
    · refine .inl (hother u ?_ hu)
      rintro rfl
      rw [(Thread.outside_of_kind hk).1] at hu
      cases hu
    · simp only [List.mem_cons, List.not_mem_nil, or_false, not_or] at hk
      have hle : (s.thr t).counted ≤ n := htally.le t
      have hcounts := (stepThread_mode (by simp [hk, hkind]) hstep).counts (by omega)
      unfold KeepsCount at hcounts
      exact .inr ⟨n - (s.thr t).counted + next.2.counted, htally.step t next.2 (by omega), by omega⟩

theorem step (h : PendingInv s) (hleases : LeasesCounted s) (halternating : Alternating s)
    (hkinds : ∀ t, (s.thr t).kind ∉ [.stopRead]) (hok : ResetsUndisturbed s a)
    (hstep : stepDriver s a = some s') : PendingInv s' := by
  cases stepDriver_cases hstep with
  | @start t a d th hidle hstart =>
    have hfields : th.readMode = false ∧ th.phase = .outside ∧ th.counted = 0 := by
      cases hstart <;> exact ⟨rfl, rfl, rfl⟩
    obtain ⟨_, _, _, _, _, _, _, _, hframe⟩ := hstart.frame
    refine h.keep ?_ ?_ ?_ ?_ ?_ ?_ (fun hout => absurd hfields.2.1 hout) ?_
    · rw [hframe]
    · rw [hframe]
    · rw [hframe]
    · rw [hframe]
    · rw [hfields.1, hidle]
      rfl
    · rw [hfields.2.1, hidle]
      rfl
    · rw [hfields.2.2, hidle]
      rfl
  | @framework a d hmove =>
    rw [s.setDev_eq 0]
    cases hmove
    case cancelRead r _ => exact absurd rfl (hok.2.1 r)
    all_goals exact h.keep rfl rfl rfl rfl rfl rfl (fun _ => rfl) rfl
  | @packet t length passive gen captured hthr hlength =>
    refine h.keep rfl rfl rfl rfl ?_ ?_ (fun hout => absurd rfl hout) ?_
    all_goals
      rw [hthr]
      rfl
  | @advance t choice next hadvance =>
    have hkind : (s.thr t).kind ≠ .stopRead := fun hkind => hkinds t (List.mem_singleton.mpr hkind)
    refine ⟨stepThread_legacy hadvance h.legacy (hok.1.2 t rfl), fun i => ?_, fun i => ?_,
      h.exact_step hleases hkind hadvance⟩
    · by_cases hi : i = t
      · subst hi
        rw [Driver.setThread_self]
        by_cases hk : (s.thr i).kind ∈ [.cleanup, .d0Exit]
        · exact (stepThread_phase hadvance hk h.legacy (h.modes i)).mode
        · exact (Thread.outside_of_kind (stepThread_kind_not_mem hadvance (by decide) hk)).2
      · rw [Driver.setThread_of_ne _ _ _ _ hi]
        exact h.modes i
    · by_cases hi : i = t
      · subst hi
        rw [Driver.setThread_self]
        by_cases hk : (s.thr i).kind ∈ [.cleanup, .d0Exit]
        · exact h.secured_self hleases hk hadvance
        · exact .outside (Thread.outside_of_kind (stepThread_kind_not_mem hadvance (by decide) hk)).1
      · rw [Driver.setThread_of_ne _ _ _ _ hi]
        exact h.secured_step hleases halternating hi (hok.2.2 t rfl) hkind hadvance

end PendingInv

theorem DriverReach.pending {s : Driver} (h : DriverReach ResetsUndisturbed s) : PendingInv s := by
  refine h.invariant (fun _ => PendingInv.init) fun s a s' hreach hinv hok hstep => ?_
  refine hinv.step (DriverReach.leasesCounted hreach) (DriverReach.alternating hreach) (fun t => ?_) hok hstep
  refine DriverReach.avoids [.stopRead] hreach (by decide) (fun s a hok => ?_) t
  simpa using hok.1.1

/-- None of the callbacks that the counter concerns is running. -/
def Driver.ReadsIdle (s : Driver) : Prop :=
  ∀ t, (s.thr t).kind ∉ [.read, .transmit, .worker, .cleanup, .d0Entry, .d0Exit]

/-- Whenever none of the READ paths and no teardown is running, the counter is the number of parked READs. So
a READ is refused as one too many only when as many are parked, and an enable request is refused for a pending
READ only when one is parked. -/
theorem pending_reads_exact {s : Driver} (h : DriverReach ResetsUndisturbed s) (hidle : s.ReadsIdle) :
    s.dev.pendingReads = s.dev.readQueue.waiting.length ∧
      (∀ t r choice gen, (evtIoRead s.dev t r choice (.tryAdmit gen)).2 = .run (.complete statusDeviceBusy) →
        pendingReadLimit ≤ s.dev.readQueue.waiting.length) ∧
      ∀ t handle input result, handleEnableAdaptivePolling s.dev t handle input .pendingReads = some result →
        result.2 = .run (.completeLocked statusDeviceBusy) → s.dev.readQueue.waiting ≠ [] := by
  have hcount : s.dev.pendingReads = s.dev.readQueue.waiting.length := by
    obtain ⟨u, hu⟩ | ⟨n, htally, hsum⟩ := (DriverReach.pending h).exact
    · have hout := hidle u
      simp only [List.mem_cons, List.not_mem_nil, or_false, not_or] at hout
      rw [(Thread.outside_of_kind (by simp [hout])).1] at hu
      cases hu
    · have hn : n = 0 := by
        refine htally.sum_eq_zero fun t => ?_
        have hout := hidle t
        simp only [List.mem_cons, List.not_mem_nil, or_false, not_or] at hout
        exact (Thread.not_counted (by simp [hout])).1
      omega
  refine ⟨hcount, fun t r choice gen hbusy => ?_, fun t handle input result hstep hbusy hnone => ?_⟩
  · simp only [evtIoRead, tryAdmit] at hbusy
    split at hbusy
    · rename_i hfull
      split at hfull
      · omega
      · cases hfull
    · cases hbusy
  · rw [hnone] at hcount
    simp only [handleEnableAdaptivePolling, hcount, List.length_nil, ne_eq, not_true_eq_false, if_false] at hstep
    cases hstep
    cases hbusy

/-- A handle is opened and a READ is parked. -/
def parkedRead : List Action := [.create 0 7] ++ steps 0 2 ++ [.read 1 7 1514] ++ steps 1 8

/-- The state after a schedule of the two threads that are both done. -/
theorem readsIdle_after {acts : List Action} (hacts : ∀ a ∈ acts, ∀ t, t ∈ a.thread → t ∈ [0, 1])
    (hidle : ∀ t ∈ [0, 1], (driverSystem.after .initial acts).thr t = .idle) :
    (driverSystem.after .initial acts).ReadsIdle := by
  intro t
  rw [after_threads (P := fun th => th = .idle) hacts rfl hidle t]
  decide

theorem pending_reads_exact_parked :
    (driverSystem.after .initial parkedRead).dev.readQueue.waiting.length = 1 ∧
      (driverSystem.after .initial parkedRead).dev.pendingReads
        = (driverSystem.after .initial parkedRead).dev.readQueue.waiting.length := by
  have hreach : DriverReach (fun _ a => a.kind ∉ [.stopRead, .enable, .cleanup] ∧ ∀ r, a ≠ .cancelRead r)
      (driverSystem.after .initial parkedRead) := by
    refine Machine.System.reach_after_of (fun _ a ha => ?_) (driverReach_initial _)
    have hkinds : ∀ b ∈ parkedRead, b.kind ∉ [.stopRead, .enable, .cleanup] := by decide +kernel
    have hthreads : ∀ b ∈ parkedRead, b.thread ≠ none := by decide +kernel
    exact ⟨hkinds a ha, fun r hr => hthreads a ha (by rw [hr]; rfl)⟩
  have hidle : (driverSystem.after .initial parkedRead).ReadsIdle :=
    readsIdle_after (by decide +kernel) (by decide +kernel)
  refine ⟨by decide +kernel, (pending_reads_exact (hreach.exchange fun s a hs hok => ?_) hidle).1⟩
  · have hkind := fun t => DriverReach.avoids [.enable, .cleanup] hs (by decide) (fun _ _ hok => by
      simp only [List.mem_cons, List.not_mem_nil, or_false, not_or] at hok ⊢
      exact hok.1.2) t
    refine ⟨⟨fun hstop => hok.1 (by simp [hstop]), fun t _ => ?_⟩, hok.2, fun t _ hreadmits => ?_⟩
    · have ht := hkind t
      cases hth : s.thr t <;> first | rfl | simp [hth, Thread.kind] at ht
    · intro u h pc hu
      have ht := hkind u
      rw [hu] at ht
      exact absurd (by simp [Thread.kind]) ht

instance (s : Driver) (a : Action) : Decidable (LegacyMode s a) :=
  inferInstanceAs (Decidable (a.kind ≠ .stopRead ∧ ∀ t, t ∈ a.thread → (s.thr t).setsMode = false))

/-- A parked READ is cancelled; the counter keeps counting it, and enabling is refused with no READ parked. -/
theorem cancelled_read_stays_counted :
    ∃ s, DriverReach LegacyMode s ∧ s.ReadsIdle ∧ s.dev.readQueue.waiting = [] ∧ s.dev.pendingReads = 1 ∧
      (handleEnableAdaptivePolling s.dev 2 7 enableBoth .pendingReads).map Prod.snd
        = some (.run (.completeLocked statusDeviceBusy)) := by
  refine ⟨driverSystem.after .initial (parkedRead ++ [.cancelRead ⟨0, 7, 1514⟩]),
    Machine.System.reach_after_keeping (by decide +kernel) (driverReach_initial _),
    readsIdle_after (by decide +kernel) (by decide +kernel), ?_, ?_, ?_⟩
  · decide +kernel
  · decide +kernel
  · decide +kernel

end WinTap

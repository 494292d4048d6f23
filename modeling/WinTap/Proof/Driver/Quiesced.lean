import WinTap.Proof.Driver.Hardware

/-!
# Teardown clears quiesced queues

A teardown path closes both directions for its scope, waits the leases of each out, and keeps its closer until it lets
callbacks in again. While the closer is set nothing is granted, so the count stays at zero from the wait on. The power
and the hardware closer have one holder at a time, because the framework calls the callbacks of these scopes one after
the other. The owner closer is one bit for all cleanups, and the next handle can be opened and closed again before a
cleanup is through: the first cleanup then releases the closer under the second one.
-/

namespace WinTap

variable {side : Side} {th th' : Thread} {pc : CleanupPc} {h : Handle} {c : Closer} {d d' : Device} {t : ThreadId}
  {choice : Choice} {next : Device × Thread} {hw : Hardware} {flow : Flow ReleasePc Unit}

/-! ### Who holds a closer -/

def QuiescePc.holds (side : Side) : QuiescePc → Bool
  | .shutReceive => false
  | .shutCapture => side = .receive
  | .drainReceive | .drainCapture => true

/-- The leases of the direction were waited out. -/
def QuiescePc.drained (side : Side) : QuiescePc → Bool
  | .drainCapture => side = .receive
  | _ => false

def ReadmitPc.holds (side : Side) : ReadmitPc → Bool
  | .receive => true
  | .capture => side = .capture

def CleanupPc.holds (side : Side) : CleanupPc → Bool
  | .retire | .claimLifecycle | .startReads | .unlockWrite true | .unlockDirect true => false
  | .quiesce _ pc => pc.holds side
  | .readmitResumed pc | .readmitCallbacks pc => pc.holds side
  | _ => true

def CleanupPc.drained (side : Side) : CleanupPc → Bool
  | .quiesce _ pc => pc.drained side
  | pc => pc.holds side

def D0ExitPc.holds (side : Side) : D0ExitPc → Bool
  | .suspend => false
  | .quiesce pc => pc.holds side
  | _ => true

def D0ExitPc.drained (side : Side) : D0ExitPc → Bool
  | .quiesce pc => pc.drained side
  | pc => pc.holds side

def ReleasePc.holds (side : Side) : ReleasePc → Bool
  | .closeLifecycle | .stopAdapter .. => false
  | .quiesce _ pc => pc.holds side
  | _ => true

def ReleasePc.drained (side : Side) : ReleasePc → Bool
  | .quiesce _ pc => pc.drained side
  | pc => pc.holds side

/-- The callback has closed the direction for its scope and has not readmitted it. -/
def Thread.holds (side : Side) (c : Closer) : Thread → Prop
  | .cleanup _ pc => c = .owner ∧ pc.holds side = true
  | .d0Exit pc => c = .power ∧ pc.holds side = true
  | _ => False

/-- And it has waited out the leases of the direction. -/
def Thread.drained (side : Side) : Thread → Bool
  | .cleanup _ pc => pc.drained side
  | .d0Exit pc => pc.drained side
  | _ => false

theorem Thread.holds_of_drained (h : th.drained side = true) : ∃ c, th.holds side c := by
  cases th with
  | cleanup handle pc =>
    refine ⟨.owner, rfl, ?_⟩
    cases pc with
    | quiesce owns pc => cases pc <;> first | cases h | rfl
    | _ => exact h
  | d0Exit pc =>
    refine ⟨.power, rfl, ?_⟩
    cases pc with
    | quiesce pc => cases pc <;> first | cases h | rfl
    | _ => exact h
  | _ => cases h

/-- What a step does to the part of a callback in the closers of a direction. -/
structure HoldStep (side : Side) (d : Device) (th th' : Thread) : Prop where
  holds : ∀ c, th'.holds side c → (th.holds side c ∨ th.shuts side c) ∧ ¬th.readmits side c
  drained : th'.drained side = true → th.drained side = true ∨ leaseCount (d.leases.word side) = 0
  waits : ∀ c, th.holds side c → th.drained side = false →
    th'.holds side c ∧ th'.drained side = false ∨ leaseCount (d.leases.word side) = 0
  shuts : ∀ c, th.shuts side c → th'.holds side c ∧ th'.drained side = false

namespace HoldStep

/-- Nothing changes for the closers. -/
theorem same (hholds : ∀ c, th'.holds side c ↔ th.holds side c) (hdrained : th'.drained side = th.drained side)
    (hshuts : ∀ c, ¬th.shuts side c) (hreadmits : ∀ c, ¬th.readmits side c) : HoldStep side d th th' where
  holds c hc := ⟨.inl ((hholds c).mp hc), hreadmits c⟩
  drained h := .inl (hdrained ▸ h)
  waits c hc hwaits := .inl ⟨(hholds c).mpr hc, hdrained ▸ hwaits⟩
  shuts c hc := absurd hc (hshuts c)

/-- The callback has no closer before or after. -/
theorem free (hbefore : ∀ c, ¬th.holds side c) (hafter : ∀ c, ¬th'.holds side c) (hshuts : ∀ c, ¬th.shuts side c) :
    HoldStep side d th th' where
  holds c hc := absurd hc (hafter c)
  drained h := by
    obtain ⟨c, hc⟩ := Thread.holds_of_drained h
    exact absurd hc (hafter c)
  waits c hc := absurd hc (hbefore c)
  shuts c hc := absurd hc (hshuts c)

/-- The callback ends its part, with the leases waited out. -/
theorem release (hbefore : th.drained side = true) (hafter : ∀ c, ¬th'.holds side c)
    (hshuts : ∀ c, ¬th.shuts side c) : HoldStep side d th th' where
  holds c hc := absurd hc (hafter c)
  drained h := by
    obtain ⟨c, hc⟩ := Thread.holds_of_drained h
    exact absurd hc (hafter c)
  waits c _ hwaits := by
    rw [hbefore] at hwaits
    cases hwaits
  shuts c hc := absurd hc (hshuts c)

/-- The callback closes the direction. -/
theorem shut (hbefore : ∀ c, ¬th.holds side c) (hshuts : ∀ c, th.shuts side c ↔ th'.holds side c)
    (hwaits : th'.drained side = false) (hreadmits : ∀ c, ¬th.readmits side c) : HoldStep side d th th' where
  holds c hc := ⟨.inr ((hshuts c).mpr hc), hreadmits c⟩
  drained h := by
    rw [hwaits] at h
    cases h
  waits c hc := absurd hc (hbefore c)
  shuts c hc := ⟨(hshuts c).mp hc, hwaits⟩

/-- The callback finds no lease. -/
theorem drain (hcount : leaseCount (d.leases.word side) = 0) (hholds : ∀ c, th'.holds side c → th.holds side c)
    (hshuts : ∀ c, ¬th.shuts side c) (hreadmits : ∀ c, ¬th.readmits side c) : HoldStep side d th th' where
  holds c hc := ⟨.inl (hholds c hc), hreadmits c⟩
  drained _ := .inr hcount
  waits _ _ _ := .inr hcount
  shuts c hc := absurd hc (hshuts c)

theorem not_holds_cleanup (hpc : pc.holds side = false) (c : Closer) : ¬(Thread.cleanup h pc).holds side c := by
  rintro ⟨-, hholds⟩
  rw [hpc] at hholds
  cases hholds

theorem not_holds_d0Exit {pc : D0ExitPc} (hpc : pc.holds side = false) (c : Closer) :
    ¬(Thread.d0Exit pc).holds side c := by
  rintro ⟨-, hholds⟩
  rw [hpc] at hholds
  cases hholds

theorem not_shuts_cleanup {owns : Bool} {pc : QuiescePc} (hpc : pc.shuts ≠ some side) (c : Closer) :
    ¬(Thread.cleanup h (.quiesce owns pc)).shuts side c :=
  fun hshuts => hpc hshuts.2

theorem not_shuts_d0Exit {pc : QuiescePc} (hpc : pc.shuts ≠ some side) (c : Closer) :
    ¬(Thread.d0Exit (.quiesce pc)).shuts side c :=
  fun hshuts => hpc hshuts.2

theorem cleanup {flow : Flow CleanupPc Unit} (hresult : evtFileCleanup d t h choice pc = some (d', flow)) :
    HoldStep side d (.cleanup h pc) (flow.on (Thread.cleanup h) .idle) := by
  cases evtFileCleanup_cases hresult with
  | shutReceive owns =>
    cases side
    · refine .shut (not_holds_cleanup rfl) (fun _ => ?_) rfl fun _ => id
      simp [Thread.shuts, QuiescePc.shuts, Thread.holds, CleanupPc.holds, QuiescePc.holds]
    · exact .free (not_holds_cleanup rfl) (not_holds_cleanup rfl) (not_shuts_cleanup (by decide))
  | shutCapture owns =>
    cases side
    · exact .same (fun _ => Iff.rfl) rfl (not_shuts_cleanup (by decide)) fun _ => id
    · refine .shut (not_holds_cleanup rfl) (fun _ => ?_) rfl fun _ => id
      simp [Thread.shuts, QuiescePc.shuts, Thread.holds, CleanupPc.holds, QuiescePc.holds]
  | drainReceive owns hcount =>
    cases side
    · exact .drain hcount (fun _ => id) (not_shuts_cleanup (by decide)) fun _ => id
    · exact .same (fun _ => Iff.rfl) rfl (not_shuts_cleanup (by decide)) fun _ => id
  | drainCapture owns hcount =>
    cases side
    · exact .same (fun _ => Iff.rfl) rfl (not_shuts_cleanup (by decide)) fun _ => id
    · exact .drain hcount (fun _ => id) (not_shuts_cleanup (by decide)) fun _ => id
  | readmitReceive | readmitReceiveLast =>
    cases side
    · exact .release rfl (not_holds_cleanup rfl) fun _ => id
    · exact .same (fun _ => Iff.rfl) rfl (fun _ => id) fun _ hreadmits => absurd hreadmits.2 (by decide)
  | readmitCapture =>
    cases side
    · exact .free (not_holds_cleanup rfl) (not_holds_cleanup rfl) fun _ => id
    · exact .release rfl (not_holds_cleanup rfl) fun _ => id
  | readmitCaptureLast =>
    cases side
    · exact .free (not_holds_cleanup rfl) (fun _ => id) fun _ => id
    · exact .release rfl (fun _ => id) fun _ => id
  | unlockWrite resumed => cases resumed <;> exact .same (fun _ => Iff.rfl) rfl (fun _ => id) fun _ => id
  | unlockDirect => exact .free (not_holds_cleanup rfl) (fun _ => id) fun _ => id
  | _ => exact .same (fun _ => Iff.rfl) rfl (fun _ => id) fun _ => id

theorem d0Exit {pc : D0ExitPc} {flow : Flow D0ExitPc Unit}
    (hresult : evtDeviceD0Exit d t choice pc = some (d', flow)) :
    HoldStep side d (.d0Exit pc) (flow.on Thread.d0Exit .idle) := by
  cases evtDeviceD0Exit_cases hresult with
  | shutReceive =>
    cases side
    · refine .shut (not_holds_d0Exit rfl) (fun _ => ?_) rfl fun _ => id
      simp [Thread.shuts, QuiescePc.shuts, Thread.holds, D0ExitPc.holds, QuiescePc.holds]
    · exact .free (not_holds_d0Exit rfl) (not_holds_d0Exit rfl) (not_shuts_d0Exit (by decide))
  | shutCapture =>
    cases side
    · exact .same (fun _ => Iff.rfl) rfl (not_shuts_d0Exit (by decide)) fun _ => id
    · refine .shut (not_holds_d0Exit rfl) (fun _ => ?_) rfl fun _ => id
      simp [Thread.shuts, QuiescePc.shuts, Thread.holds, D0ExitPc.holds, QuiescePc.holds]
  | drainReceive hcount =>
    cases side
    · exact .drain hcount (fun _ => id) (not_shuts_d0Exit (by decide)) fun _ => id
    · exact .same (fun _ => Iff.rfl) rfl (not_shuts_d0Exit (by decide)) fun _ => id
  | drainCapture hcount =>
    cases side
    · exact .same (fun _ => Iff.rfl) rfl (not_shuts_d0Exit (by decide)) fun _ => id
    · exact .drain hcount (fun _ => id) (not_shuts_d0Exit (by decide)) fun _ => id
  | unlockDirect => exact .release rfl (fun _ => id) fun _ => id
  | _ => exact .same (fun _ => Iff.rfl) rfl (fun _ => id) fun _ => id

end HoldStep

theorem Thread.kind_of_holds (h : th.holds side c) :
    th.kind = .cleanup ∧ c = .owner ∨ th.kind = .d0Exit ∧ c = .power := by
  cases th with
  | cleanup handle pc => exact .inl ⟨rfl, h.1⟩
  | d0Exit pc => exact .inr ⟨rfl, h.1⟩
  | _ => exact h.elim

theorem stepThread_holds (hstep : stepThread d t choice th = some next) (side : Side) : HoldStep side d th next.2 := by
  by_cases hk : th.kind ∈ [.cleanup, .d0Exit]
  · cases th <;> simp [Thread.kind] at hk
    case cleanup h pc =>
      obtain ⟨⟨d', flow⟩, hresult, rfl⟩ := Option.map_eq_some_iff.mp hstep
      have hholds : HoldStep side d _ _ := HoldStep.cleanup hresult
      cases flow <;> exact hholds
    case d0Exit pc =>
      obtain ⟨⟨d', flow⟩, hresult, rfl⟩ := Option.map_eq_some_iff.mp hstep
      have hholds : HoldStep side d _ _ := HoldStep.d0Exit hresult
      cases flow <;> exact hholds
  · have hnone : ∀ {th : Thread}, th.kind ∉ [.cleanup, .d0Exit] → ∀ c, ¬th.holds side c := by
      intro th hkind c hc
      obtain ⟨hcleanup, -⟩ | ⟨hexit, -⟩ := Thread.kind_of_holds hc
      · simp [hcleanup] at hkind
      · simp [hexit] at hkind
    refine .free (hnone hk) (hnone (stepThread_kind_not_mem hstep (by decide) hk)) fun c hc => ?_
    cases th <;> first | exact hc | simp [Thread.kind] at hk

theorem Thread.kind_of_readmits (h : th.readmits side c) : c = .owner ∨ c = .power ∧ th.transition ≠ none := by
  cases th with
  | cleanup handle pc => cases pc <;> first | exact h.elim | exact .inl h.1
  | d0Entry pc => cases pc <;> first | exact h.elim | exact .inr ⟨h.1, nofun⟩
  | _ => exact h.elim

theorem Thread.not_shuts_hardware : ¬th.shuts side .hardware := by
  intro h
  cases th with
  | cleanup handle pc => cases pc <;> first | exact h | cases h.1
  | d0Exit pc => cases pc <;> first | exact h | cases h.1
  | _ => exact h

/-! ### Release hardware -/

def Hardware.holds (side : Side) : Hardware → Bool
  | .releasing _ pc => pc.holds side
  | _ => false

def Hardware.drained (side : Side) : Hardware → Bool
  | .releasing _ pc => pc.drained side
  | _ => false

theorem Hardware.holds_of_drained (h : hw.drained side = true) : hw.holds side = true := by
  cases hw with
  | releasing t pc =>
    cases pc with
    | quiesce adaptive pc => cases pc <;> first | cases h | rfl
    | _ => exact h
  | _ => cases h

/-- What a step of release hardware does to its part in the closers of a direction. -/
structure ReleaseHolds (side : Side) (d : Device) (pc : ReleasePc) (flow : Flow ReleasePc Unit) : Prop where
  holds : flow.on (ReleasePc.holds side) false = true → pc.holds side = true ∨ pc.shuts = some side
  drained : flow.on (ReleasePc.drained side) false = true →
    pc.drained side = true ∨ leaseCount (d.leases.word side) = 0
  waits : pc.holds side = true → pc.drained side = false →
    (flow.on (ReleasePc.holds side) false = true ∧ flow.on (ReleasePc.drained side) false = false) ∨
      leaseCount (d.leases.word side) = 0
  shuts : pc.shuts = some side →
    flow.on (ReleasePc.holds side) false = true ∧ flow.on (ReleasePc.drained side) false = false

theorem ReleaseStep.holds {pc : ReleasePc} (h : ReleaseStep d t choice pc d' flow) (side : Side) :
    ReleaseHolds side d pc flow := by
  cases h with
  | closeLifecycle _ | stopAdapter _ _ => exact ⟨nofun, nofun, nofun, nofun⟩
  | shutReceive adaptive =>
    cases side
    · exact ⟨fun _ => .inr rfl, nofun, nofun, fun _ => ⟨rfl, rfl⟩⟩
    · exact ⟨nofun, nofun, nofun, nofun⟩
  | shutCapture adaptive =>
    cases side
    · exact ⟨fun _ => .inl rfl, nofun, fun _ _ => .inl ⟨rfl, rfl⟩, nofun⟩
    · exact ⟨fun _ => .inr rfl, nofun, nofun, fun _ => ⟨rfl, rfl⟩⟩
  | drainReceive adaptive hcount =>
    cases side
    · exact ⟨fun _ => .inl rfl, fun _ => .inr hcount, fun _ _ => .inr hcount, nofun⟩
    · exact ⟨fun _ => .inl rfl, nofun, fun _ _ => .inl ⟨rfl, rfl⟩, nofun⟩
  | drainCapture adaptive hcount =>
    cases side
    · exact ⟨fun _ => .inl rfl, fun _ => .inl rfl, nofun, nofun⟩
    · exact ⟨fun _ => .inl rfl, fun _ => .inr hcount, fun _ _ => .inr hcount, nofun⟩
  | unlockDirect => exact ⟨nofun, nofun, nofun, nofun⟩
  | _ => exact ⟨fun _ => .inl rfl, fun _ => .inl rfl, nofun, nofun⟩

/-! ### Runs -/

/-- Nothing is granted behind a closer. -/
theorem WordStep.stays_drained {w w' : Word} (h : WordStep side th w th' w') (hheld : th.leases side ≤ leaseCount w)
    (hzero : leaseCount w = 0) (hclosed : closedBy w c) : leaseCount w' = 0 := by
  have hcount := h.count
  by_contra hne
  exact h.granted (by omega) c hclosed

/-- The driver callback that an action is about. -/
def InstanceAction.thread : InstanceAction → Option ThreadId
  | .driver a => a.thread
  | _ => none

/-- A cleanup releases the owner closer of a direction only when no other cleanup holds it. -/
def OwnerReleasedAlone (s : Instance) (a : InstanceAction) : Prop :=
  ∀ t, t ∈ a.thread → ∀ side, (s.driver.thr t).readmits side .owner →
    ∀ u, u ≠ t → ¬(s.driver.thr u).holds side .owner

/-- A call that holds a closer has it set, and no lease is live once it has waited them out. Behind the power and
the hardware closer, which stay set when the call returns, there is no lease unless the call still waits. -/
structure ClosersHeld (s : Instance) : Prop where
  closed : ∀ t side c, (s.driver.thr t).holds side c → closedBy (s.driver.dev.leases.word side) c
  drained : ∀ t side, (s.driver.thr t).drained side = true → leaseCount (s.driver.dev.leases.word side) = 0
  hardwareClosed : ∀ side, s.hardware.holds side = true → closedBy (s.driver.dev.leases.word side) .hardware
  hardwareDrained : ∀ side, s.hardware.drained side = true → leaseCount (s.driver.dev.leases.word side) = 0
  power : ∀ side, closedBy (s.driver.dev.leases.word side) .power →
    (∃ t, (s.driver.thr t).holds side .power ∧ (s.driver.thr t).drained side = false) ∨
      leaseCount (s.driver.dev.leases.word side) = 0
  hardware : ∀ side, closedBy (s.driver.dev.leases.word side) .hardware →
    s.hardware.holds side = true ∧ s.hardware.drained side = false ∨
      leaseCount (s.driver.dev.leases.word side) = 0

namespace ClosersHeld

variable {s s' : Instance} {a : InstanceAction}

theorem init (h : instanceSystem.init s) : ClosersHeld s := by
  obtain ⟨mtu, -, -, rfl⟩ := h
  have hword : ∀ side, (Device.added mtu).leases.word side = Closer.hardware.mask := fun side => by cases side <;> rfl
  have hzero : ∀ side, leaseCount ((Device.added mtu).leases.word side) = 0 := fun side => by
    rw [hword]
    decide
  exact ⟨fun _ _ _ h => h.elim, nofun, nofun, nofun, fun side _ => .inr (hzero side), fun side _ => .inr (hzero side)⟩

/-- The lease words stay, and the thread that changes has no part in the closers. -/
theorem keep (h : ClosersHeld s) (hleases : d.leases = s.driver.dev.leases)
    (hholds : ∀ side c, th.holds side c ↔ (s.driver.thr t).holds side c)
    (hdrained : ∀ side, th.drained side = (s.driver.thr t).drained side) :
    ClosersHeld { s with driver := s.driver.setThread t d th } := by
  have hiff : ∀ i side c, ((s.driver.setThread t d th).thr i).holds side c ↔ (s.driver.thr i).holds side c := by
    intro i side c
    rw [s.driver.setThread_keep t d th (f := fun th => th.holds side c) (propext (hholds side c)) i]
  have hsame : ∀ i side, ((s.driver.setThread t d th).thr i).drained side = (s.driver.thr i).drained side :=
    fun i side => s.driver.setThread_keep t d th (f := Thread.drained side) (hdrained side) i
  constructor <;> dsimp only [Driver.setThread_dev] <;> rw [hleases]
  · exact fun i side c hi => h.closed i side c ((hiff i side c).mp hi)
  · exact fun i side hi => h.drained i side (hsame i side ▸ hi)
  · exact h.hardwareClosed
  · exact h.hardwareDrained
  · intro side hclosed
    refine (h.power side hclosed).imp_left ?_
    rintro ⟨i, hi, hwaits⟩
    exact ⟨i, (hiff i side .power).mpr hi, (hsame i side).trans hwaits⟩
  · exact h.hardware

/-- A driver callback takes a step. -/
theorem advance (h : ClosersHeld s) (hcounted : LeasesCounted s.driver) (halternating : Alternating s.driver)
    (hok : ∀ side, (s.driver.thr t).readmits side .owner → ∀ u, u ≠ t → ¬(s.driver.thr u).holds side .owner)
    (hstep : stepThread s.driver.dev t choice (s.driver.thr t) = some next) :
    ClosersHeld { s with driver := s.driver.setThread t next.1 next.2 } := by
  have hheld := fun side => (hcounted side).le t
  have hword := fun side => stepThread_word hstep side (hheld side)
  have hhold := fun side => stepThread_holds hstep side
  -- nobody but a teardown path itself counts leases while its own closer moves
  have hteardown : ∀ side c, (s.driver.thr t).holds side c ∨ next.2.holds side c →
      leaseCount (s.driver.dev.leases.word side) = 0 → leaseCount (next.1.leases.word side) = 0 := by
    intro side c hc hzero
    have hk : (s.driver.thr t).kind ∈ [.cleanup, .d0Entry, .d0Exit] := by
      obtain hc | hc := hc
      · obtain ⟨hk, -⟩ | ⟨hk, -⟩ := Thread.kind_of_holds hc <;> simp [hk]
      · obtain hidle | hsame := stepThread_kind hstep
        · rw [hidle] at hc
          exact hc.elim
        · rw [← hsame]
          obtain ⟨hk, -⟩ | ⟨hk, -⟩ := Thread.kind_of_holds hc <;> simp [hk]
    have hsame := stepThread_teardown_leases hk hstep side
    have hcount := (hword side).count
    omega
  have hother : ∀ i side c, i ≠ t → (s.driver.thr i).holds side c → closedBy (next.1.leases.word side) c := by
    intro i side c hi hc
    refine ((hword side).closers c).mpr ⟨.inl (h.closed i side c hc), fun hreadmits => ?_⟩
    obtain ⟨-, rfl⟩ | ⟨hexit, rfl⟩ := Thread.kind_of_holds hc
    · exact hok side hreadmits i hi hc
    · refine hi (halternating.unique i t ?_ ?_)
      · cases hthr : s.driver.thr i <;> rw [hthr] at hexit <;> cases hexit
        exact nofun
      · obtain hc | ⟨-, htransition⟩ := Thread.kind_of_readmits hreadmits
        · cases hc
        · exact htransition
  constructor <;> dsimp only [Driver.setThread_dev]
  · intro i side c hi
    by_cases hit : i = t
    · subst hit
      rw [Driver.setThread_self] at hi
      obtain ⟨hbefore, hreadmits⟩ := (hhold side).holds c hi
      exact ((hword side).closers c).mpr ⟨hbefore.imp_left (h.closed i side c), hreadmits⟩
    · rw [Driver.setThread_of_ne _ _ _ _ hit] at hi
      exact hother i side c hit hi
  · intro i side hi
    by_cases hit : i = t
    · subst hit
      rw [Driver.setThread_self] at hi
      obtain ⟨c, hc⟩ := Thread.holds_of_drained hi
      exact hteardown side c (.inr hc) (((hhold side).drained hi).elim (h.drained i side) id)
    · rw [Driver.setThread_of_ne _ _ _ _ hit] at hi
      obtain ⟨c, hc⟩ := Thread.holds_of_drained hi
      exact (hword side).stays_drained (hheld side) (h.drained i side hi) (h.closed i side c hc)
  · intro side hhardware
    refine ((hword side).closers .hardware).mpr ⟨.inl (h.hardwareClosed side hhardware), fun hreadmits => ?_⟩
    obtain hc | ⟨hc, -⟩ := Thread.kind_of_readmits hreadmits <;> cases hc
  · intro side hhardware
    exact (hword side).stays_drained (hheld side) (h.hardwareDrained side hhardware)
      (h.hardwareClosed side (Hardware.holds_of_drained hhardware))
  · intro side hclosed
    obtain ⟨hbefore | hshuts, -⟩ := ((hword side).closers .power).mp hclosed
    · obtain ⟨i, hi, hwaits⟩ | hzero := h.power side hbefore
      · by_cases hit : i = t
        · subst hit
          refine ((hhold side).waits .power hi hwaits).imp (fun hnext => ⟨i, ?_⟩) (hteardown side .power (.inl hi))
          rwa [Driver.setThread_self]
        · refine .inl ⟨i, ?_⟩
          rw [Driver.setThread_of_ne _ _ _ _ hit]
          exact ⟨hi, hwaits⟩
      · exact .inr ((hword side).stays_drained (hheld side) hzero hbefore)
    · refine .inl ⟨t, ?_⟩
      rw [Driver.setThread_self]
      exact (hhold side).shuts .power hshuts
  · intro side hclosed
    obtain ⟨hbefore | hshuts, -⟩ := ((hword side).closers .hardware).mp hclosed
    · refine (h.hardware side hbefore).imp_right fun hzero => ?_
      exact (hword side).stays_drained (hheld side) hzero hbefore
    · exact absurd hshuts Thread.not_shuts_hardware

/-- A callback starts, or the framework acts by itself. -/
theorem start (h : ClosersHeld s) (hleases : d.leases = s.driver.dev.leases) (hidle : s.driver.thr t = .idle)
    (hth : ∀ side c, ¬th.holds side c) : ClosersHeld { s with driver := s.driver.setThread t d th } := by
  refine h.keep hleases (fun side c => ?_) fun side => ?_
  · rw [hidle]
    exact ⟨hth side c, False.elim⟩
  · rw [hidle]
    refine Bool.eq_false_iff.mpr fun hdrained => ?_
    obtain ⟨c, hc⟩ := Thread.holds_of_drained hdrained
    exact hth side c hc

theorem prepare (h : ClosersHeld s) {pc : PreparePc} {flow : Flow PreparePc PrepareOutcome}
    (hhardware : s.hardware = .preparing t pc) (hstep : PrepareStep s.driver.dev choice pc d flow) :
    ClosersHeld (s.settlePrepare t (d, flow)) := by
  have hword := hstep.word
  have hkeeps : ∀ side c, c ≠ .hardware → closedBy (s.driver.dev.leases.word side) c →
      closedBy (d.leases.word side) c := fun side c hc hclosed => ((hword side).2 c).mpr ⟨hclosed, fun h => hc h.1⟩
  have hholds : ∀ side, (s.settlePrepare t (d, flow)).hardware.holds side = false := by
    intro side
    cases flow with
    | run pc => rfl
    | ret outcome =>
      simp only [Instance.settlePrepare]
      split <;> rfl
  have hdrained : ∀ side, (s.settlePrepare t (d, flow)).hardware.drained side = false := fun side =>
    Bool.eq_false_iff.mpr fun hdrained => by simpa [hholds] using Hardware.holds_of_drained hdrained
  constructor
  · intro i side c hi
    rw [Instance.settlePrepare_dev] at hi ⊢
    refine hkeeps side c ?_ (h.closed i side c hi)
    obtain ⟨-, rfl⟩ | ⟨-, rfl⟩ := Thread.kind_of_holds hi <;> decide
  · intro i side hi
    rw [Instance.settlePrepare_dev] at hi ⊢
    exact (hword side).1.trans (h.drained i side hi)
  · intro side hheld
    rw [hholds] at hheld
    cases hheld
  · intro side hheld
    rw [hdrained] at hheld
    cases hheld
  · intro side hclosed
    rw [Instance.settlePrepare_dev] at hclosed ⊢
    refine (h.power side (((hword side).2 .power).mp hclosed).1).imp_right fun hzero => ?_
    exact (hword side).1.trans hzero
  · intro side hclosed
    rw [Instance.settlePrepare_dev] at hclosed ⊢
    obtain ⟨hheld, -⟩ | hzero := h.hardware side (((hword side).2 .hardware).mp hclosed).1
    · rw [hhardware] at hheld
      cases hheld
    · exact .inr ((hword side).1.trans hzero)

theorem release (h : ClosersHeld s) {pc : ReleasePc} (hhardware : s.hardware = .releasing t pc)
    (hstep : ReleaseStep s.driver.dev t choice pc d flow) : ClosersHeld (s.settleRelease t (d, flow)) := by
  have hword := hstep.word
  have hcall := hstep.holds
  have hkeeps : ∀ side c, closedBy (s.driver.dev.leases.word side) c → closedBy (d.leases.word side) c :=
    fun side c hclosed => ((hword side).2 c).mpr (.inl hclosed)
  have hholds : ∀ side, (s.settleRelease t (d, flow)).hardware.holds side = flow.on (ReleasePc.holds side) false :=
    fun side => by cases flow <;> rfl
  have hdrained : ∀ side,
      (s.settleRelease t (d, flow)).hardware.drained side = flow.on (ReleasePc.drained side) false :=
    fun side => by cases flow <;> rfl
  have hclosed := h.hardwareClosed
  have hzero := h.hardwareDrained
  have hwaits := h.hardware
  rw [hhardware] at hclosed hzero hwaits
  constructor
  · intro i side c hi
    rw [Instance.settleRelease_dev] at hi ⊢
    exact hkeeps side c (h.closed i side c hi)
  · intro i side hi
    rw [Instance.settleRelease_dev] at hi ⊢
    exact (hword side).1.trans (h.drained i side hi)
  · intro side hheld
    rw [hholds] at hheld
    rw [Instance.settleRelease_dev]
    refine ((hword side).2 .hardware).mpr (((hcall side).holds hheld).imp (hclosed side) fun hshuts => ⟨rfl, hshuts⟩)
  · intro side hheld
    rw [hdrained] at hheld
    rw [Instance.settleRelease_dev]
    exact (hword side).1.trans (((hcall side).drained hheld).elim (hzero side) id)
  · intro side hpower
    rw [Instance.settleRelease_dev] at hpower ⊢
    have hbefore : closedBy (s.driver.dev.leases.word side) .power :=
      (((hword side).2 .power).mp hpower).resolve_right fun h => absurd h.1 (by decide)
    exact (h.power side hbefore).imp_right (hword side).1.trans
  · intro side hafter
    rw [hholds, hdrained]
    rw [Instance.settleRelease_dev] at hafter ⊢
    obtain hbefore | ⟨-, hshuts⟩ := ((hword side).2 .hardware).mp hafter
    · obtain ⟨hheld, hwaiting⟩ | hcount := hwaits side hbefore
      · exact ((hcall side).waits hheld hwaiting).imp_right (hword side).1.trans
      · exact .inr ((hword side).1.trans hcount)
    · exact .inl ((hcall side).shuts hshuts)

theorem step (h : ClosersHeld s) (hcounted : LeasesCounted s.driver) (halternating : Alternating s.driver)
    (hok : OwnerReleasedAlone s a) (hstep : stepInstance s a = some s') : ClosersHeld s' := by
  cases stepInstance_cases hstep with
  | prepareHardware hhardware hidle =>
    have hwaits := h.hardware
    rw [hhardware] at hwaits
    exact ⟨h.closed, h.drained, nofun, nofun, h.power, hwaits⟩
  | releaseHardware hhardware hpower hidle =>
    have hwaits := h.hardware
    obtain hhardware | hhardware := hhardware <;> rw [hhardware] at hwaits <;>
      exact ⟨h.closed, h.drained, nofun, nofun, h.power, hwaits⟩
  | prepare hhardware hcallback => exact h.prepare hhardware hcallback
  | release hhardware hcallback => exact h.release hhardware hcallback
  | driver hallows hcallback =>
    cases stepDriver_cases hcallback with
    | @start t a d th hidle hstart =>
      obtain ⟨_, _, _, _, _, _, _, _, hframe⟩ := hstart.frame
      have hleases : d.leases = s.driver.dev.leases := by
        rw [hframe]
        rfl
      refine h.start hleases hidle fun side c hc => ?_
      cases hstart <;> first | exact hc | cases hc.2
    | @framework a d hmove =>
      have hleases : d.leases = s.driver.dev.leases := by cases hmove <;> rfl
      rw [Driver.setDev_eq s.driver 0 d]
      exact h.keep hleases (fun _ _ => Iff.rfl) fun _ => rfl
    | @packet t length passive gen captured hthr hlength =>
      refine h.keep rfl (fun side c => ?_) fun side => ?_
      · rw [hthr]
        exact Iff.rfl
      · rw [hthr]
        rfl
    | @advance t choice next hadvance => exact h.advance hcounted halternating (hok t rfl) hadvance

end ClosersHeld

theorem InstanceReach.closersHeld {s : Instance} (h : InstanceReach OwnerReleasedAlone s) : ClosersHeld s :=
  h.invariant (fun _ => ClosersHeld.init) fun _ _ _ hs hheld hok hstep =>
    hheld.step (InstanceReach.leasesCounted hs) (InstanceReach.alternating hs) hok hstep

/-! ### Clearing -/

/-- The next step is one of `clear_frame_queues`. -/
def Thread.clearing : Thread → Bool
  | .cleanup _ (.clear ..) | .d0Exit (.clear _) => true
  | _ => false

def Hardware.clearing : Hardware → Bool
  | .releasing _ (.clear _) => true
  | _ => false

/-- The call has come to `clear_frame_queues`. -/
def CleanupPc.cleared : CleanupPc → Bool
  | .retire | .claimLifecycle | .quiesce .. | .lockDirect _ | .lockWrite _ | .adaptive _ | .teardown .. | .flush ..
  | .purge .. => false
  | _ => true

@[inherit_doc CleanupPc.cleared]
def D0ExitPc.cleared : D0ExitPc → Bool
  | .suspend | .quiesce _ | .lockDirect | .lockWrite | .adaptive | .teardown .. | .flush _ | .purge _ => false
  | _ => true

@[inherit_doc CleanupPc.cleared]
def ReleasePc.cleared : ReleasePc → Bool
  | .closeLifecycle | .stopAdapter .. | .quiesce .. | .lockDirect _ | .lockWrite _ | .teardown .. | .flush _ | .purge _
  | .flushAgain => false
  | _ => true

/-- The call has come to `clear_frame_queues` and keeps its closer of the direction. -/
def Thread.clearedBehind (side : Side) : Thread → Bool
  | .cleanup _ pc => pc.cleared && pc.holds side
  | .d0Exit pc => pc.cleared && pc.holds side
  | _ => false

@[inherit_doc Thread.clearedBehind]
def Hardware.clearedBehind (side : Side) : Hardware → Bool
  | .releasing _ pc => pc.cleared && pc.holds side
  | _ => false

theorem Thread.drained_of_clearedBehind (h : th.clearedBehind side = true) : th.drained side = true := by
  cases th with
  | cleanup handle pc =>
    obtain ⟨hcleared, hholds⟩ := Bool.and_eq_true_iff.mp h
    cases pc with
    | quiesce owns pc => cases hcleared
    | _ => exact hholds
  | d0Exit pc =>
    obtain ⟨hcleared, hholds⟩ := Bool.and_eq_true_iff.mp h
    cases pc with
    | quiesce pc => cases hcleared
    | _ => exact hholds
  | _ => cases h

theorem Hardware.drained_of_clearedBehind (h : hw.clearedBehind side = true) : hw.drained side = true := by
  cases hw with
  | releasing t pc =>
    obtain ⟨hcleared, hholds⟩ := Bool.and_eq_true_iff.mp h
    cases pc with
    | quiesce adaptive pc => cases hcleared
    | _ => exact hholds
  | _ => cases h

theorem Thread.clearedBehind_of_clearing (h : th.clearing = true) (side : Side) : th.clearedBehind side = true := by
  cases th with
  | cleanup handle pc => cases pc <;> first | rfl | cases h
  | d0Exit pc => cases pc <;> first | rfl | cases h
  | _ => cases h

theorem Hardware.clearedBehind_of_clearing (h : hw.clearing = true) (side : Side) : hw.clearedBehind side = true := by
  cases hw with
  | releasing t pc => cases pc <;> first | rfl | cases h
  | _ => cases h

/-- No lease of the direction is live: the word counts none and no callback holds one. -/
def Driver.Quiesced (s : Driver) (side : Side) : Prop :=
  leaseCount (s.dev.leases.word side) = 0 ∧ ∀ t, (s.thr t).leases side = 0

theorem LeasesCounted.quiesced {s : Driver} (h : LeasesCounted s) (hzero : leaseCount (s.dev.leases.word side) = 0) :
    s.Quiesced side :=
  ⟨hzero, fun t => Nat.le_zero.mp (hzero ▸ (h side).le t)⟩

/-- A call of `evt_file_cleanup`, `evt_device_d0_exit` or `evt_device_release_hardware` executes `clear_frame_queues`
with no lease of either direction live, and none becomes live while it keeps its closer. The closers of D0 exit and
of release hardware outlive the calls, and so does this. -/
theorem queues_cleared_quiesced {s : Instance} (h : InstanceReach OwnerReleasedAlone s) (side : Side) :
    ((∃ t, (s.driver.thr t).clearing = true) ∨ s.hardware.clearing = true → s.driver.Quiesced side) ∧
      ((∃ t, (s.driver.thr t).clearedBehind side = true) ∨ s.hardware.clearedBehind side = true →
        s.driver.Quiesced side) ∧
      (closedBy (s.driver.dev.leases.word side) .power → (∀ t, (s.driver.thr t).kind ≠ .d0Exit) →
        s.driver.Quiesced side) ∧
      (closedBy (s.driver.dev.leases.word side) .hardware → (∀ t pc, s.hardware ≠ .releasing t pc) →
        s.driver.Quiesced side) := by
  have hcounted := InstanceReach.leasesCounted h
  have hheld := InstanceReach.closersHeld h
  have hbehind : (∃ t, (s.driver.thr t).clearedBehind side = true) ∨ s.hardware.clearedBehind side = true →
      s.driver.Quiesced side := by
    rintro (⟨t, ht⟩ | hhardware)
    · exact hcounted.quiesced (hheld.drained t side (Thread.drained_of_clearedBehind ht))
    · exact hcounted.quiesced (hheld.hardwareDrained side (Hardware.drained_of_clearedBehind hhardware))
  refine ⟨fun hclearing => hbehind (hclearing.imp ?_ ?_), hbehind, fun hclosed hnone => ?_, fun hclosed hnone => ?_⟩
  · exact fun ⟨t, ht⟩ => ⟨t, Thread.clearedBehind_of_clearing ht side⟩
  · exact fun hhardware => Hardware.clearedBehind_of_clearing hhardware side
  · obtain ⟨t, ht, -⟩ | hzero := hheld.power side hclosed
    · obtain ⟨-, hc⟩ | ⟨hkind, -⟩ := Thread.kind_of_holds ht
      · cases hc
      · exact absurd hkind (hnone t)
    · exact hcounted.quiesced hzero
  · obtain ⟨hhardware, -⟩ | hzero := hheld.hardware side hclosed
    · cases hhw : s.hardware with
      | releasing t pc => exact absurd hhw (hnone t pc)
      | _ =>
        rw [hhw] at hhardware
        cases hhardware
    · exact hcounted.quiesced hzero

/-- A device is added and its hardware prepared, and it enters D0. -/
def broughtUp : List InstanceAction :=
  .prepareHardware 0 :: List.replicate 5 (.hardware none) ++ (.d0Entry 0 :: steps 0 9).map .driver

/-- A handle is opened and closed, up to the last step before the queues are cleared. -/
def closedFirst : List InstanceAction :=
  broughtUp ++ (.create 1 7 :: steps 1 2 ++ .cleanup 1 7 :: steps 1 12).map .driver

/-- The next step releases the owner closer of a direction. -/
def Thread.releasesOwner : Thread → Bool
  | .cleanup _ (.readmitResumed _) | .cleanup _ (.readmitCallbacks _) => true
  | _ => false

/-- The handle is closed while a TX callback has a lease. -/
def closedUnderLease : List InstanceAction :=
  broughtUp ++ (.queueStart true :: .create 1 7 :: steps 1 2 ++ .transmit 3 false :: steps 3 2 ++
    .cleanup 1 7 :: steps 1 5).map .driver

/-- The TX callback returns, and the cleanup comes to the queues. -/
theorem queues_cleared_quiesced_cleanup :
    let s := instanceSystem.after (.added defaultMtu) closedUnderLease
    let s' := instanceSystem.after s ((steps 3 3 ++ steps 1 7).map .driver)
    leaseCount (s.driver.dev.leases.word .capture) = 1 ∧ s'.driver.thr 1 = .cleanup 7 (.clear true .injection) ∧
      ∀ side, s'.driver.Quiesced side := by
  intro s s'
  have hclear : s'.driver.thr 1 = .cleanup 7 (.clear true .injection) := by decide +kernel
  have hreach : InstanceReach (fun s a => ∀ t, t ∈ a.thread → (s.driver.thr t).releasesOwner = false) s' :=
    Machine.System.reach_after_keeping (by decide +kernel)
      (Machine.System.reach_after_keeping (by decide +kernel) (instanceReach_added _))
  refine ⟨by decide +kernel, hclear, fun side =>
    (queues_cleared_quiesced (hreach.mono fun s a hok t ht side hreadmits => ?_) side).1 ?_⟩
  · have hkeeps := hok t ht
    cases hthr : s.driver.thr t with
    | cleanup h pc =>
      rw [hthr] at hkeeps hreadmits
      cases pc <;> first | exact hreadmits.elim | cases hkeeps
    | d0Entry pc =>
      rw [hthr] at hreadmits
      cases pc <;> first | exact hreadmits.elim | cases hreadmits.1
    | _ =>
      rw [hthr] at hreadmits
      exact hreadmits.elim
  · exact .inl ⟨1, by rw [hclear]; rfl⟩

/-- The first cleanup has released the control handle, and the next handle is opened and closed: the second cleanup
waits for the locks with its closer set. Then the first cleanup releases the closer and returns, a packet callback
gets a lease, and the second cleanup clears the queues. -/
def closedTwice : List InstanceAction :=
  closedFirst ++ (steps 1 9 ++ .create 2 8 :: steps 2 2 ++ .cleanup 2 8 :: steps 2 6 ++ steps 1 10 ++
    .queueStart true :: .transmit 3 false :: steps 3 2 ++ steps 2 6).map .driver

theorem queue_cleared_under_lease :
    ∃ s, InstanceReach Machine.Free s ∧ s.driver.thr 2 = .cleanup 8 (.clear false .injection) ∧
      leaseCount (s.driver.dev.leases.word .capture) = 1 ∧ (s.driver.thr 3).leases .capture = 1 := by
  refine ⟨instanceSystem.after (.added defaultMtu) closedTwice,
    Machine.System.reach_after (instanceReach_added _) _, ?_, ?_, ?_⟩
  · decide +kernel
  · decide +kernel
  · decide +kernel

end WinTap

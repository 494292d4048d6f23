import WinTap.Proof.Driver.Frames

/-!
# Runs without teardown

In a run in which no handle is cleaned up and the device stays in D0, the lifecycle stays open and the
owner generation does not move. So the checks that the callbacks repeat before they touch a queue all
pass: a callback that has read the owner generation still finds it unchanged.
-/

namespace WinTap

variable {d : Device} {t : ThreadId} {th : Thread}

/-- No cleanup of a handle and no D0 exit starts. -/
def NoTeardown (_ : Driver) (a : Action) : Prop := a.kind ∉ [.cleanup, .d0Exit]

/-! ### The owner generation a callback works for -/

def ReadPc.ownerGeneration : ReadPc → Option Word
  | .adaptive gen | .poll gen _ | .tryAdmit gen | .take gen _ | .release gen _ | .deliver gen _
  | .requeue gen _ _ _ => some gen
  | _ => none

def DrainPc.ownerGeneration : DrainPc → Option Word
  | .retrieve gen | .take gen _ _ | .release gen _ _ | .deliver gen _ _ | .requeue gen _ _ _ _ => some gen
  | _ => none

def TxPc.ownerGeneration : TxPc → Option Word
  | .ring gen _ | .packet gen _ _ _ => some gen
  | _ => none

def RxPc.ownerGeneration : RxPc → Option Word
  | .ring gen | .dequeue gen | .generation gen _ _ | .place gen _ _ | .claim gen _
  | .requeueLifecycle gen _ | .requeueOwner gen _ => some gen
  | _ => none

/-- The owner generation a callback has read, while it still needs it. -/
def Thread.ownerGeneration : Thread → Option Word
  | .read _ pc => pc.ownerGeneration
  | .worker (.drain pc) => pc.ownerGeneration
  | .transmit _ pc => pc.ownerGeneration
  | .receive pc => pc.ownerGeneration
  | _ => none

/-- A step keeps the generation it works for, drops it, or has just read it. -/
def SameOwner (d : Device) (before after : Option Word) : Prop :=
  after = before ∨ after = none ∨ after = some d.ownerGeneration

section
variable (d : Device) (t : ThreadId) (choice : Choice)

theorem evtIoRead_owner (r : Read) (pc : ReadPc) :
    SameOwner d pc.ownerGeneration
      ((evtIoRead d t r choice pc).2.on ReadPc.ownerGeneration none) := by
  cases pc with
  | owner => exact .inr (.inr rfl)
  | lease | lifecycle | adaptive gen | tryAdmit gen | forward =>
    simp only [evtIoRead]
    split <;> first | exact .inl rfl | exact .inr (.inl rfl)
  | deliver gen f =>
    simp only [evtIoRead]
    split
    · exact .inr (.inl rfl)
    · exact .inl rfl
  | poll gen pc | take gen pc =>
    refine call_all (SameOwner d _) (fun _ => .inl rfl) fun value => ?_
    cases value <;> first | exact .inl rfl | exact .inr (.inl rfl)
  | requeue gen f status pc => exact call_all (SameOwner d _) (fun _ => .inl rfl) fun _ => .inr (.inl rfl)
  | _ => exact .inl rfl

theorem drainReads_owner (pc : DrainPc) :
    SameOwner d pc.ownerGeneration
      ((drainReads d t choice pc).2.on DrainPc.ownerGeneration none) := by
  cases pc with
  | owner => exact .inr (.inr rfl)
  | lease | lifecycle | forward r =>
    simp only [drainReads]
    split <;> exact .inl rfl
  | retrieve gen =>
    simp only [drainReads]
    split
    · exact .inr (.inl rfl)
    · exact .inl rfl
  | deliver gen r f =>
    simp only [drainReads]
    split
    · exact .inr (.inl rfl)
    · exact .inl rfl
  | take gen r pc =>
    refine call_all (SameOwner d _) (fun _ => .inl rfl) fun value => ?_
    cases value <;> first | exact .inl rfl | exact .inr (.inl rfl)
  | requeue gen r f status pc => exact call_all (SameOwner d _) (fun _ => .inl rfl) fun _ => .inr (.inl rfl)
  | _ => exact .inl rfl

theorem evtReadCompletionWorkItem_owner (pc : WorkPc) :
    SameOwner d (Thread.worker pc).ownerGeneration
      ((evtReadCompletionWorkItem d t choice pc).2.on
        (fun pc => (Thread.worker pc).ownerGeneration) none) := by
  cases pc with
  | wait pc =>
    exact .inl (call_on (fun _ => rfl) fun took => by cases took <;> rfl)
  | drain pc =>
    exact call_of (fun _ => SameOwner d _) (drainReads_owner d t choice pc) (fun _ => rfl)
      fun again => by cases again <;> rfl

theorem advanceTransmit_owner (passive : Bool) (pc : TxPc) :
    SameOwner d pc.ownerGeneration
      ((advanceTransmit d t passive choice pc).2.on TxPc.ownerGeneration none) := by
  cases pc with
  | owner => exact .inr (.inr rfl)
  | lease | lifecycle =>
    simp only [advanceTransmit]
    split <;> exact .inl rfl
  | ring gen captured => cases captured <;> exact .inr (.inl rfl)
  | packet gen captured f pc => exact .inl (call_on (fun _ => rfl) fun _ => rfl)
  | queueWork | drop => exact .inl rfl

theorem advanceReceive_owner (pc : RxPc) :
    SameOwner d pc.ownerGeneration
      ((advanceReceive d t choice pc).2.on RxPc.ownerGeneration none) := by
  cases pc with
  | owner => exact .inr (.inr rfl)
  | claim gen pc => exact .inl (call_on (fun _ => rfl) fun _ => rfl)
  | place gen f wasFull =>
    simp only [advanceReceive]
    split
    · cases wasFull <;> exact .inl rfl
    · exact .inl rfl
  | lease | lifecycle | ring gen | dequeue gen | requeueLifecycle gen f | requeueOwner gen f
  | requeueEnqueue f =>
    simp only [advanceReceive]
    split <;> first | exact .inl rfl | exact .inr (.inl rfl)
  | _ => exact .inl rfl

end

theorem stepThread_owner {choice : Choice} {next : Device × Thread} (hstep : stepThread d t choice th = some next) :
    SameOwner d th.ownerGeneration next.2.ownerGeneration := by
  -- a callback that returns leaves an idle thread, which works for no owner
  have hsettle : ∀ {π : Type} (th : Thread) (inside : π → Thread) (result : Device × Flow π Unit),
      (th.settle inside result).2.ownerGeneration
        = result.2.on (fun pc => (inside pc).ownerGeneration) none := by
    intro π th inside result
    rw [Thread.settle_eq]
    cases result.2 <;> rfl
  have hkind := stepThread_kind hstep
  cases th <;> simp only [stepThread] at hstep
  case idle => cases hstep
  case read r pc =>
    cases hstep
    rw [hsettle]
    exact evtIoRead_owner d t choice r pc
  case worker pc =>
    cases hstep
    rw [hsettle]
    exact evtReadCompletionWorkItem_owner d t choice pc
  case transmit passive pc =>
    cases hstep
    rw [hsettle]
    exact advanceTransmit_owner d t choice passive pc
  case receive pc =>
    cases hstep
    rw [hsettle]
    exact advanceReceive_owner d t choice pc
  all_goals
    refine .inr (.inl ?_)
    obtain hidle | hsame := hkind
    · rw [hidle]
      rfl
    · cases hth : next.2 <;> rw [hth] at hsame <;> first | rfl | simp [Thread.kind] at hsame

/-! ### The invariant -/

/-- The device is up and open, nobody tears down, and every callback works for the current owner. -/
structure Steady (s : Driver) : Prop where
  power : s.dev.power = .up
  lifecycle : s.dev.lifecycle = .instanceOpen
  kind : ∀ t, (s.thr t).kind ∉ [.cleanup, .d0Entry, .d0Exit]
  owner : ∀ t gen, (s.thr t).ownerGeneration = some gen → gen = s.dev.ownerGeneration

namespace Steady

variable {s s' : Driver} {a : Action}

theorem init (h : driverSystem.init s) : Steady s := by
  obtain ⟨⟨mtu, -, -, hdev⟩, hidle⟩ := h
  refine ⟨?_, ?_, fun t => ?_, fun t gen hgen => ?_⟩
  · rw [hdev]
    rfl
  · rw [hdev]
    rfl
  · rw [hidle t]
    decide
  · rw [hidle t] at hgen
    cases hgen

/-- One thread changes, and nothing of what the invariant is about. -/
theorem set (h : Steady s) (hpower : d.power = s.dev.power) (hlifecycle : d.lifecycle = s.dev.lifecycle)
    (howner : d.ownerGeneration = s.dev.ownerGeneration) (hkind : th.kind ∉ [.cleanup, .d0Entry, .d0Exit])
    (hthread : ∀ gen, th.ownerGeneration = some gen → gen = s.dev.ownerGeneration) :
    Steady (s.setThread t d th) where
  power := hpower.trans h.power
  lifecycle := hlifecycle.trans h.lifecycle
  kind i := by
    by_cases hi : i = t
    · subst hi
      rwa [Driver.setThread_self]
    · rw [Driver.setThread_of_ne _ _ _ _ hi]
      exact h.kind i
  owner i gen hgen := by
    rw [Driver.setThread_dev, howner]
    by_cases hi : i = t
    · subst hi
      rw [Driver.setThread_self] at hgen
      exact hthread gen hgen
    · rw [Driver.setThread_of_ne _ _ _ _ hi] at hgen
      exact h.owner i gen hgen

theorem step (h : Steady s) (hok : NoTeardown s a) (hstep : stepDriver s a = some s') : Steady s' := by
  cases stepDriver_cases hstep with
  | @start t a d th hidle hstart =>
    cases hstart
    case d0Entry hpower =>
      rw [h.power] at hpower
      cases hpower
    case cleanup | d0Exit => exact absurd (by simp [Action.kind]) hok
    all_goals
      refine h.set rfl rfl rfl (by simp [Thread.kind]) ?_
      rintro _ ⟨⟩
  | @framework a d hmove =>
    rw [s.setDev_eq 0]
    cases hmove <;> exact h.set rfl rfl rfl (h.kind 0) (h.owner 0)
  | @packet t length passive gen captured hthr hlength =>
    refine h.set rfl rfl rfl (by simp [Thread.kind]) fun gen' hgen => h.owner t gen' ?_
    rw [hthr]
    exact hgen
  | @advance t choice next hadvance =>
    have hframes := stepThread_frames hadvance
    have hkind := h.kind t
    simp only [List.mem_cons, List.not_mem_nil, or_false, not_or] at hkind
    refine h.set (hframes.power (by simp [hkind])) (hframes.lifecycle (by simp [hkind]))
      (hframes.ownerGeneration (by simp [hkind])) (stepThread_kind_not_mem hadvance (by decide) (h.kind t))
      fun gen hgen => ?_
    obtain hsame | hnone | hread := stepThread_owner hadvance
    · exact h.owner t gen (hsame ▸ hgen)
    · rw [hnone] at hgen
      cases hgen
    · rw [hread] at hgen
      exact (Option.some.inj hgen).symm

end Steady

theorem DriverReach.steady {ok : Driver → Action → Prop} {s : Driver} (h : DriverReach ok s)
    (hok : ∀ s a, ok s a → NoTeardown s a) : Steady s :=
  h.invariant (fun _ => Steady.init) fun _ _ _ _ hinv hs hstep => hinv.step (hok _ _ hs) hstep

end WinTap

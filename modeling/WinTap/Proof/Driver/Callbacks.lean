import WinTap.Proof.Driver.Frames

/-!
# What the framework serializes

The framework calls the packet queue callbacks of one direction one at a time, and dispatches one request of the
control queue at a time. In the model this is a guard on their start; here it becomes a fact about the threads:
whichever callback of the kind is running, the instance names its thread, so no two of them run at once. Power
transitions alternate in the same way.
-/

namespace WinTap

variable {th : Thread} {d : Device} {t u : ThreadId} {choice : Choice} {next : Device × Thread} {s s' : Driver}
  {ok : Driver → Action → Prop} {a : Action}

/-- The callback runs on behalf of the RX queue. -/
def Thread.onReceive : Thread → Bool
  | .receive _ | .notification _ | .queueStop false _ => true
  | _ => false

/-- The callback runs on behalf of the TX queue. -/
def Thread.onTransmit : Thread → Bool
  | .transmit _ _ | .queueStop true _ => true
  | _ => false

/-- The callback serves the control queue. -/
def Thread.onControl : Thread → Bool
  | .register .. | .enable .. | .stopControl .. => true
  | _ => false

theorem Thread.onQueue_eq_false
    (hkind : th.kind ∉ [.receive, .notification, .transmit, .queueStop, .register, .enable, .stopControl]) :
    th.onReceive = false ∧ th.onTransmit = false ∧ th.onControl = false := by
  cases th
  case receive | notification | transmit | queueStop | register | enable | stopControl =>
    simp [Thread.kind] at hkind
  all_goals exact ⟨rfl, rfl, rfl⟩

/-- A step keeps its part in a slot, or ends and frees the slot. -/
def SlotStep (slot : Device → Option ThreadId) (holds : Thread → Bool) (th : Thread) (d : Device)
    (next : Device × Thread) : Prop :=
  holds next.2 = holds th ∧ slot next.1 = slot d ∨ holds next.2 = false ∧ slot next.1 = none ∧ holds th = true

structure SlotSteps (th : Thread) (d : Device) (next : Device × Thread) : Prop where
  receive : SlotStep Device.rxCallback Thread.onReceive th d next
  transmit : SlotStep Device.txCallback Thread.onTransmit th d next
  control : SlotStep Device.controlLock Thread.onControl th d next

theorem SlotSteps.settle {π : Type} {inside : π → Thread} {result : Device × Flow π Unit}
    (hdev : result.1.rxCallback = d.rxCallback ∧ result.1.txCallback = d.txCallback ∧
      result.1.controlLock = d.controlLock)
    (hinside : ∀ pc, (inside pc).onReceive = th.onReceive ∧ (inside pc).onTransmit = th.onTransmit ∧
      (inside pc).onControl = th.onControl) : SlotSteps th d (th.settle inside result) := by
  obtain ⟨d', flow⟩ := result
  obtain ⟨hrx, htx, hcontrol⟩ := hdev
  cases flow with
  | run pc =>
    obtain ⟨hreceive, htransmit, hon⟩ := hinside pc
    exact ⟨.inl ⟨hreceive, hrx⟩, .inl ⟨htransmit, htx⟩, .inl ⟨hon, hcontrol⟩⟩
  | ret value =>
    cases th
    case queueStop isTransmit pc =>
      cases isTransmit
      · exact ⟨.inr ⟨rfl, rfl, rfl⟩, .inl ⟨rfl, htx⟩, .inl ⟨rfl, hcontrol⟩⟩
      · exact ⟨.inl ⟨rfl, hrx⟩, .inr ⟨rfl, rfl, rfl⟩, .inl ⟨rfl, hcontrol⟩⟩
    case transmit => exact ⟨.inl ⟨rfl, hrx⟩, .inr ⟨rfl, rfl, rfl⟩, .inl ⟨rfl, hcontrol⟩⟩
    case receive | notification => exact ⟨.inr ⟨rfl, rfl, rfl⟩, .inl ⟨rfl, htx⟩, .inl ⟨rfl, hcontrol⟩⟩
    case register | enable | stopControl => exact ⟨.inl ⟨rfl, hrx⟩, .inl ⟨rfl, htx⟩, .inr ⟨rfl, rfl, rfl⟩⟩
    all_goals exact ⟨.inl ⟨rfl, hrx⟩, .inl ⟨rfl, htx⟩, .inl ⟨rfl, hcontrol⟩⟩

theorem stepThread_slots (hstep : stepThread d t choice th = some next) : SlotSteps th d next := by
  by_cases hkind : th.kind ∈ [.receive, .notification, .transmit, .queueStop, .register, .enable, .stopControl]
  · cases th <;> simp [Thread.kind] at hkind
    case receive pc =>
      cases hstep
      refine SlotSteps.settle ?_ fun _ => ⟨rfl, rfl, rfl⟩
      obtain ⟨_, _, _, hframe⟩ := advanceReceive_frame d t choice pc
      rw [hframe]
      exact ⟨rfl, rfl, rfl⟩
    case notification pc =>
      cases hstep
      refine SlotSteps.settle ?_ fun _ => ⟨rfl, rfl, rfl⟩
      obtain ⟨_, _, hframe⟩ := setNotificationEnabled_frame d pc
      rw [hframe]
      exact ⟨rfl, rfl, rfl⟩
    case transmit passive pc =>
      cases hstep
      refine SlotSteps.settle ?_ fun _ => ⟨rfl, rfl, rfl⟩
      obtain ⟨_, _, _, _, _, _, _, hframe⟩ := advanceTransmit_frame d t choice passive pc
      rw [hframe]
      exact ⟨rfl, rfl, rfl⟩
    case queueStop isTransmit pc =>
      obtain ⟨⟨d', flow⟩, hstop, rfl⟩ := Option.map_eq_some_iff.mp hstep
      refine SlotSteps.settle ?_ fun _ => ?_
      · obtain ⟨_, _, _, _, hframe⟩ := evtPacketQueueStop_frame d choice isTransmit pc hstop
        rw [hframe]
        exact ⟨rfl, rfl, rfl⟩
      · cases isTransmit <;> exact ⟨rfl, rfl, rfl⟩
    case register h r input pc =>
      cases hstep
      refine SlotSteps.settle ?_ fun _ => ⟨rfl, rfl, rfl⟩
      obtain ⟨_, _, hframe⟩ := registerWait_frame d t choice h r input pc
      rw [hframe]
      exact ⟨rfl, rfl, rfl⟩
    case enable h input pc =>
      obtain ⟨⟨d', flow⟩, henable, rfl⟩ := Option.map_eq_some_iff.mp hstep
      refine SlotSteps.settle ?_ fun _ => ⟨rfl, rfl, rfl⟩
      obtain ⟨_, _, _, _, hframe⟩ := handleEnableAdaptivePolling_frame d t h input pc henable
      rw [hframe]
      exact ⟨rfl, rfl, rfl⟩
    case stopControl r pc =>
      cases hstep
      refine SlotSteps.settle ?_ fun _ => ⟨rfl, rfl, rfl⟩
      obtain ⟨_, hframe⟩ := stopControl_frame d choice r pc
      rw [hframe]
      exact ⟨rfl, rfl, rfl⟩
  · have hframes := stepThread_frames hstep
    obtain ⟨hrx, htx, hcontrol⟩ := Thread.onQueue_eq_false hkind
    obtain ⟨hrx', htx', hcontrol'⟩ := Thread.onQueue_eq_false (stepThread_kind_not_mem hstep (by decide) hkind)
    simp only [List.mem_cons, List.not_mem_nil, or_false, not_or] at hkind
    refine ⟨.inl ⟨hrx'.trans hrx.symm, hframes.rxCallback ?_⟩, .inl ⟨htx'.trans htx.symm, hframes.txCallback ?_⟩,
      .inl ⟨hcontrol'.trans hcontrol.symm, hframes.controlLock ?_⟩⟩
    all_goals simp [hkind]

/-- A thread changes; it keeps its part in a slot, or takes the free slot, or frees its own. -/
theorem named_set {slot : Device → Option ThreadId} {holds : Thread → Bool}
    (h : ∀ t, holds (s.thr t) = true → slot s.dev = some t)
    (hchange : holds th = holds (s.thr t) ∧ slot d = slot s.dev ∨
      slot s.dev = none ∧ slot d = some t ∨ holds th = false ∧ holds (s.thr t) = true) (i : ThreadId)
    (hi : holds ((s.setThread t d th).thr i) = true) : slot (s.setThread t d th).dev = some i := by
  by_cases hit : i = t
  · subst hit
    rw [Driver.setThread_self] at hi
    obtain ⟨hsame, hdev⟩ | ⟨-, hdev⟩ | ⟨hend, -⟩ := hchange
    · exact hdev.trans (h i (hsame ▸ hi))
    · exact hdev
    · exact absurd hi (Bool.eq_false_iff.mp hend)
  · rw [Driver.setThread_of_ne _ _ _ _ hit] at hi
    have hslot := h i hi
    obtain ⟨-, hdev⟩ | ⟨hfree, -⟩ | ⟨-, hmine⟩ := hchange
    · exact hdev.trans hslot
    · cases hfree.symm.trans hslot
    · exact absurd (Option.some.inj (hslot.symm.trans (h t hmine))) hit

/-- The instance names the thread that runs on behalf of each queue. -/
structure Serialized (s : Driver) : Prop where
  receive : ∀ t, (s.thr t).onReceive = true → s.dev.rxCallback = some t
  transmit : ∀ t, (s.thr t).onTransmit = true → s.dev.txCallback = some t
  control : ∀ t, (s.thr t).onControl = true → s.dev.controlLock = some t

namespace Serialized

theorem same (h : Serialized s) (hreceive : th.onReceive = (s.thr t).onReceive ∧ d.rxCallback = s.dev.rxCallback)
    (htransmit : th.onTransmit = (s.thr t).onTransmit ∧ d.txCallback = s.dev.txCallback)
    (hcontrol : th.onControl = (s.thr t).onControl ∧ d.controlLock = s.dev.controlLock) :
    Serialized (s.setThread t d th) :=
  ⟨named_set h.receive (.inl hreceive), named_set h.transmit (.inl htransmit), named_set h.control (.inl hcontrol)⟩

theorem step (h : Serialized s) (hstep : stepDriver s a = some s') : Serialized s' := by
  cases stepDriver_cases hstep with
  | @start t a d th hidle hstart =>
    have hnone : Thread.onReceive .idle = (s.thr t).onReceive ∧ Thread.onTransmit .idle = (s.thr t).onTransmit ∧
        Thread.onControl .idle = (s.thr t).onControl := by
      rw [hidle]
      exact ⟨rfl, rfl, rfl⟩
    cases hstart
    case transmit hfree | stopTransmit hfree =>
      exact ⟨named_set h.receive (.inl ⟨hnone.1, rfl⟩), named_set h.transmit (.inr (.inl ⟨hfree, rfl⟩)),
        named_set h.control (.inl ⟨hnone.2.2, rfl⟩)⟩
    case receive hfree | stopReceive hfree | notification hfree =>
      exact ⟨named_set h.receive (.inr (.inl ⟨hfree, rfl⟩)), named_set h.transmit (.inl ⟨hnone.2.1, rfl⟩),
        named_set h.control (.inl ⟨hnone.2.2, rfl⟩)⟩
    case register hfree _ | enable hfree | stopControl hfree =>
      exact ⟨named_set h.receive (.inl ⟨hnone.1, rfl⟩), named_set h.transmit (.inl ⟨hnone.2.1, rfl⟩),
        named_set h.control (.inr (.inl ⟨hfree, rfl⟩))⟩
    all_goals exact h.same ⟨hnone.1, rfl⟩ ⟨hnone.2.1, rfl⟩ ⟨hnone.2.2, rfl⟩
  | @framework a d hmove =>
    rw [s.setDev_eq 0]
    cases hmove <;> exact h.same ⟨rfl, rfl⟩ ⟨rfl, rfl⟩ ⟨rfl, rfl⟩
  | @packet t length passive gen captured hthr hlength =>
    refine h.same ⟨?_, rfl⟩ ⟨?_, rfl⟩ ⟨?_, rfl⟩ <;>
    · rw [hthr]
      rfl
  | @advance t choice next hadvance =>
    obtain ⟨hreceive, htransmit, hcontrol⟩ := stepThread_slots hadvance
    exact ⟨named_set h.receive (hreceive.imp_right fun hend => .inr ⟨hend.1, hend.2.2⟩),
      named_set h.transmit (htransmit.imp_right fun hend => .inr ⟨hend.1, hend.2.2⟩),
      named_set h.control (hcontrol.imp_right fun hend => .inr ⟨hend.1, hend.2.2⟩)⟩

theorem receive_unique (h : Serialized s) (ht : (s.thr t).onReceive = true) (hu : (s.thr u).onReceive = true) : t = u :=
  Option.some.inj ((h.receive t ht).symm.trans (h.receive u hu))

theorem transmit_unique (h : Serialized s) (ht : (s.thr t).onTransmit = true) (hu : (s.thr u).onTransmit = true) :
    t = u :=
  Option.some.inj ((h.transmit t ht).symm.trans (h.transmit u hu))

end Serialized

theorem DriverReach.serialized (h : DriverReach ok s) : Serialized s := by
  refine h.invariant (fun s hinit => ?_) fun _ _ _ _ hinv _ hstep => hinv.step hstep
  constructor
  all_goals
    intro t ht
    rw [hinit.2 t] at ht
    cases ht

/-! ### Power transitions -/

/-- The power transition that a callback makes. -/
def Thread.transition : Thread → Option Power
  | .d0Entry _ => some .entering
  | .d0Exit _ => some .exiting
  | _ => none

theorem Thread.transition_eq_none (hkind : th.kind ∉ [.d0Entry, .d0Exit]) : th.transition = none := by
  cases th <;> first | rfl | simp [Thread.kind] at hkind

/-- At most one power transition is running, and the power state says which. -/
structure Alternating (s : Driver) : Prop where
  power : ∀ t p, (s.thr t).transition = some p → s.dev.power = p
  unique : ∀ t u, (s.thr t).transition ≠ none → (s.thr u).transition ≠ none → t = u

theorem stepThread_transition (hstep : stepThread d t choice th = some next) :
    next.2.transition = th.transition ∧ next.1.power = d.power ∨
      th.transition ≠ none ∧ next.2.transition = none := by
  by_cases hkind : th.kind ∈ [.d0Entry, .d0Exit]
  · cases th <;> simp [Thread.kind] at hkind
    case d0Entry pc =>
      obtain ⟨⟨d', flow⟩, hresult, rfl⟩ := Option.map_eq_some_iff.mp hstep
      obtain ⟨_, _, _, _, rfl⟩ := evtDeviceD0Entry_frame d pc hresult
      cases flow with
      | run pc => exact .inl ⟨rfl, rfl⟩
      | ret value => exact .inr ⟨Option.some_ne_none _, rfl⟩
    case d0Exit pc =>
      obtain ⟨⟨d', flow⟩, hresult, rfl⟩ := Option.map_eq_some_iff.mp hstep
      obtain ⟨_, _, _, _, _, _, _, _, _, _, _, _, rfl⟩ := evtDeviceD0Exit_frame d t choice pc hresult
      cases flow with
      | run pc => exact .inl ⟨rfl, rfl⟩
      | ret value => exact .inr ⟨Option.some_ne_none _, rfl⟩
  · refine .inl ⟨?_, (stepThread_frames hstep).power hkind⟩
    rw [Thread.transition_eq_none hkind]
    exact Thread.transition_eq_none (stepThread_kind_not_mem hstep (by decide) hkind)

namespace Alternating

theorem keep (h : Alternating s) (hsame : th.transition = (s.thr t).transition) (hpower : d.power = s.dev.power) :
    Alternating (s.setThread t d th) := by
  have hkeep := s.setThread_keep t d th hsame
  refine ⟨fun i p hi => hpower.trans (h.power i p (hkeep i ▸ hi)), fun i j hi hj => ?_⟩
  rw [hkeep] at hi hj
  exact h.unique i j hi hj

theorem alone (hothers : ∀ i, i ≠ t → (s.thr i).transition = none) (hmine : ∀ p, th.transition = some p → d.power = p) :
    Alternating (s.setThread t d th) := by
  have honly : ∀ i, ((s.setThread t d th).thr i).transition ≠ none → i = t := by
    intro i hi
    by_contra hit
    rw [Driver.setThread_of_ne _ _ _ _ hit] at hi
    exact hi (hothers i hit)
  refine ⟨fun i p hi => ?_, fun i j hi hj => (honly i hi).trans (honly j hj).symm⟩
  have hit := honly i (by rw [hi]; exact nofun)
  rw [hit, Driver.setThread_self] at hi
  exact hmine p hi

theorem none_of_settled (h : Alternating s) (hpower : s.dev.power = .up ∨ s.dev.power = .down)
    (t : ThreadId) : (s.thr t).transition = none := by
  cases hth : (s.thr t).transition with
  | none => rfl
  | some p =>
    rw [h.power t p hth] at hpower
    cases hkind : s.thr t <;> rw [hkind] at hth <;> cases hth
    all_goals rcases hpower with hpower | hpower <;> cases hpower

theorem step (h : Alternating s) (hstep : stepDriver s a = some s') : Alternating s' := by
  cases stepDriver_cases hstep with
  | @start t a d th hidle hstart =>
    cases hstart
    case d0Entry hpower =>
      refine alone (fun i _ => h.none_of_settled (.inr hpower) i) fun p hp => ?_
      cases hp
      rfl
    case d0Exit hpower =>
      refine alone (fun i _ => h.none_of_settled (.inl hpower) i) fun p hp => ?_
      cases hp
      rfl
    all_goals exact h.keep (by rw [hidle]; rfl) rfl
  | @framework a d hmove =>
    rw [s.setDev_eq 0]
    cases hmove <;> exact h.keep rfl rfl
  | @packet t length passive gen captured hthr hlength => exact h.keep (by rw [hthr]; rfl) rfl
  | @advance t choice next hadvance =>
    obtain ⟨hsame, hpower⟩ | ⟨hmine, hend⟩ := stepThread_transition hadvance
    · exact h.keep hsame hpower
    · refine alone (fun i hi => ?_) fun p hp => (by rw [hend] at hp; cases hp)
      by_contra hother
      exact hi (h.unique i t hother hmine)

end Alternating

theorem DriverReach.alternating (h : DriverReach ok s) : Alternating s := by
  refine h.invariant (fun s hinit => ?_) fun _ _ _ _ hinv _ hstep => hinv.step hstep
  refine ⟨fun t p ht => ?_, fun t u ht => ?_⟩
  · rw [hinit.2 t] at ht
    cases ht
  · rw [hinit.2 t] at ht
    exact absurd rfl ht

end WinTap

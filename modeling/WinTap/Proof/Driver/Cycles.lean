import WinTap.Proof.Driver.QueueStates

/-!
# Start and stop of the hardware

The adapter is created when the device is added, and `evt_device_release_hardware` gives it up. Nothing creates it
again, so the hardware of a device is prepared once. As long as no file callback runs beside a hardware or power
callback, every entry into D0 leaves the instance open, with open queues and without the power and hardware closers:
the queues are opened by the entry itself, and the hardware closer was released when the hardware was prepared.
-/

namespace WinTap

variable {s s' : Instance} {a : InstanceAction} {d d' : Device} {choice : Choice} {pc : PreparePc}
  {flow : Flow PreparePc PrepareOutcome} {t : ThreadId} {ok : Instance → InstanceAction → Prop} {th : Thread}
  {next : Device × Thread}

/-! ### The adapter -/

theorem stepDriver_adapter {s s' : Driver} {a : Action} (hstep : stepDriver s a = some s') :
    s'.dev.adapter = s.dev.adapter := by
  cases stepDriver_cases hstep with
  | start hidle hstart =>
    obtain ⟨_, _, _, _, _, _, _, _, hframe⟩ := hstart.frame
    rw [Driver.setThread_dev, hframe]
  | framework hmove => cases hmove <;> rfl
  | packet => rfl
  | advance hadvance => exact (stepThread_frames hadvance).adapter

/-- The release has given up the adapter. -/
def ReleasePc.dropped : ReleasePc → Bool
  | .closed | .unlockWrite | .unlockDirect => true
  | _ => false

def Hardware.dropped : Hardware → Bool
  | .releasing _ pc => pc.dropped
  | _ => false

/-- The adapter was given up, by a release that has returned or by the one that is running. -/
def Instance.gaveUp (s : Instance) : Bool := decide (.released ∈ s.hardwareLog) || s.hardware.dropped

/-- What the preparation found when it looked for the adapter. -/
def PreparePc.found : PreparePc → Option Bool
  | .closeLifecycle => none
  | .checkAdapter adapter => some adapter
  | .readmitCallbacks _ | .startAdapter => some true

def Hardware.found : Hardware → Option Bool
  | .preparing _ pc => pc.found
  | _ => none

theorem PrepareStep.found (hstep : PrepareStep d choice pc d' flow) :
    d'.adapter = d.adapter ∧ (flow.on PreparePc.found none = pc.found ∨ flow.on PreparePc.found none = none ∨
      flow.on PreparePc.found none = some d.adapter) := by
  cases hstep with
  | closeLifecycle => exact ⟨rfl, .inr (.inr rfl)⟩
  | noAdapter | startAdapter => exact ⟨rfl, .inr (.inl rfl)⟩
  | checkAdapter | readmitReceive | readmitCapture => exact ⟨rfl, .inl rfl⟩

theorem ReleaseStep.adapter {pc : ReleasePc} {flow : Flow ReleasePc Unit} (hstep : ReleaseStep d t choice pc d' flow) :
    d'.adapter = (d.adapter && pc ≠ .dropAdapter) ∧
      flow.on ReleasePc.dropped pc.dropped = (pc.dropped || pc = .dropAdapter) := by
  cases hstep <;> exact ⟨by simp, rfl⟩

/-- The adapter exists as long as it was not given up, and the preparation saw as much. -/
structure AdapterKnown (s : Instance) : Prop where
  adapter : s.driver.dev.adapter = !s.gaveUp
  found : ∀ adapter, s.hardware.found = some adapter → adapter = s.driver.dev.adapter

namespace AdapterKnown

theorem prepare (h : AdapterKnown s) (hhardware : s.hardware = .preparing t pc)
    (hstep : PrepareStep s.driver.dev choice pc d flow) : AdapterKnown (s.settlePrepare t (d, flow)) := by
  obtain ⟨hadapter, hfound⟩ := hstep.found
  have hgaveUp : (s.settlePrepare t (d, flow)).gaveUp = s.gaveUp := by
    unfold Instance.gaveUp
    rw [hhardware]
    cases flow with
    | run pc => rfl
    | ret outcome =>
      have hdropped : (if outcome.status = statusSuccess then Hardware.prepared else .failed).dropped = false := by
        split <;> rfl
      simp only [Instance.settlePrepare, hdropped, List.mem_cons, reduceCtorEq, false_or]
      rfl
  have hnext : (s.settlePrepare t (d, flow)).hardware.found = flow.on PreparePc.found none := by
    cases flow with
    | run pc => rfl
    | ret outcome =>
      simp only [Instance.settlePrepare]
      split <;> rfl
  have hbefore := h.found
  rw [hhardware] at hbefore
  refine ⟨?_, fun adapter hadapter' => ?_⟩ <;> rw [Instance.settlePrepare_dev]
  · rw [hgaveUp, ← h.adapter]
    exact hadapter
  · refine Eq.trans ?_ hadapter.symm
    rw [hnext] at hadapter'
    obtain hsame | hnone | hlooked := hfound
    · exact hbefore adapter (hsame.symm.trans hadapter')
    · rw [hnone] at hadapter'
      cases hadapter'
    · rw [hlooked] at hadapter'
      exact (Option.some.inj hadapter').symm

theorem release (h : AdapterKnown s) {pc : ReleasePc} {flow : Flow ReleasePc Unit}
    (hhardware : s.hardware = .releasing t pc) (hstep : ReleaseStep s.driver.dev t choice pc d flow) :
    AdapterKnown (s.settleRelease t (d, flow)) := by
  obtain ⟨hadapter, hdropped⟩ := hstep.adapter
  have hbefore := h.adapter
  unfold Instance.gaveUp at hbefore
  rw [hhardware] at hbefore
  refine ⟨?_, fun adapter hadapter' => ?_⟩
  · rw [Instance.settleRelease_dev]
    change d.adapter = _
    rw [hadapter, hbefore]
    unfold Instance.gaveUp
    cases flow with
    | run pc' =>
      change _ = !(decide (.released ∈ s.hardwareLog) || pc'.dropped)
      rw [show pc'.dropped = _ from hdropped]
      simp [Hardware.dropped, Bool.and_assoc]
    | ret value =>
      cases hstep
      simp [Instance.settleRelease, Hardware.dropped, ReleasePc.dropped]
  · cases flow <;> cases hadapter'

theorem step (h : AdapterKnown s) (hstep : stepInstance s a = some s') : AdapterKnown s' := by
  cases stepInstance_cases hstep with
  | prepareHardware hhardware hidle =>
    refine ⟨?_, fun adapter hadapter => ?_⟩
    · have hbefore := h.adapter
      unfold Instance.gaveUp at hbefore
      rw [hhardware] at hbefore
      exact hbefore
    · cases hadapter
  | releaseHardware hhardware hpower hidle =>
    refine ⟨?_, fun adapter hadapter => ?_⟩
    · have hbefore := h.adapter
      unfold Instance.gaveUp at hbefore
      obtain hhardware | hhardware := hhardware <;> rw [hhardware] at hbefore <;> exact hbefore
    · cases hadapter
  | prepare hhardware hcallback => exact h.prepare hhardware hcallback
  | release hhardware hcallback => exact h.release hhardware hcallback
  | driver hallows hcallback =>
    have hadapter := stepDriver_adapter hcallback
    exact ⟨hadapter.trans h.adapter, fun adapter hfound => (h.found adapter hfound).trans hadapter.symm⟩

end AdapterKnown

theorem InstanceReach.adapterKnown (h : InstanceReach ok s) : AdapterKnown s := by
  refine h.invariant (fun s hinit => ?_) fun _ _ _ _ hknown _ hstep => hknown.step hstep
  obtain ⟨mtu, -, -, rfl⟩ := hinit
  exact ⟨rfl, (fun _ hfound => by cases hfound)⟩

/-- The hardware is not prepared again after it was released. -/
def PreparesOnce (s : Instance) (a : InstanceAction) : Prop :=
  ∀ t, a = .prepareHardware t → .released ∉ s.hardwareLog

/-- No preparation has found the adapter gone. -/
structure AdapterKept (s : Instance) : Prop where
  preparing : ∀ t pc, s.hardware = .preparing t pc → .released ∉ s.hardwareLog
  returned : .prepareReturned .noAdapter ∉ s.hardwareLog

theorem InstanceReach.adapterKept (h : InstanceReach PreparesOnce s) : AdapterKept s := by
  refine h.invariant (fun s hinit => ?_) fun s a s' hreach hkept hok hstep => ?_
  · obtain ⟨mtu, -, -, rfl⟩ := hinit
    exact ⟨(fun _ _ hpc => by cases hpc), List.not_mem_nil⟩
  · cases stepInstance_cases hstep with
    | @prepareHardware t hhardware hidle => exact ⟨fun _ _ _ => hok t rfl, hkept.returned⟩
    | releaseHardware hhardware hpower hidle => exact ⟨(fun _ _ hpc => by cases hpc), hkept.returned⟩
    | @prepare t choice pc d flow hhardware hcallback =>
      have hreleased := hkept.preparing t pc hhardware
      cases flow with
      | run pc' => exact ⟨fun _ _ _ => hreleased, hkept.returned⟩
      | ret outcome =>
        refine ⟨fun t pc hpc => ?_, fun hmem => ?_⟩
        · simp only [Instance.settlePrepare] at hpc
          split at hpc <;> cases hpc
        · obtain hnew | hold := List.mem_cons.mp hmem
          · -- the adapter was there when the preparation looked for it
            cases hnew
            cases hcallback
            have hknown := InstanceReach.adapterKnown hreach
            have hgone : s.driver.dev.adapter = false := (hknown.found false (by rw [hhardware]; rfl)).symm
            rw [hknown.adapter, Instance.gaveUp, hhardware, decide_eq_false hreleased] at hgone
            cases hgone
          · exact hkept.returned hold
    | @release t choice pc d flow hhardware hcallback =>
      cases flow with
      | run pc' => exact ⟨(fun _ _ hpc => by cases hpc), hkept.returned⟩
      | ret value =>
        refine ⟨(fun _ _ hpc => by cases hpc), fun hmem => ?_⟩
        obtain hnew | hold := List.mem_cons.mp hmem
        · cases hnew
        · exact hkept.returned hold
    | driver hallows hcallback => exact ⟨hkept.preparing, hkept.returned⟩

/-- The preparation comes to `NetAdapterStart`. -/
def Instance.StartsAdapter (s : Instance) (t : ThreadId) : Prop :=
  ∃ n s', instanceSystem.run s (List.replicate n (.hardware none)) = some s' ∧ s'.hardware = .preparing t .startAdapter

theorem Instance.StartsAdapter.step {pc pc' : PreparePc} (hhardware : s.hardware = .preparing t pc)
    (hstep : evtDevicePrepareHardware s.driver.dev none pc = some (d, .run pc'))
    (h : Instance.StartsAdapter { s with driver.dev := d, hardware := .preparing t pc' } t) : s.StartsAdapter t := by
  obtain ⟨n, s', hrun, hstart⟩ := h
  have hfirst : instanceSystem.step s (.hardware none) =
      some { s with driver.dev := d, hardware := .preparing t pc' } := by
    change stepHardware s none = _
    rw [stepHardware, hhardware]
    simp only [hstep]
    rfl
  refine ⟨n + 1, s', ?_, hstart⟩
  rw [List.replicate_succ, Machine.System.run_cons, hfirst]
  exact hrun

/-- A preparation that found the adapter, or will, goes on to start it; it waits for the state lock only. -/
theorem AdapterKept.startsAdapter (h : AdapterKept s) (hknown : AdapterKnown s)
    (hhardware : s.hardware = .preparing t pc) (hlock : pc = .closeLifecycle → s.driver.dev.stateLock = none) :
    s.StartsAdapter t := by
  have hreleased := h.preparing t pc hhardware
  have hadapter : s.driver.dev.adapter = true := by
    rw [hknown.adapter, Instance.gaveUp, hhardware, decide_eq_false hreleased]
    rfl
  have hlast : ∀ s : Instance, s.hardware = .preparing t (.readmitCallbacks .capture) → s.StartsAdapter t :=
    fun s hs => .step hs rfl ⟨0, _, rfl, rfl⟩
  have hthird : ∀ s : Instance, s.hardware = .preparing t (.readmitCallbacks .receive) → s.StartsAdapter t :=
    fun s hs => .step hs rfl (hlast _ rfl)
  have hsecond : ∀ s : Instance, s.hardware = .preparing t (.checkAdapter true) → s.StartsAdapter t :=
    fun s hs => .step hs rfl (hthird _ rfl)
  cases pc with
  | closeLifecycle =>
    have hfirst : evtDevicePrepareHardware s.driver.dev none .closeLifecycle =
        some ({ s.driver.dev with lifecycle := .instanceClosing }, .run (.checkAdapter s.driver.dev.adapter)) := by
      rw [evtDevicePrepareHardware, if_pos (hlock rfl)]
    refine .step hhardware hfirst (hsecond _ ?_)
    exact congrArg (fun adapter => Hardware.preparing t (.checkAdapter adapter)) hadapter
  | checkAdapter adapter =>
    obtain rfl : adapter = true := (hknown.found adapter (by rw [hhardware]; rfl)).trans hadapter
    exact hsecond s hhardware
  | readmitCallbacks pc =>
    cases pc with
    | receive => exact hthird s hhardware
    | capture => exact hlast s hhardware
  | startAdapter => exact ⟨0, s, rfl, hhardware⟩

/-! ### Entering D0 -/

/-- What an instance in D0 needs to carry traffic. -/
structure Device.Serves (d : Device) : Prop where
  opened : d.lifecycle = .instanceOpen
  queues : ∀ side, (d.queue side).state = .opened
  admitted : ∀ side, ¬closedBy (d.leases.word side) .power ∧ ¬closedBy (d.leases.word side) .hardware

/-- The hardware and power callbacks are called one at a time, and opens and closes only between them. -/
def LegalCycle (s : Instance) : InstanceAction → Prop
  | .prepareHardware _ | .releaseHardware _ => s.driver.Settled
  | .driver (.d0Entry _) | .driver (.d0Exit _) => s.hardware.thread = none ∧ s.driver.Settled
  | .driver (.create ..) | .driver (.cleanup ..) =>
    s.hardware.thread = none ∧ ∀ t, (s.driver.thr t).kind ∉ [.d0Entry, .d0Exit]
  | _ => True

/-- The entry into D0 has opened the queue. -/
def Thread.enteredQueue (side : Side) : Thread → Bool
  | .d0Entry (.reopen pc) => pc.swept side
  | .d0Entry .openLifecycle | .d0Entry (.readmitCallbacks _) => true
  | _ => false

/-- The entry into D0 has opened the instance. -/
def Thread.enteredOpen : Thread → Bool
  | .d0Entry (.readmitCallbacks _) => true
  | _ => false

/-- The preparation has released the hardware closer of the direction. -/
def Hardware.readmitted (side : Side) : Hardware → Bool
  | .preparing _ (.readmitCallbacks pc) => !pc.holds side
  | .preparing _ .startAdapter | .prepared => true
  | _ => false

theorem Thread.entered_eq_false (hk : th.kind ≠ .d0Entry) (side : Side) :
    th.enteredQueue side = false ∧ th.enteredOpen = false := by
  cases th <;> first | exact ⟨rfl, rfl⟩ | exact absurd rfl hk

theorem stepThread_enteredQueue (hstep : stepThread d t choice th = some next) (hk : th.kind = .d0Entry) (side : Side)
    (hentered : th.enteredQueue side = true → (d.queue side).state = .opened)
    (hafter : next.2.enteredQueue side = true) : (next.1.queue side).state = .opened := by
  cases th <;> cases hk
  obtain ⟨⟨d', flow⟩, hresult, rfl⟩ := Option.map_eq_some_iff.mp hstep
  rw [Thread.settle_queue]
  rw [Thread.settle_eq] at hafter
  cases evtDeviceD0Entry_cases hresult <;> cases side <;>
    first | rfl | exact hentered rfl | exact hentered hafter

theorem stepThread_enteredOpen (hstep : stepThread d t choice th = some next) (hk : th.kind = .d0Entry)
    (hentered : th.enteredOpen = true → d.lifecycle = .instanceOpen) (hafter : next.2.enteredOpen = true) :
    next.1.lifecycle = .instanceOpen := by
  cases th <;> cases hk
  obtain ⟨⟨d', flow⟩, hresult, rfl⟩ := Option.map_eq_some_iff.mp hstep
  obtain ⟨_, _, _, _, _, _, _, hframe⟩ := (Thread.d0Entry _).settle_frame Thread.d0Entry (d', flow)
  rw [hframe]
  rw [Thread.settle_eq] at hafter
  cases evtDeviceD0Entry_cases hresult <;> first | rfl | exact hentered rfl | cases hafter

/-- The entry into D0 is alone, and what it has done so far is in effect. -/
structure Cycling (s : Instance) : Prop where
  hardwareAlone : s.hardware.thread ≠ none → s.driver.Settled
  powerAlone : ∀ t, (s.driver.thr t).kind ∈ [.d0Entry, .d0Exit] →
    ∀ u, u ≠ t → (s.driver.thr u).kind ∉ [.create, .cleanup, .d0Entry, .d0Exit]
  prepared : ∀ t, (s.driver.thr t).kind = .d0Entry → s.hardware = .prepared
  queues : ∀ t side, (s.driver.thr t).enteredQueue side = true → (s.driver.dev.queue side).state = .opened
  opened : ∀ t, (s.driver.thr t).enteredOpen = true → s.driver.dev.lifecycle = .instanceOpen
  readmitted : ∀ side, s.hardware.readmitted side = true → ¬closedBy (s.driver.dev.leases.word side) .hardware

namespace Cycling

theorem keep (h : Cycling s) (hth : th = s.driver.thr t ∨ th.kind ∉ [.create, .cleanup, .d0Entry, .d0Exit])
    (hlifecycle : d.lifecycle = s.driver.dev.lifecycle)
    (hqueues : ∀ side, (d.queue side).state = (s.driver.dev.queue side).state)
    (hclosers : ∀ side, closedBy (d.leases.word side) .hardware → closedBy (s.driver.dev.leases.word side) .hardware) :
    Cycling { s with driver := s.driver.setThread t d th } := by
  have hbefore : ∀ {P : Thread → Prop}, (∀ th, th.kind ∉ [.create, .cleanup, .d0Entry, .d0Exit] → ¬P th) →
      ∀ i, P ((s.driver.setThread t d th).thr i) → P (s.driver.thr i) := by
    intro P hP i hi
    by_cases hit : i = t
    · subst hit
      rw [Driver.setThread_self] at hi
      obtain heq | hother := hth
      · exact heq ▸ hi
      · exact absurd hi (hP th hother)
    · rwa [Driver.setThread_of_ne _ _ _ _ hit] at hi
  have hfour : ∀ i, ((s.driver.setThread t d th).thr i).kind ∈ [.create, .cleanup, .d0Entry, .d0Exit] →
      (s.driver.thr i).kind ∈ [.create, .cleanup, .d0Entry, .d0Exit] :=
    fun i => hbefore (P := fun th => th.kind ∈ [.create, .cleanup, .d0Entry, .d0Exit]) (fun _ => id) i
  have hentry : ∀ th : Thread, th.kind ∉ [.create, .cleanup, .d0Entry, .d0Exit] → th.kind ≠ .d0Entry :=
    fun th hth hk => hth (by simp [hk])
  constructor <;> dsimp only [Driver.setThread_dev]
  · exact fun hhardware i hi => h.hardwareAlone hhardware i (hfour i hi)
  · intro i hi u hu hmem
    refine h.powerAlone i ?_ u hu (hfour u hmem)
    exact hbefore (P := fun th => th.kind ∈ [.d0Entry, .d0Exit]) (fun th hth hk => hth (by simp_all)) i hi
  · exact fun i hi => h.prepared i (hbefore (P := fun th => th.kind = .d0Entry) hentry i hi)
  · intro i side hi
    rw [hqueues]
    refine h.queues i side (hbefore (P := fun th => th.enteredQueue side = true) (fun th hth hk => ?_) i hi)
    rw [(Thread.entered_eq_false (hentry th hth) side).1] at hk
    cases hk
  · intro i hi
    rw [hlifecycle]
    refine h.opened i (hbefore (P := fun th => th.enteredOpen = true) (fun th hth hk => ?_) i hi)
    rw [(Thread.entered_eq_false (hentry th hth) .receive).2] at hk
    cases hk
  · exact fun side hreadmitted hclosed => h.readmitted side hreadmitted (hclosers side hclosed)

theorem advance (h : Cycling s) (hcounted : LeasesCounted s.driver)
    (hstep : stepThread s.driver.dev t choice (s.driver.thr t) = some next) :
    Cycling { s with driver := s.driver.setThread t next.1 next.2 } := by
  have hkinds : ∀ {k : Kind}, k ≠ .idle → ∀ i, ((s.driver.setThread t next.1 next.2).thr i).kind = k →
      (s.driver.thr i).kind = k := by
    intro k hk i hi
    by_cases hit : i = t
    · subst hit
      rw [Driver.setThread_self] at hi
      obtain hidle | hsame := stepThread_kind hstep
      · rw [hidle] at hi
        exact absurd hi.symm hk
      · exact hsame ▸ hi
    · rwa [Driver.setThread_of_ne _ _ _ _ hit] at hi
  have hmem : ∀ {ks : List Kind}, .idle ∉ ks → ∀ i, ((s.driver.setThread t next.1 next.2).thr i).kind ∈ ks →
      (s.driver.thr i).kind ∈ ks := by
    intro ks hidle i hi
    rwa [hkinds (fun hk => hidle (hk ▸ hi)) i rfl]
  -- beside an entry into D0 only other callbacks take steps
  have hbeside : ∀ i, i ≠ t → (s.driver.thr i).kind = .d0Entry →
      (s.driver.thr t).kind ∉ [.cleanup, .d0Entry, .d0Exit] := by
    intro i hit hi hk
    exact h.powerAlone i (by simp [hi]) t (Ne.symm hit) (List.mem_cons_of_mem _ hk)
  constructor <;> dsimp only [Driver.setThread_dev]
  · exact fun hhardware i hi => h.hardwareAlone hhardware i (hmem (by decide) i hi)
  · exact fun i hi u hu hfour => h.powerAlone i (hmem (by decide) i hi) u hu (hmem (by decide) u hfour)
  · exact fun i hi => h.prepared i (hkinds (by decide) i hi)
  · intro i side hi
    have hentry : ((s.driver.setThread t next.1 next.2).thr i).kind = .d0Entry := by
      by_contra hk
      rw [(Thread.entered_eq_false hk side).1] at hi
      cases hi
    have hkind := hkinds (by decide) i hentry
    by_cases hit : i = t
    · subst hit
      rw [Driver.setThread_self] at hi
      exact stepThread_enteredQueue hstep hkind side (h.queues i side) hi
    · rw [Driver.setThread_of_ne _ _ _ _ hit] at hi
      exact (stepThread_queueState (hbeside i hit hkind) hstep side).trans (h.queues i side hi)
  · intro i hi
    have hentry : ((s.driver.setThread t next.1 next.2).thr i).kind = .d0Entry := by
      by_contra hk
      rw [(Thread.entered_eq_false hk .receive).2] at hi
      cases hi
    have hkind := hkinds (by decide) i hentry
    by_cases hit : i = t
    · subst hit
      rw [Driver.setThread_self] at hi
      exact stepThread_enteredOpen hstep hkind (h.opened i) hi
    · rw [Driver.setThread_of_ne _ _ _ _ hit] at hi
      exact ((stepThread_frames hstep).lifecycle (hbeside i hit hkind)).trans (h.opened i hi)
  · intro side hreadmitted hclosed
    obtain ⟨hbefore | hshuts, -⟩ := ((stepThread_word hstep side ((hcounted side).le t)).closers .hardware).mp hclosed
    · exact h.readmitted side hreadmitted hbefore
    · exact Thread.not_shuts_hardware hshuts

theorem begin (h : Cycling s) (hhardware : s.hardware.thread = none)
    (hpower : ∀ u, (s.driver.thr u).kind ∉ [.d0Entry, .d0Exit])
    (hsettled : th.kind ∈ [.d0Entry, .d0Exit] → s.driver.Settled)
    (hprepared : th.kind = .d0Entry → s.hardware = .prepared)
    (hentered : ∀ side, th.enteredQueue side = false ∧ th.enteredOpen = false)
    (hleases : d.leases = s.driver.dev.leases) : Cycling { s with driver := s.driver.setThread t d th } := by
  have hmine : ∀ {P : Thread → Prop}, (∀ th, P th → th.kind ∈ [.d0Entry, .d0Exit]) →
      ∀ i, P ((s.driver.setThread t d th).thr i) → i = t ∧ P th := by
    intro P hP i hi
    by_cases hit : i = t
    · subst hit
      rw [Driver.setThread_self] at hi
      exact ⟨rfl, hi⟩
    · rw [Driver.setThread_of_ne _ _ _ _ hit] at hi
      exact absurd (hP _ hi) (hpower i)
  have hentry : ∀ th : Thread, th.kind = .d0Entry → th.kind ∈ [.d0Entry, .d0Exit] := fun th hk => by simp [hk]
  constructor <;> dsimp only [Driver.setThread_dev]
  · exact fun hthread => absurd hhardware hthread
  · intro i hi u hu
    obtain ⟨rfl, hth⟩ := hmine (P := fun th => th.kind ∈ [.d0Entry, .d0Exit]) (fun _ => id) i hi
    rw [Driver.setThread_of_ne _ _ _ _ hu]
    exact hsettled hth u
  · exact fun i hi => hprepared (hmine (P := fun th => th.kind = .d0Entry) hentry i hi).2
  · intro i side hi
    obtain ⟨-, hth⟩ := hmine (P := fun th => th.enteredQueue side = true)
      (fun th hth => hentry th (by_contra fun hk => by simp [(Thread.entered_eq_false hk side).1] at hth)) i hi
    rw [(hentered side).1] at hth
    cases hth
  · intro i hi
    obtain ⟨-, hth⟩ := hmine (P := fun th => th.enteredOpen = true)
      (fun th hth => hentry th (by_contra fun hk => by simp [(Thread.entered_eq_false hk .receive).2] at hth)) i hi
    rw [(hentered .receive).2] at hth
    cases hth
  · intro side hreadmitted
    rw [hleases]
    exact h.readmitted side hreadmitted

theorem driver (h : Cycling s) (hcounted : LeasesCounted s.driver) {a : Action} {driver : Driver}
    (hlegal : LegalCycle s (.driver a)) (hallows : s.hardware.allows a = true)
    (hstep : stepDriver s.driver a = some driver) : Cycling { s with driver := driver } := by
  cases stepDriver_cases hstep with
  | @start t a d th hidle hstart =>
    obtain ⟨_, _, _, _, _, _, _, _, hframe⟩ := hstart.frame
    have hleases : d.leases = s.driver.dev.leases := by
      rw [hframe]
      rfl
    have hsettled : s.driver.Settled → ∀ u, (s.driver.thr u).kind ∉ [.d0Entry, .d0Exit] :=
      fun hsettled u hk => hsettled u (by simp_all)
    cases hstart with
    | create | cleanup =>
      all_goals
        exact h.begin hlegal.1 hlegal.2 (by simp [Thread.kind]) (by simp [Thread.kind]) (fun _ => ⟨rfl, rfl⟩) rfl
    | d0Entry =>
      refine h.begin hlegal.1 (hsettled hlegal.2) (fun _ => hlegal.2) (fun _ => ?_) (fun _ => ⟨rfl, rfl⟩) rfl
      exact of_decide_eq_true (Bool.and_eq_true_iff.mp hallows).2
    | d0Exit =>
      exact h.begin hlegal.1 (hsettled hlegal.2) (fun _ => hlegal.2) (by simp [Thread.kind]) (fun _ => ⟨rfl, rfl⟩) rfl
    | _ => all_goals exact h.keep (.inr (by simp [Thread.kind])) rfl (fun side => by cases side <;> rfl) fun _ => id
  | @framework a d hmove =>
    rw [s.driver.setDev_eq 0]
    refine h.keep (.inl rfl) (by cases hmove <;> rfl) (fun side => by cases hmove <;> cases side <;> rfl) fun side => ?_
    cases hmove <;> exact id
  | @packet t length passive gen captured hthr hlength =>
    exact h.keep (.inr (by simp [Thread.kind])) rfl (fun side => by cases side <;> rfl) fun _ => id
  | @advance t choice next hadvance => exact h.advance hcounted hadvance

theorem hardware (hsettled : s.driver.Settled) {hw : Hardware} {log : List HardwareEvent}
    (hreadmitted : ∀ side, hw.readmitted side = true → ¬closedBy (d.leases.word side) .hardware) :
    Cycling { driver := { s.driver with dev := d }, hardware := hw, hardwareLog := log } := by
  have hpower : ∀ t, (s.driver.thr t).kind ∉ [.d0Entry, .d0Exit] := fun t hk => hsettled t (by simp_all)
  have hentry : ∀ t, (s.driver.thr t).kind ≠ .d0Entry := fun t hk => hsettled t (by simp [hk])
  constructor <;> dsimp only
  · exact fun _ => hsettled
  · exact fun i hi => absurd hi (hpower i)
  · exact fun i hi => absurd hi (hentry i)
  · intro i side hi
    rw [(Thread.entered_eq_false (hentry i) side).1] at hi
    cases hi
  · intro i hi
    rw [(Thread.entered_eq_false (hentry i) .receive).2] at hi
    cases hi
  · exact hreadmitted

theorem step (h : Cycling s) (hcounted : LeasesCounted s.driver) (hlegal : LegalCycle s a)
    (hstep : stepInstance s a = some s') : Cycling s' := by
  cases stepInstance_cases hstep with
  | prepareHardware hhardware hidle | releaseHardware hhardware _ hidle =>
    all_goals exact hardware (s := s) hlegal fun side hreadmitted => by cases hreadmitted
  | @prepare t choice pc d flow hhardware hcallback =>
    have hsettled := h.hardwareAlone (by rw [hhardware]; exact Option.some_ne_none t)
    have hbefore := h.readmitted
    rw [hhardware] at hbefore
    have hword := hcallback.word
    cases hcallback with
    | closeLifecycle | noAdapter | checkAdapter =>
      all_goals exact hardware hsettled fun side hreadmitted => by cases side <;> cases hreadmitted
    | readmitReceive =>
      refine hardware hsettled fun side hreadmitted => ?_
      cases side with
      | receive => exact fun hclosed => (((hword .receive).2 .hardware).mp hclosed).2 ⟨rfl, rfl⟩
      | capture => cases hreadmitted
    | readmitCapture =>
      refine hardware hsettled fun side hreadmitted hclosed => ?_
      obtain ⟨hold, hopen⟩ := ((hword side).2 .hardware).mp hclosed
      cases side with
      | receive => exact hbefore .receive rfl hold
      | capture => exact hopen ⟨rfl, rfl⟩
    | startAdapter status => exact hardware hsettled fun side _ => hbefore side rfl
  | @release t choice pc d flow hhardware hcallback =>
    have hsettled := h.hardwareAlone (by rw [hhardware]; exact Option.some_ne_none t)
    cases flow <;> exact hardware hsettled fun side hreadmitted => by cases hreadmitted
  | driver hallows hcallback => exact h.driver hcounted hlegal hallows hcallback

end Cycling

theorem InstanceReach.cycling (h : InstanceReach LegalCycle s) : Cycling s := by
  refine h.invariant (fun s hinit => ?_) fun _ _ _ hreach hcycling hlegal hstep =>
    hcycling.step (InstanceReach.leasesCounted hreach) hlegal hstep
  obtain ⟨mtu, -, -, rfl⟩ := hinit
  have hsettled : (Instance.added mtu).driver.Settled := fun t => by
    change Kind.idle ∉ _
    decide
  exact Cycling.hardware (s := .added mtu) hsettled fun side hreadmitted => by cases hreadmitted

theorem InstanceReach.closersBacked (h : InstanceReach ok s) : ClosersBacked s.driver := by
  refine h.invariant (P := fun s => ClosersBacked s.driver) (fun s hinit => ?_) fun s a s' hreach hbacked _ hstep => ?_
  · obtain ⟨mtu, -, -, rfl⟩ := hinit
    have hword : ∀ side, (Device.added mtu).leases.word side = Closer.hardware.mask := fun side => by cases side <;> rfl
    refine ⟨fun side hclosed => ?_, fun side hclosed => .inr (.inl rfl)⟩
    change closedBy ((Device.added mtu).leases.word side) .owner at hclosed
    rw [hword] at hclosed
    exact absurd hclosed (by decide)
  · cases stepInstance_cases hstep with
    | prepareHardware | releaseHardware => exact hbacked
    | @prepare t choice pc d flow hhardware hcallback =>
      have hpower : d.power = s.driver.dev.power := by cases hcallback <;> rfl
      rw [Instance.settlePrepare_dev]
      refine ⟨fun side hclosed => hbacked.owner side (((hcallback.word side).2 .owner).mp hclosed).1,
        fun side hclosed => ?_⟩
      rw [show ({ s.driver with dev := d } : Driver).dev.power = _ from hpower]
      exact hbacked.power side (((hcallback.word side).2 .power).mp hclosed).1
    | @release t choice pc d flow hhardware hcallback =>
      have hpower : d.power = s.driver.dev.power := by cases hcallback <;> rfl
      have hword : ∀ side c, c ≠ .hardware → closedBy (d.leases.word side) c →
          closedBy (s.driver.dev.leases.word side) c := fun side c hc hclosed =>
        (((hcallback.word side).2 c).mp hclosed).resolve_right fun h => hc h.1
      rw [Instance.settleRelease_dev]
      refine ⟨fun side hclosed => hbacked.owner side (hword side .owner (by decide) hclosed), fun side hclosed => ?_⟩
      rw [show ({ s.driver with dev := d } : Driver).dev.power = _ from hpower]
      exact hbacked.power side (hword side .power (by decide) hclosed)
    | driver hallows hcallback =>
      exact hbacked.step (InstanceReach.leasesCounted hreach) (InstanceReach.alternating hreach) hcallback

/-! ### After an entry into D0 -/

theorem stepDriver_up {s s' : Driver} {a : Action} (halternating : Alternating s) (hstep : stepDriver s a = some s')
    (hentering : s.dev.power = .entering) (hup : s'.dev.power = .up) :
    ∃ t, s.thr t = .d0Entry (.readmitCallbacks .capture) ∧ s'.thr t = .idle ∧ (∀ u, u ≠ t → s'.thr u = s.thr u) ∧
      s'.dev.lifecycle = s.dev.lifecycle ∧ s'.dev.queue = s.dev.queue := by
  cases stepDriver_cases hstep with
  | start hidle hstart =>
    cases hstart with
    | d0Entry => cases hup
    | d0Exit => cases hup
    | _ => all_goals cases hentering.symm.trans hup
  | framework hmove => cases hmove <;> cases hentering.symm.trans hup
  | packet => cases hentering.symm.trans hup
  | @advance t choice next hadvance =>
    have hkind : (s.thr t).kind = .d0Entry := by
      by_contra hk
      by_cases hexit : (s.thr t).kind = .d0Exit
      · have hpower := halternating.power t .exiting (by
          cases hthr : s.thr t <;> rw [hthr] at hexit <;> cases hexit
          rfl)
        cases hentering.symm.trans hpower
      · have hsame := (stepThread_frames hadvance).power (by simp [hk, hexit])
        cases hentering.symm.trans (hsame.symm.trans hup)
    refine ⟨t, ?_⟩
    cases hthr : s.thr t <;> rw [hthr] at hkind <;> cases hkind
    rename_i pc
    rw [hthr] at hadvance
    obtain ⟨⟨d, flow⟩, hresult, rfl⟩ := Option.map_eq_some_iff.mp hadvance
    cases evtDeviceD0Entry_cases hresult with
    | readmitCapture =>
      exact ⟨rfl, Driver.setThread_self .., fun u hu => Driver.setThread_of_ne _ _ _ _ hu, rfl, by
        funext side
        cases side <;> rfl⟩
    | _ => all_goals cases hentering.symm.trans hup

theorem stepInstance_up (hstep : stepInstance s a = some s') (hentering : s.driver.dev.power = .entering)
    (hup : s'.driver.dev.power = .up) : s'.hardware = s.hardware ∧ ∃ a, stepDriver s.driver a = some s'.driver := by
  cases stepInstance_cases hstep with
  | prepareHardware | releaseHardware => all_goals cases hentering.symm.trans hup
  | @prepare t choice pc d flow hhardware hcallback =>
    rw [Instance.settlePrepare_dev] at hup
    have hpower : d.power = s.driver.dev.power := by cases hcallback <;> rfl
    cases hentering.symm.trans (hpower.symm.trans hup)
  | @release t choice pc d flow hhardware hcallback =>
    rw [Instance.settleRelease_dev] at hup
    have hpower : d.power = s.driver.dev.power := by cases hcallback <;> rfl
    cases hentering.symm.trans (hpower.symm.trans hup)
  | driver hallows hcallback => exact ⟨rfl, _, hcallback⟩

/-- An instance in D0 that carries traffic, with none of the callbacks of the cycle running. -/
structure Instance.InService (s : Instance) : Prop where
  reached : InstanceReach Machine.Free s
  settled : s.driver.Settled
  prepared : s.hardware = .prepared
  serves : s.driver.dev.Serves

/-- When an entry into D0 returns, the instance is in service. -/
theorem InstanceReach.inService (h : InstanceReach LegalCycle s) (hlegal : LegalCycle s a)
    (hstep : stepInstance s a = some s') (hentering : s.driver.dev.power = .entering)
    (hup : s'.driver.dev.power = .up) : s'.InService := by
  have hreach : InstanceReach LegalCycle s' := .step h hlegal hstep
  have hcycling := InstanceReach.cycling h
  obtain ⟨hhardware, a', hdriver⟩ := stepInstance_up hstep hentering hup
  obtain ⟨t, hthr, hidle, hothers, hlifecycle, hqueue⟩ :=
    stepDriver_up (InstanceReach.alternating h) hdriver hentering hup
  have hkind : (s.driver.thr t).kind = .d0Entry := by rw [hthr]; rfl
  have hprepared : s'.hardware = .prepared := hhardware.trans (hcycling.prepared t hkind)
  have hsettled : s'.driver.Settled := by
    intro u
    by_cases hut : u = t
    · rw [hut, hidle]
      decide
    · rw [hothers u hut]
      exact hcycling.powerAlone t (by simp [hkind]) u hut
  refine ⟨hreach.free, hsettled, hprepared, ?_, fun side => ?_, fun side => ⟨fun hclosed => ?_, ?_⟩⟩
  · exact hlifecycle.trans (hcycling.opened t (by rw [hthr]; rfl))
  · rw [hqueue]
    exact hcycling.queues t side (by rw [hthr]; rfl)
  · obtain ⟨u, hu⟩ | hdown | ⟨u, hu⟩ := (InstanceReach.closersBacked hreach).power side hclosed
    · exact hsettled u (by simp [hu])
    · cases hup.symm.trans hdown
    · refine hsettled u ?_
      cases huthr : s'.driver.thr u <;> rw [huthr] at hu <;> first | cases hu | simp [Thread.kind]
  · exact (InstanceReach.cycling hreach).readmitted side (by rw [hprepared]; rfl)

/-- None of the callbacks of the cycle starts. -/
def Undisturbed (_ : Instance) : InstanceAction → Prop
  | .driver a => a.kind ∉ [.create, .cleanup, .d0Entry, .d0Exit]
  | .hardware _ => True
  | .prepareHardware _ | .releaseHardware _ => False

/-- And it stays in service until one of them starts. -/
theorem Instance.InService.step (h : s.InService) (hok : Undisturbed s a) (hstep : stepInstance s a = some s') :
    s'.InService := by
  have hreach : InstanceReach Machine.Free s' := .step h.reached trivial hstep
  cases stepInstance_cases hstep with
  | prepareHardware | releaseHardware => all_goals exact hok.elim
  | prepare hhardware hcallback | release hhardware hcallback => all_goals cases h.prepared.symm.trans hhardware
  | driver hallows hcallback =>
    cases stepDriver_cases hcallback with
    | @start t a d th hidle hstart =>
      obtain ⟨_, _, _, _, _, _, _, _, hframe⟩ := hstart.frame
      refine ⟨hreach, fun u => ?_, h.prepared, ?_⟩
      · by_cases hut : u = t
        · subst hut
          rw [Driver.setThread_self, hstart.kind]
          exact hok
        · rw [Driver.setThread_of_ne _ _ _ _ hut]
          exact h.settled u
      · have hserves := h.serves
        rw [Driver.setThread_dev, hframe]
        exact ⟨hserves.opened, hserves.queues, hserves.admitted⟩
    | @framework a d hmove =>
      have hserves := h.serves
      refine ⟨hreach, h.settled, h.prepared, ?_⟩
      cases hmove <;> exact ⟨hserves.opened, hserves.queues, hserves.admitted⟩
    | @packet t length passive gen captured hthr hlength =>
      have hserves := h.serves
      refine ⟨hreach, fun u => ?_, h.prepared, ⟨hserves.opened, hserves.queues, hserves.admitted⟩⟩
      by_cases hut : u = t
      · subst hut
        rw [Driver.setThread_self]
        simp [Thread.kind]
      · rw [Driver.setThread_of_ne _ _ _ _ hut]
        exact h.settled u
    | @advance t choice next hadvance =>
      have hkind : (s.driver.thr t).kind ∉ [.cleanup, .d0Entry, .d0Exit] :=
        fun hk => h.settled t (List.mem_cons_of_mem _ hk)
      have hword := fun side =>
        stepThread_word hadvance side ((InstanceReach.leasesCounted h.reached side).le t)
      have hclosers : ∀ side c, closedBy (next.1.leases.word side) c → closedBy (s.driver.dev.leases.word side) c := by
        intro side c hclosed
        refine (((hword side).closers c).mp hclosed).1.resolve_right fun hshuts => ?_
        cases hthr : s.driver.thr t <;> rw [hthr] at hkind hshuts <;>
          first | exact hshuts.elim | simp [Thread.kind] at hkind
      refine ⟨hreach, fun u => ?_, h.prepared, ?_, fun side => ?_, fun side => ⟨fun hclosed => ?_, fun hclosed => ?_⟩⟩
      · by_cases hut : u = t
        · subst hut
          rw [Driver.setThread_self]
          obtain hend | hsame := stepThread_kind hadvance
          · rw [hend]
            decide
          · rw [hsame]
            exact h.settled u
        · rw [Driver.setThread_of_ne _ _ _ _ hut]
          exact h.settled u
      · exact ((stepThread_frames hadvance).lifecycle hkind).trans h.serves.opened
      · exact (stepThread_queueState hkind hadvance side).trans (h.serves.queues side)
      · exact (h.serves.admitted side).1 (hclosers side .power hclosed)
      · exact (h.serves.admitted side).2 (hclosers side .hardware hclosed)

/-- As long as the hardware is not prepared again after a release, every preparation passes its check of the adapter
and comes to `NetAdapterStart`, waiting for the state lock only. After a release none does. Every entry into D0 leaves
the instance in service, until the next open, close, power or hardware callback. -/
theorem adapter_starts_once (s : Instance) :
    (InstanceReach PreparesOnce s → .prepareReturned .noAdapter ∉ s.hardwareLog ∧
      ∀ t pc, s.hardware = .preparing t pc → (pc = .closeLifecycle → s.driver.dev.stateLock = none) →
        s.StartsAdapter t) ∧
    (InstanceReach Machine.Free s → .released ∈ s.hardwareLog → ∀ t, s.hardware ≠ .preparing t .startAdapter) ∧
    (InstanceReach LegalCycle s → s.driver.dev.power = .entering →
      ∀ a s', LegalCycle s a → instanceSystem.step s a = some s' → s'.driver.dev.power = .up →
        ∀ s'', Machine.Path instanceSystem Undisturbed s' s'' → s''.driver.dev.Serves) := by
  refine ⟨fun hreach => ?_, fun hreach hreleased t hhardware => ?_, ?_⟩
  · have hkept := InstanceReach.adapterKept hreach
    exact ⟨hkept.returned, fun t pc hhardware hlock =>
      hkept.startsAdapter (InstanceReach.adapterKnown hreach) hhardware hlock⟩
  · have hknown := InstanceReach.adapterKnown hreach
    have hadapter := hknown.found true (by rw [hhardware]; rfl)
    rw [hknown.adapter, Instance.gaveUp, decide_eq_true hreleased] at hadapter
    cases hadapter
  · intro hreach hentering a s' hlegal hstep hup s'' hpath
    have hserves := InstanceReach.inService hreach hlegal hstep hentering hup
    exact (hpath.invariant hserves fun _ _ _ _ h hok hstep => h.step hok hstep).serves

/-! ### Cycles on one thread -/

/-- The next callback starts on the first thread when the last one has returned. -/
def OneByOne (s : Instance) : InstanceAction → Prop
  | .hardware _ => True
  | .driver a => (∀ t, t ∈ a.thread → t = 0) ∧
      (a.kind = .idle ∨ a.kind ∈ [.d0Entry, .d0Exit] ∧ s.hardware.thread = none ∧ s.driver.thr 0 = .idle)
  | .prepareHardware _ | .releaseHardware _ => s.driver.thr 0 = .idle

instance (s : Instance) : (a : InstanceAction) → Decidable (OneByOne s a)
  | .hardware _ => inferInstanceAs (Decidable True)
  | .driver a => inferInstanceAs (Decidable (_ ∧ (a.kind = .idle ∨ _)))
  | .prepareHardware _ | .releaseHardware _ => inferInstanceAs (Decidable (s.driver.thr 0 = .idle))

theorem InstanceReach.idle (h : InstanceReach OneByOne s) (ht : t ≠ 0) : s.driver.thr t = .idle := by
  induction h with
  | init hs =>
    obtain ⟨mtu, -, -, rfl⟩ := hs
    rfl
  | step _ hok hstep ih =>
    cases stepInstance_cases hstep with
    | prepareHardware | releaseHardware => exact ih
    | prepare =>
      rw [Instance.settlePrepare_dev]
      exact ih
    | release =>
      rw [Instance.settleRelease_dev]
      exact ih
    | driver _ hcallback => exact (stepDriver_other hcallback fun hmem => ht (hok.1 t hmem)).trans ih

/-- Such a run is a run of legal cycles. -/
theorem InstanceReach.legalCycle (h : InstanceReach OneByOne s) : InstanceReach LegalCycle s := by
  refine h.exchange fun s a hs hok => ?_
  have hsettled : s.driver.thr 0 = .idle → s.driver.Settled := by
    intro hidle t
    by_cases ht : t = 0
    · rw [ht, hidle]
      decide
    · rw [InstanceReach.idle hs ht]
      decide
  cases a with
  | prepareHardware | releaseHardware => all_goals exact hsettled hok
  | hardware => trivial
  | driver a =>
    obtain ⟨-, hkind⟩ := hok
    cases a with
    | d0Entry | d0Exit =>
      obtain hkind | ⟨-, hthread, hidle⟩ := hkind
      · cases hkind
      · exact ⟨hthread, hsettled hidle⟩
    | create | cleanup => simp [Action.kind] at hkind
    | _ => trivial

/-- The first entry into D0 up to its last step. -/
def entering : List InstanceAction := broughtUp.take 15

theorem adapter_starts_once_brought_up :
    let s := instanceSystem.after (.added defaultMtu) (broughtUp.take 2)
    let s' := instanceSystem.after (.added defaultMtu) broughtUp
    s.hardware = .preparing 0 (.checkAdapter true) ∧ s.StartsAdapter 0 ∧ s'.driver.dev.power = .up ∧
      s'.driver.dev.Serves := by
  intro s s'
  have hhardware : s.hardware = .preparing 0 (.checkAdapter true) := by decide +kernel
  have hprepares : InstanceReach PreparesOnce s := by
    have hlog : InstanceReach (fun s _ => s.hardwareLog = []) s :=
      Machine.System.reach_after_keeping (by decide +kernel) (instanceReach_added _)
    exact hlog.mono fun s a hempty t _ => by simp [hempty]
  have hreach : InstanceReach OneByOne (instanceSystem.after (.added defaultMtu) entering) :=
    Machine.System.reach_after_keeping (by decide +kernel) (instanceReach_added _)
  have hstep : instanceSystem.step (instanceSystem.after (.added defaultMtu) entering) (.driver (.advance 0 none))
      = some s' := by rfl
  refine ⟨hhardware, ((adapter_starts_once s).1 hprepares).2 0 _ hhardware (fun h => by cases h), by decide +kernel, ?_⟩
  exact (adapter_starts_once _).2.2 (InstanceReach.legalCycle hreach) (by decide +kernel) (.driver (.advance 0 none)) s'
    trivial hstep (by decide +kernel) s' .refl

/-- The device is started, leaves D0, has its hardware released, and is started again. -/
def startedAgain : List InstanceAction :=
  broughtUp ++ (.d0Exit 0 :: steps 0 20).map .driver ++ .releaseHardware 0 :: List.replicate 25 (.hardware none) ++
    .prepareHardware 0 :: List.replicate 2 (.hardware none)

/-- The release drops the adapter that was created when the device was added, so the second preparation fails before
it comes to `NetAdapterStart`. -/
theorem second_prepare_has_no_adapter :
    ∃ s, InstanceReach LegalCycle s ∧ s.hardware = .failed ∧
      s.hardwareLog = [.prepareReturned .noAdapter, .released, .prepareReturned (.started statusSuccess)] :=
  ⟨instanceSystem.after (.added defaultMtu) startedAgain,
    InstanceReach.legalCycle (Machine.System.reach_after_keeping (by decide +kernel) (instanceReach_added _)),
    by decide +kernel, by decide +kernel⟩

end WinTap

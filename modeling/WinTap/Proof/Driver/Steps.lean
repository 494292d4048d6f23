import WinTap.Driver.System

/-!
# The kinds of steps

Every invariant of the driver is proved over the same steps. A step is a callback that starts, a move of
the framework, a packet taken from the TX ring, or a step of a running callback; `stepDriver_cases` says
so once, with what the first three do. A step of a running callback is a step of its routine, put back
into the thread.
-/

namespace WinTap

variable {s s' : Driver} {t : ThreadId} {length : Nat} {a : Action} {ts : List ThreadId}

/-! ### Control flow -/

@[simp] theorem call_fst {κ π ρ π' ρ' : Type} (step : κ × Flow π ρ) (inside : π → π')
    (after : ρ → Flow π' ρ') : (call step inside after).1 = step.1 := rfl

/-- Control in the caller: inside the callee, or after its return. -/
theorem call_snd {κ π ρ π' ρ' : Type} (step : κ × Flow π ρ) (inside : π → π')
    (after : ρ → Flow π' ρ') :
    (∃ pc, step.2 = .run pc ∧ (call step inside after).2 = .run (inside pc)) ∨
      ∃ value, step.2 = .ret value ∧ (call step inside after).2 = after value := by
  obtain ⟨c, flow⟩ := step
  cases flow with
  | run pc => exact .inl ⟨pc, rfl, rfl⟩
  | ret value => exact .inr ⟨value, rfl, rfl⟩

section
variable {κ π ρ π' ρ' α : Type} {step : κ × Flow π ρ} {inside : π → π'} {after : ρ → Flow π' ρ'} {f : π → α}
  {g : π' → α} {x y : α}

/-- What holds all through a called routine and after it. -/
theorem call_all (P : α → Prop) (hinside : ∀ pc, P (g (inside pc))) (hafter : ∀ value, P ((after value).on g x)) :
    P ((call step inside after).2.on g x) := by
  obtain ⟨c, flow⟩ := step
  cases flow with
  | run pc => exact hinside pc
  | ret value => exact hafter value

theorem call_on (hinside : ∀ pc, g (inside pc) = y) (hafter : ∀ value, (after value).on g x = y) :
    (call step inside after).2.on g x = y := call_all (· = y) hinside hafter

/-- What holds of a called routine holds of the caller that sees the same in it. -/
theorem call_of (P : κ → α → Prop) (h : P step.1 (step.2.on f y)) (hinside : ∀ pc, g (inside pc) = f pc)
    (hafter : ∀ value, (after value).on g x = y) : P (call step inside after).1
      ((call step inside after).2.on g x) := by
  obtain ⟨c, flow⟩ := step
  cases flow with
  | run pc => exact (congrArg (P c) (hinside pc)).mpr h
  | ret value => exact (congrArg (P c) (hafter value)).mpr h

end

theorem Thread.settle_eq {π : Type} (th : Thread) (inside : π → Thread)
    (result : Device × Flow π Unit) :
    th.settle inside result
      = (result.2.on (fun _ => result.1) (th.finish result.1), result.2.on inside .idle) := by
  obtain ⟨d, flow⟩ := result
  cases flow <;> rfl

/-! ### One thread changes -/

namespace Driver

variable (s : Driver) (t : ThreadId) (d : Device) (th : Thread)

@[simp] theorem setThread_dev : (s.setThread t d th).dev = d := rfl

@[simp] theorem setThread_self : (s.setThread t d th).thr t = th := Function.update_self ..

theorem setThread_of_ne {i : ThreadId} (hi : i ≠ t) : (s.setThread t d th).thr i = s.thr i :=
  Function.update_of_ne hi ..

theorem setThread_map {α : Type} (f : Thread → α) :
    (fun i => f ((s.setThread t d th).thr i)) = Function.update (fun i => f (s.thr i)) t (f th) := by
  funext i
  exact Function.apply_update (fun _ => f) s.thr t th i

theorem setThread_keep {α : Type} {f : Thread → α} (hf : f th = f (s.thr t)) (i : ThreadId) :
    f ((s.setThread t d th).thr i) = f (s.thr i) := by
  rw [congrFun (s.setThread_map t d th f) i, hf, Function.update_eq_self]

theorem setDev_eq : { s with dev := d } = s.setThread t d (s.thr t) := by
  rw [setThread, Function.update_eq_self]

end Driver

/-! ### Steps of the system -/

theorem startThread_eq {allowed : Prop} [Decidable allowed] {d : Device} {th : Thread}
    (h : startThread s t allowed d th = some s') : s.thr t = .idle ∧ allowed ∧ s' = s.setThread t d th := by
  unfold startThread at h
  split at h
  · rename_i hstart
    exact ⟨hstart.1, hstart.2, (Option.some.inj h).symm⟩
  · cases h

theorem stepDriver_advance {choice : Choice} (h : stepDriver s (.advance t choice) = some s') :
    ∃ d th, stepThread s.dev t choice (s.thr t) = some (d, th) ∧ s' = s.setThread t d th := by
  obtain ⟨⟨d, th⟩, hstep, hs'⟩ := Option.map_eq_some_iff.mp h
  exact ⟨d, th, hstep, hs'.symm⟩

/-- A packet is taken at the head of the TX loop and gets the next serial number. -/
theorem packetThread_eq {d d' : Device} {th th' : Thread} (h : packetThread d length th = some (d', th')) :
    ∃ passive gen captured, th = .transmit passive (.ring gen captured) ∧ length ≤ d.frameMaximum ∧
      d' = { d with nextSerial := d.nextSerial + 1 } ∧
      th' = .transmit passive (.packet gen captured ⟨d.nextSerial, length⟩ .adaptive) := by
  unfold packetThread at h
  split at h
  · rename_i passive pc
    obtain ⟨⟨d₁, pc'⟩, htake, heq⟩ := Option.map_eq_some_iff.mp h
    unfold takePacket at htake
    split at htake
    · rename_i gen captured
      split at htake
      · rename_i hlength
        cases htake
        cases heq
        exact ⟨passive, gen, captured, rfl, hlength.2, rfl, rfl⟩
      · cases htake
    · cases htake
  · cases h

theorem stepDriver_packet (h : stepDriver s (.packet t length) = some s') :
    ∃ d th, packetThread s.dev length (s.thr t) = some (d, th) ∧ s' = s.setThread t d th := by
  obtain ⟨⟨d, th⟩, hstep, hs'⟩ := Option.map_eq_some_iff.mp h
  exact ⟨d, th, hstep, hs'.symm⟩

/-- A callback that the framework starts, with the instance and the thread it starts with. -/
inductive Start (d : Device) (t : ThreadId) : Action → Device → Thread → Prop
  | create {h : Handle} (hphase : d.handles h = .absent) :
    Start d t (.create t h) { d with handles := Function.update d.handles h .opening }
      (.create h .claim)
  | cleanup {h : Handle} (hphase : d.handles h = .opened) :
    Start d t (.cleanup t h) { d with handles := Function.update d.handles h .cleaning }
      (.cleanup h .retire)
  | read {h : Handle} {outputLength : Nat} (hphase : d.handles h = .opened) :
    Start d t (.read t h outputLength) { d with nextRead := d.nextRead + 1 }
      (.read ⟨d.nextRead, h, outputLength⟩ .lease)
  | write {h : Handle} {input : WriteInput} (hphase : d.handles h = .opened) :
    Start d t (.write t h input) d (.write h input .lock)
  | register {h : Handle} {r : Request} {input : WaitInput} (hphase : d.handles h = .opened)
      (hlock : d.controlLock = none) (hfresh : d.core.cancel r = .absent) :
    Start d t (.register t h r input)
      { d with core := dispatchRequest d.core r input.interest, controlLock := some t }
      (.register h r input .validate)
  | enable {h : Handle} {input : EnableInput} (hphase : d.handles h = .opened)
      (hlock : d.controlLock = none) :
    Start d t (.enable t h input) { d with controlLock := some t } (.enable h input .validate)
  | transmit {passive : Bool} (hcallback : d.txCallback = none) :
    Start d t (.transmit t passive) { d with txCallback := some t } (.transmit passive .lease)
  | receive (hcallback : d.rxCallback = none) :
    Start d t (.receive t) { d with rxCallback := some t } (.receive .lease)
  | work (hqueued : d.core.workQueued = true) :
    Start d t (.work t)
      { d with core.workQueued := false, workersRunning := d.workersRunning + 1 }
      (.worker (.wait (.take .load)))
  | cancel {r : Request} (howed : d.core.cancel r = .owed) :
    Start d t (.cancel t r) { d with core := setCancel d.core r .called } (.cancel r .active)
  | stopRead {r : Read} (hdelivered : r ∈ d.readQueue.delivered) :
    Start d t (.stopRead t r) d (.stopRead r .release)
  | stopControl {r : Request} (hlock : d.controlLock = none) :
    Start d t (.stopControl t r) { d with controlLock := some t } (.stopControl r .active)
  | d0Entry (hpower : d.power = .down) :
    Start d t (.d0Entry t) { d with power := .entering } (.d0Entry .adaptive)
  | d0Exit (hpower : d.power = .up) :
    Start d t (.d0Exit t) { d with power := .exiting } (.d0Exit .suspend)
  | stopTransmit (hcallback : d.txCallback = none) :
    Start d t (.queueStop t true) { d with txCallback := some t } (.queueStop true .stop)
  | stopReceive (hcallback : d.rxCallback = none) :
    Start d t (.queueStop t false) { d with rxCallback := some t } (.queueStop false .stop)
  | notification {enabled : Bool} (hcallback : d.rxCallback = none) :
    Start d t (.setNotificationEnabled t enabled) { d with rxCallback := some t }
      (.notification (.arm enabled))

/-- A move of the framework that starts no callback of ours. -/
inductive FrameworkMove (d : Device) : Action → Device → Prop
  | cancelRequest {r : Request} (hmarked : d.core.cancel r = .marked) :
    FrameworkMove d (.cancelRequest r) { d with core := setCancel d.core r .owed }
  | cancelRead {r : Read} (hwaiting : r ∈ d.readQueue.waiting) :
    FrameworkMove d (.cancelRead r) { d with readQueue.waiting := d.readQueue.waiting.erase r }
  | startTransmit (hcallback : d.txCallback = none) :
    FrameworkMove d (.queueStart true) { d with txQueueStarted := true }
  | startReceive (hcallback : d.rxCallback = none) :
    FrameworkMove d (.queueStart false) { d with rxQueueStarted := true }
  | queueCancel (hcallback : d.rxCallback = none) :
    FrameworkMove d .queueCancel { d with rxNotificationArmed := false }

/-- The four kinds of steps. -/
inductive StepCases (s : Driver) : Action → Driver → Prop
  | start {t : ThreadId} {a : Action} {d : Device} {th : Thread} (hidle : s.thr t = .idle)
      (hstart : Start s.dev t a d th) : StepCases s a (s.setThread t d th)
  | framework {a : Action} {d : Device} (hmove : FrameworkMove s.dev a d) :
    StepCases s a { s with dev := d }
  | packet {t : ThreadId} {length : Nat} {passive : Bool} {gen : Word} {captured : Bool}
      (hthr : s.thr t = .transmit passive (.ring gen captured)) (hlength : length ≤ s.dev.frameMaximum) :
    StepCases s (.packet t length)
      (s.setThread t { s.dev with nextSerial := s.dev.nextSerial + 1 }
        (.transmit passive (.packet gen captured ⟨s.dev.nextSerial, length⟩ .adaptive)))
  | advance {t : ThreadId} {choice : Choice} {next : Device × Thread}
      (hstep : stepThread s.dev t choice (s.thr t) = some next) :
    StepCases s (.advance t choice) (s.setThread t next.1 next.2)

theorem stepDriver_cases (h : stepDriver s a = some s') : StepCases s a s' := by
  cases a with
  | advance t choice =>
    obtain ⟨d, th, hstep, rfl⟩ := stepDriver_advance h
    exact .advance hstep
  | packet t length =>
    obtain ⟨d, th, hstep, rfl⟩ := stepDriver_packet h
    obtain ⟨passive, gen, captured, hthr, hlength, rfl, rfl⟩ := packetThread_eq hstep
    exact .packet hthr hlength
  | cancelRequest r =>
    simp only [stepDriver] at h
    split at h <;> cases h
    exact .framework (.cancelRequest ‹_›)
  | cancelRead r =>
    simp only [stepDriver] at h
    split at h <;> cases h
    exact .framework (.cancelRead ‹_›)
  | queueStart isTransmit =>
    cases isTransmit
    · simp only [stepDriver, Bool.false_eq_true, if_false] at h
      split at h <;> cases h
      exact .framework (.startReceive ‹_›)
    · simp only [stepDriver, if_true] at h
      split at h <;> cases h
      exact .framework (.startTransmit ‹_›)
  | queueCancel =>
    simp only [stepDriver] at h
    split at h <;> cases h
    exact .framework (.queueCancel ‹_›)
  | queueStop t isTransmit =>
    cases isTransmit
    · obtain ⟨hidle, hallowed, rfl⟩ := startThread_eq h
      exact .start hidle (.stopReceive hallowed)
    · obtain ⟨hidle, hallowed, rfl⟩ := startThread_eq h
      exact .start hidle (.stopTransmit hallowed)
  | create t h' =>
    obtain ⟨hidle, hallowed, rfl⟩ := startThread_eq h
    exact .start hidle (.create hallowed)
  | cleanup t h' =>
    obtain ⟨hidle, hallowed, rfl⟩ := startThread_eq h
    exact .start hidle (.cleanup hallowed)
  | read t h' outputLength =>
    obtain ⟨hidle, hallowed, rfl⟩ := startThread_eq h
    exact .start hidle (.read hallowed)
  | write t h' input =>
    obtain ⟨hidle, hallowed, rfl⟩ := startThread_eq h
    exact .start hidle (.write hallowed)
  | register t h' r input =>
    obtain ⟨hidle, ⟨hphase, hlock, hfresh⟩, rfl⟩ := startThread_eq h
    exact .start hidle (.register hphase hlock hfresh)
  | enable t h' input =>
    obtain ⟨hidle, ⟨hphase, hlock⟩, rfl⟩ := startThread_eq h
    exact .start hidle (.enable hphase hlock)
  | transmit t passive =>
    obtain ⟨hidle, hallowed, rfl⟩ := startThread_eq h
    exact .start hidle (.transmit hallowed)
  | receive t =>
    obtain ⟨hidle, hallowed, rfl⟩ := startThread_eq h
    exact .start hidle (.receive hallowed)
  | work t =>
    obtain ⟨hidle, hallowed, rfl⟩ := startThread_eq h
    exact .start hidle (.work hallowed)
  | cancel t r =>
    obtain ⟨hidle, hallowed, rfl⟩ := startThread_eq h
    exact .start hidle (.cancel hallowed)
  | stopRead t r =>
    obtain ⟨hidle, hallowed, rfl⟩ := startThread_eq h
    exact .start hidle (.stopRead hallowed)
  | stopControl t r =>
    obtain ⟨hidle, hallowed, rfl⟩ := startThread_eq h
    exact .start hidle (.stopControl hallowed)
  | d0Entry t =>
    obtain ⟨hidle, hallowed, rfl⟩ := startThread_eq h
    exact .start hidle (.d0Entry hallowed)
  | d0Exit t =>
    obtain ⟨hidle, hallowed, rfl⟩ := startThread_eq h
    exact .start hidle (.d0Exit hallowed)
  | setNotificationEnabled t enabled =>
    obtain ⟨hidle, hallowed, rfl⟩ := startThread_eq h
    exact .start hidle (.notification hallowed)

/-! ### Concrete runs -/

/-- A started instance with the default MTU. -/
def Driver.initial : Driver where
  dev := .initial defaultMtu
  thr := fun _ => .idle

theorem driverReach_initial (ok : Driver → Action → Prop) : DriverReach ok .initial :=
  .init ⟨⟨defaultMtu, by decide, by decide, rfl⟩, fun _ => rfl⟩

/-- A step leaves every thread alone that it is not about. -/
theorem stepDriver_other (hstep : stepDriver s a = some s') (ht : t ∉ a.thread) : s'.thr t = s.thr t := by
  have hother : ∀ {i d th}, i ∈ a.thread → (s.setThread i d th).thr t = s.thr t := by
    intro i d th hi
    have hne : t ≠ i := fun heq => ht (heq ▸ hi)
    rw [Driver.setThread_of_ne _ _ _ _ hne]
  cases stepDriver_cases hstep with
  | start _ hstart => cases hstart <;> exact hother rfl
  | framework _ => rfl
  | packet _ _ => exact hother rfl
  | advance _ => exact hother rfl

theorem DriverReach.idle (h : DriverReach (fun _ a => ∀ t, t ∈ a.thread → t ∈ ts) s) (ht : t ∉ ts) :
    s.thr t = .idle := by
  induction h with
  | init hs => exact hs.2 t
  | step _ hok hs ih => exact (stepDriver_other hs fun hmem => ht (hok t hmem)).trans ih

/-- What holds of the threads a schedule is about, and of an idle one, holds of every thread. -/
theorem after_threads {acts : List Action} {P : Thread → Prop} (hacts : ∀ a ∈ acts, ∀ t, t ∈ a.thread → t ∈ ts)
    (hidle : P .idle) (hts : ∀ t ∈ ts, P ((driverSystem.after .initial acts).thr t)) (t : ThreadId) :
    P ((driverSystem.after .initial acts).thr t) := by
  by_cases ht : t ∈ ts
  · exact hts t ht
  · have hreach : DriverReach (fun _ a => ∀ t, t ∈ a.thread → t ∈ ts)
        (driverSystem.after .initial acts) :=
      Machine.System.reach_after_of (fun _ => hacts) (driverReach_initial _)
    rwa [DriverReach.idle hreach ht]

/-- A thread takes `n` steps in which every framework call succeeds. -/
def steps (t : ThreadId) (n : Nat) : List Action := List.replicate n (.advance t none)

end WinTap

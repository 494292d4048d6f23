import WinTap.Proof.Driver.Lifecycle
import WinTap.Proof.Driver.Mode
import WinTap.Proof.Driver.Waits
import WinTap.Proof.Wait.Completion
import WinTap.Proof.Wait.Stopping

/-!
# Stopping prevents waits

Stopping a packet queue, leaving D0 and closing the owner all do the same: shut a gate, then cancel the wait that is
there. A registration looks at the gates again once its request is in the slot, so it is either found by the
cancellation or finds the gate shut. From the return of `cancel_wait_for_teardown` on, no wait that asks for something
behind the gate is pending or scheduled until the gate opens.

The framework does not start a queue while it is stopping it, and nothing opens a suspended instance before D0 entry,
so these two gates stay shut until the cancellation returns. A cleanup has no such guarantee: its gate is shut from
its store to the lifecycle until a D0 entry, and the statement about it starts at that store.
-/

namespace WinTap

open Machine

variable {d : Device} {t : ThreadId} {choice : Choice} {th : Thread} {next : Device × Thread} {g : Gate} {s s' : Driver}
  {ok : Driver → Action → Prop} {a : Action}

/-! ### The way to the end of the search -/

/-- The callback will cancel the wait that it finds. -/
def Thread.approaching : Thread → Bool
  | .queueStop _ .stop | .queueStop _ .disarm => true
  | .d0Exit pc => match pc with
    | .suspend | .quiesce _ | .lockDirect | .lockWrite | .adaptive => true
    | _ => false
  | .cleanup _ pc => match pc with
    | .retire | .claimLifecycle | .quiesce .. | .lockDirect _ | .lockWrite _ | .adaptive _ => true
    | _ => false
  | _ => false

/-- The callback has not looked for a wait to cancel, or is still looking. -/
def Thread.searching (th : Thread) : Bool :=
  th.approaching || match th.protocol with
    | .teardown none pc => pc.searching
    | _ => false

theorem stepThread_approaching (hstep : stepThread d t choice th = some next) (hth : th.approaching = true) :
    next.2.approaching = true ∨ next.2.protocol = .teardown none .load := by
  cases th with
  | queueStop isTransmit pc =>
    obtain ⟨⟨d', flow⟩, hresult, rfl⟩ := Option.map_eq_some_iff.mp hstep
    cases evtPacketQueueStop_cases hresult <;> first | exact .inl rfl | exact .inr rfl | cases hth
  | d0Exit pc =>
    obtain ⟨⟨d', flow⟩, hresult, rfl⟩ := Option.map_eq_some_iff.mp hstep
    cases evtDeviceD0Exit_cases hresult <;> first | exact .inl rfl | exact .inr rfl | cases hth
  | cleanup h pc =>
    obtain ⟨⟨d', flow⟩, hresult, rfl⟩ := Option.map_eq_some_iff.mp hstep
    cases evtFileCleanup_cases hresult <;> first | exact .inl rfl | exact .inr rfl | cases hth
  | _ => cases hth

theorem Cold.driver (h : Cold g s.protocol) (hreach : DriverReach ok s) (hshut : g.shut s.dev.env = true)
    (hstep : stepDriver s a = some s') : Cold g s'.protocol := by
  have hpath := stepDriver_protocol (DriverReach.serialized hreach) hstep
  refine hpath.invariant (P := Cold g) h fun w₁ b w₂ hw hcold henv hwait => ?_
  have hreached : WaitReach w₁ := hw.reach (fun _ _ _ => trivial) (DriverReach.protocol hreach)
  rw [← henv] at hshut
  exact hcold.step hreached.inv hreached.asks hshut hwait

theorem searching_or_cold (g : Gate) (hreach : DriverReach ok s) (hstep : stepDriver s a = some s')
    (hsearching : (s.thr t).searching = true) : (s'.thr t).searching = true ∨ Cold g s'.protocol := by
  have hother : ∀ {u d th}, t ≠ u → ((s.setThread u d th).thr t).searching = true := by
    intro u d th htu
    rwa [Driver.setThread_of_ne _ _ _ _ htu]
  cases stepDriver_cases hstep with
  | @start u a d th hidle hstart =>
    refine .inl (hother fun htu => ?_)
    rw [htu, hidle] at hsearching
    cases hsearching
  | framework hmove => exact .inl hsearching
  | @packet u length passive gen captured hthr hlength =>
    refine .inl (hother fun htu => ?_)
    rw [htu, hthr] at hsearching
    cases hsearching
  | @advance u choice next hadvance =>
    by_cases htu : t = u
    swap
    · exact .inl (hother htu)
    subst htu
    rw [Driver.setThread_self]
    rw [Thread.searching, Bool.or_eq_true] at hsearching
    obtain happroaching | hteardown := hsearching
    · obtain hnext | hnext := stepThread_approaching hadvance happroaching
      · exact .inl (by rw [Thread.searching, hnext, Bool.true_or])
      · exact .inl (by rw [Thread.searching, hnext]; exact Bool.or_true _)
    · split at hteardown
      swap
      · cases hteardown
      rename_i pc hthr
      have hreached := (DriverReach.protocol hreach).inv
      have hkeeps : ∀ pc' : TeardownPc, pc'.searching = true → next.2.protocol = .teardown none pc' →
          next.2.searching = true := by
        intro pc' hpc' hnext
        rw [Thread.searching, hnext]
        exact (Bool.or_eq_true _ _).mpr (.inr hpc')
      cases stepThread_protocol hadvance with
      | rest hcore hthread => exact .inl (hkeeps pc hteardown (hthread.trans hthr))
      | queue hcore hthread => exact .inl (hkeeps pc hteardown (hthread.trans hthr))
      | teardown expected hidle => rw [hthr] at hidle; cases hidle
      | claim condition expected hidle => rw [hthr] at hidle; cases hidle
      | again hidle => rw [hthr] at hidle; cases hidle
      | rests hrest hthread =>
        rw [hthr] at hrest
        simp only [advanceThread, resume, Option.some.injEq, Prod.mk.injEq] at hrest
        obtain ⟨-, hrest⟩ := hrest
        split at hrest <;> cases hrest
      | advance hadv =>
        have hcore : (s.setThread t next.1 next.2).protocol.core = next.1.core := rfl
        obtain ⟨pc', hpc', hnext⟩ | hcold := teardown_cold g hreached hteardown hthr hadv hcore
          (s.setThread_map t next.1 next.2 Thread.protocol)
        · exact .inl (hkeeps pc' hpc' hnext)
        · exact .inr hcold

/-! ### Gates that stay shut -/

/-- The callback shut the gate and keeps it shut until it returns. -/
def Thread.holdsShut : Thread → Gate → Bool
  | .queueStop true pc, .transmit | .queueStop false pc, .receive => pc ≠ .stop
  | .d0Exit pc, .lifecycle => pc ≠ .suspend
  | _, _ => false

theorem Thread.kind_of_holdsShut (h : th.holdsShut g = true) :
    th.kind = .queueStop ∧ g ≠ .lifecycle ∨ th.kind = .d0Exit ∧ g = .lifecycle := by
  unfold Thread.holdsShut at h
  split at h
  · exact .inl ⟨rfl, nofun⟩
  · exact .inl ⟨rfl, nofun⟩
  · exact .inr ⟨rfl, rfl⟩
  · cases h

theorem Thread.holdsShut_suspended (h : th.holdsShut .lifecycle = true) : th.suspended = true := by
  cases th with
  | d0Exit pc => exact h
  | queueStop isTransmit pc => cases isTransmit <;> cases h
  | _ => cases h

/-- A step holds the gate as before and leaves it as it is, or shuts it. -/
theorem stepThread_shuts (hstep : stepThread d t choice th = some next) (hg : g ≠ .lifecycle) :
    (next.2.holdsShut g = true → th.holdsShut g = true) ∧ g.shut next.1.env = g.shut d.env ∨
      g.shut next.1.env = true := by
  by_cases hkind : th.kind = .queueStop
  · cases th <;> cases hkind
    rename_i isTransmit pc
    obtain ⟨⟨d', flow⟩, hresult, rfl⟩ := Option.map_eq_some_iff.mp hstep
    cases pc with
    | stop =>
      cases isTransmit <;> cases hresult <;> cases g
      case false.refl.receive | true.refl.transmit => exact .inr rfl
      case false.refl.lifecycle | true.refl.lifecycle => exact absurd rfl hg
      all_goals exact .inl ⟨id, rfl⟩
    | disarm =>
      cases hresult
      cases isTransmit <;> cases g <;> exact .inl ⟨fun h => h, rfl⟩
    | teardown pc =>
      obtain ⟨rfl, rfl⟩ := Prod.mk.inj (Option.some.inj hresult)
      cases (cancelWaitForTeardown d choice pc).2 <;> cases isTransmit <;> cases g <;> exact .inl ⟨fun h => h, rfl⟩
    | flush =>
      obtain ⟨d₁, hflush, heq⟩ := Option.map_eq_some_iff.mp hresult
      cases heq
      obtain ⟨-, rfl⟩ := flushWorkItem_eq hflush
      cases isTransmit <;> cases g <;> exact .inl ⟨nofun, rfl⟩
  · have hframes := stepThread_frames hstep
    refine .inl ⟨fun hnext => ?_, ?_⟩
    · obtain ⟨hqueue, -⟩ | ⟨-, hlifecycle⟩ := Thread.kind_of_holdsShut hnext
      · obtain hend | hsame := stepThread_kind hstep
        · rw [hend] at hqueue
          cases hqueue
        · exact absurd (hsame.symm.trans hqueue) hkind
      · exact absurd hlifecycle hg
    · have htx := hframes.txQueueStarted (by simpa using hkind)
      have hrx := hframes.rxQueueStarted (by simpa using hkind)
      cases g with
      | transmit => exact congrArg (!·) htx
      | receive => exact congrArg (!·) hrx
      | lifecycle => exact absurd rfl hg

theorem stepThread_holdsShut (hstep : stepThread d t choice th = some next) (hnext : next.2.holdsShut g = true) :
    th.holdsShut g = true ∨ next.2.searching = true := by
  obtain hend | hkind := stepThread_kind hstep
  · rw [hend] at hnext
    cases hnext
  by_cases happroaching : th.approaching = true
  · refine .inr ((Bool.or_eq_true _ _).mpr ?_)
    obtain hmore | hload := stepThread_approaching hstep happroaching
    · exact .inl hmore
    · rw [hload]
      exact .inr rfl
  · -- past its first operations the callback has shut its gate
    cases th with
    | queueStop isTransmit pc =>
      obtain ⟨⟨d', flow⟩, -, rfl⟩ := Option.map_eq_some_iff.mp hstep
      cases flow with
      | run pc' =>
        cases pc with
        | stop | disarm => exact absurd rfl happroaching
        | _ => cases isTransmit <;> cases g <;> first | exact .inl rfl | cases hnext
      | ret value => cases hnext
    | d0Exit pc =>
      obtain ⟨⟨d', flow⟩, -, rfl⟩ := Option.map_eq_some_iff.mp hstep
      cases flow with
      | run pc' =>
        cases pc with
        | suspend => exact absurd rfl happroaching
        | _ => cases g <;> first | exact .inl rfl | cases hnext
      | ret value => cases hnext
    | _ =>
      obtain ⟨hqueue, -⟩ | ⟨hexit, -⟩ := Thread.kind_of_holdsShut hnext
      · cases hkind.symm.trans hqueue
      · cases hkind.symm.trans hexit

theorem DriverReach.queueShut (h : DriverReach ok s) (hg : g ≠ .lifecycle) :
    ∀ t, (s.thr t).holdsShut g = true → g.shut s.dev.env = true := by
  refine h.invariant (P := fun s => ∀ t, (s.thr t).holdsShut g = true → g.shut s.dev.env = true)
    (fun s hinit t ht => ?_) fun s a s' hreach hinv _ hstep u hu => ?_
  · rw [hinit.2 t] at ht
    cases ht
  cases stepDriver_cases hstep with
  | @start t a d th hidle hstart =>
    have hnew : th.holdsShut g = false ∧ g.shut d.env = g.shut s.dev.env := by
      cases hstart <;> cases g <;> exact ⟨rfl, rfl⟩
    rw [Driver.setThread_dev, hnew.2]
    rw [s.setThread_keep t d th (f := (Thread.holdsShut · g)) (by rw [hnew.1, hidle]; rfl)] at hu
    exact hinv u hu
  | @framework a d hmove =>
    have hserial := DriverReach.serialized hreach
    have hqueue : ∀ {th : Thread}, th.holdsShut g = true →
        g = .transmit ∧ th.onTransmit = true ∨ g = .receive ∧ th.onReceive = true := by
      intro th hth
      unfold Thread.holdsShut at hth
      split at hth
      · exact .inl ⟨rfl, rfl⟩
      · exact .inr ⟨rfl, rfl⟩
      · exact absurd rfl hg
      · cases hth
    have hold := hinv u hu
    cases hmove with
    | startTransmit hfree =>
      obtain ⟨rfl, hon⟩ | ⟨rfl, -⟩ := hqueue hu
      · cases hfree.symm.trans (hserial.transmit u hon)
      · exact hold
    | startReceive hfree =>
      obtain ⟨rfl, -⟩ | ⟨rfl, hon⟩ := hqueue hu
      · exact hold
      · cases hfree.symm.trans (hserial.receive u hon)
    | _ => cases g <;> exact hold
  | @packet t length passive gen captured hthr hlength =>
    rw [s.setThread_keep t _ _ (f := (Thread.holdsShut · g)) (by rw [hthr]; rfl)] at hu
    have hold := hinv u hu
    cases g <;> exact hold
  | @advance t choice next hadvance =>
    obtain ⟨hkeep, hsame⟩ | hshut := stepThread_shuts hadvance hg
    · rw [Driver.setThread_dev, hsame]
      by_cases hut : u = t
      · subst hut
        rw [Driver.setThread_self] at hu
        exact hinv u (hkeep hu)
      · rw [Driver.setThread_of_ne _ _ _ _ hut] at hu
        exact hinv u hu
    · exact hshut

theorem DriverReach.shut (h : DriverReach ok s) (ht : (s.thr t).holdsShut g = true) : g.shut s.dev.env = true := by
  by_cases hg : g = .lifecycle
  · subst hg
    have hsuspended := (DriverReach.suspension h).passing t (Thread.holdsShut_suspended ht)
    change decide (s.dev.lifecycle ≠ .instanceOpen) = true
    rw [hsuspended]
    rfl
  · exact DriverReach.queueShut h hg t ht

/-- When the search has ended behind a gate that is held shut, the record is cold. -/
theorem DriverReach.cold (h : DriverReach ok s) :
    ∀ t, (s.thr t).holdsShut g = true → (s.thr t).searching = true ∨ Cold g s.protocol := by
  refine h.invariant (P := fun s => ∀ t, (s.thr t).holdsShut g = true → (s.thr t).searching = true ∨ Cold g s.protocol)
    (fun s hinit t ht => ?_) fun s a s' hreach hinv _ hstep u hu => ?_
  · rw [hinit.2 t] at ht
    cases ht
  have hbefore : (s.thr u).holdsShut g = true ∨ (s'.thr u).searching = true := by
    cases stepDriver_cases hstep with
    | @start t a d th hidle hstart =>
      have hnew : th.holdsShut g = false := by cases hstart <;> cases g <;> rfl
      rw [s.setThread_keep t d th (f := (Thread.holdsShut · g)) (by rw [hnew, hidle]; rfl)] at hu
      exact .inl hu
    | @framework a d hmove => exact .inl hu
    | @packet t length passive gen captured hthr hlength =>
      rw [s.setThread_keep t _ _ (f := (Thread.holdsShut · g)) (by rw [hthr]; rfl)] at hu
      exact .inl hu
    | @advance t choice next hadvance =>
      by_cases hut : u = t
      · subst hut
        rw [Driver.setThread_self] at hu ⊢
        exact stepThread_holdsShut hadvance hu
      · rw [Driver.setThread_of_ne _ _ _ _ hut] at hu
        exact .inl hu
  obtain hheld | hsearching := hbefore
  · obtain hsearching | hcold := hinv u hheld
    · exact searching_or_cold g hreach hstep hsearching
    · exact .inr (hcold.driver hreach (DriverReach.shut hreach hheld) hstep)
  · exact .inl hsearching

/-! ### The result -/

/-- A wait that asks for something behind the gate is pending or scheduled. -/
def WaitsBehind (g : Gate) (s : Driver) : Prop :=
  Open s.dev.core.waitState ∧ g.concerns s.dev.core.waitInterest = true

/-- A callback that shut the gate has just returned from `cancel_wait_for_teardown`. The gate of a cleanup is shut
since its store to the lifecycle, when no D0 entry has opened it meanwhile. -/
inductive CancelReturned (t : ThreadId) (s : Driver) : Gate → Prop
  | stopTransmit (hthr : s.thr t = .queueStop true .flush) : CancelReturned t s .transmit
  | stopReceive (hthr : s.thr t = .queueStop false .flush) : CancelReturned t s .receive
  | exit {adaptive : Bool} (hthr : s.thr t = .d0Exit (.flush adaptive)) : CancelReturned t s .lifecycle
  | close {s₀ : Driver} {h : Handle} {adaptive : Bool} (hreach : DriverReach Free s₀)
      (hmoved : s₀.thr t = .cleanup h (.quiesce true .shutReceive))
      (hshut : Path driverSystem (fun s _ => Gate.lifecycle.shut s.dev.env = true) s₀ s)
      (hthr : s.thr t = .cleanup h (.flush true adaptive)) : CancelReturned t s .lifecycle

theorem searching_or_cold_path (hreach : DriverReach Free s) (hstart : (s.thr t).searching = true ∨ Cold g s.protocol)
    (hpath : Path driverSystem (fun s _ => g.shut s.dev.env = true) s s') :
    (s'.thr t).searching = true ∨ Cold g s'.protocol := by
  refine hpath.invariant (P := fun s => (s.thr t).searching = true ∨ Cold g s.protocol) hstart
    fun s₁ a s₂ hs hinv hshut hstep => ?_
  have hreached : DriverReach Free s₁ := hs.reach (fun _ _ _ => trivial) hreach
  obtain hsearching | hcold := hinv
  · exact searching_or_cold g hreached hstep hsearching
  · exact .inr (hcold.driver hreached hshut hstep)

theorem CancelReturned.cold (h : CancelReturned t s g) (hreach : DriverReach Free s) : Cold g s.protocol := by
  cases h with
  | stopTransmit hthr | stopReceive hthr | exit hthr =>
    refine (DriverReach.cold hreach t (by rw [hthr]; rfl)).resolve_left ?_
    rw [hthr]
    exact nofun
  | close hbefore hmoved hshut hthr =>
    refine (searching_or_cold_path hbefore (.inl (by rw [hmoved]; rfl)) hshut).resolve_left ?_
    rw [hthr]
    exact nofun

/-- Once a callback that shut a gate has returned from `cancel_wait_for_teardown`, no wait that asks for something
behind the gate is or becomes pending or scheduled until the gate opens. The interest that the record holds is the
one the open wait was requested with. -/
theorem stopping_prevents_waits {s₁ s₂ : Driver} {t : ThreadId} {g : Gate} (hreach : DriverReach Free s₁)
    (hreturned : CancelReturned t s₁ g)
    (hpath : Path driverSystem (fun s _ => g.shut s.dev.env = true) s₁ s₂) :
    ¬WaitsBehind g s₂ ∧ (Open s₂.dev.core.waitState →
      ∃ r, s₂.dev.core.waitRequest = some r ∧ .dispatch r s₂.dev.core.waitInterest ∈ s₂.dev.core.calls) := by
  have hcold : Cold g s₂.protocol := by
    refine hpath.invariant (P := fun s => Cold g s.protocol) (hreturned.cold hreach) ?_
    intro s a s' hs hinv hshut hstep
    exact hinv.driver (hs.reach (fun _ _ _ => trivial) hreach) hshut hstep
  have hreached : DriverReach Free s₂ := hpath.reach (fun _ _ _ => trivial) hreach
  refine ⟨fun hwaits => ?_, (DriverReach.protocol hreached).asks.opened⟩
  exact Bool.eq_false_iff.mp (hcold.opened hwaits.1) hwaits.2

/-- A handle is opened and adaptive polling enabled while no READ is there. -/
def enabledAlone : List Action :=
  [.create 0 7] ++ steps 0 2 ++ [.enable 1 7 enableBoth] ++ steps 1 9

/-- A wait for a readable capture queue is pending when the TX queue is stopped; teardown cancels it while its
registration has yet to return. -/
def stoppedWait : List Action :=
  enabledAlone ++ [.queueStart true, .queueStart false, .register 1 7 5 readableInput] ++ steps 1 25
    ++ .queueStop 2 true :: steps 2 15

/-- The registration returns, the stop returns, and a second wait is refused. -/
def refusedWait : List Action := steps 1 5 ++ steps 2 1 ++ .register 1 7 6 readableInput :: steps 1 5

theorem stopping_prevents_waits_refused :
    waitRecordState (driverSystem.after .initial (stoppedWait.take 41)).dev.core.waitState = waitPending ∧
      (driverSystem.run (driverSystem.after .initial stoppedWait) refusedWait).isSome = true ∧
      ¬WaitsBehind .transmit (driverSystem.after (driverSystem.after .initial stoppedWait) refusedWait) := by
  refine ⟨by decide +kernel, by decide +kernel, (stopping_prevents_waits (t := 2)
    (Machine.System.reach_after (driverReach_initial _) stoppedWait) (.stopTransmit (by decide +kernel)) ?_).1⟩
  exact Machine.System.path_after_keeping (by decide +kernel) .refl

end WinTap

import WinTap.Proof.Driver.CaptureQueue
import WinTap.Proof.Driver.Injection
import WinTap.Proof.Driver.Locks
import WinTap.Proof.Driver.Lifecycle
import WinTap.Proof.Driver.Quiesced

/-!
# An open instance has open queues

A frame queue is closed by the teardown paths and opened again by a cleanup that resumes the instance or by D0 entry.
Both open the queues before they store OPEN. A cleanup that resumes holds the two locks from before it clears until
after its store, so no other teardown path gets between. D0 entry holds no lock: a cleanup that began before it may
clear the queues behind it, and a cleanup that found the instance closing may clear them after another one has opened
it. As long as no cleanup clears a queue that was opened so, an open instance has open queues.
-/

namespace WinTap

variable {d d' : Device} {t : ThreadId} {choice : Choice} {h : Handle} {pc : CleanupPc} {flow : Flow CleanupPc Unit}
  {th : Thread} {side : Side} {next : Device × Thread} {s s' : Driver} {a : Action}

def Device.queue (d : Device) : Side → FrameQueue
  | .receive => d.injection.queue
  | .capture => d.capture.queue

/-! ### The state of the queues -/

theorem evtIoWrite_state {input : WriteInput} {pc : WritePc} {flow : Flow WritePc Unit}
    (hstep : evtIoWrite d t h input choice pc = some (d', flow)) :
    d'.injection.queue.state = d.injection.queue.state := by
  cases pc with
  | lock | tryAdmit =>
    simp only [evtIoWrite] at hstep
    split at hstep <;> cases hstep <;> rfl
  | allocate =>
    simp only [evtIoWrite] at hstep
    repeat' split at hstep
    all_goals
      cases hstep
      rfl
  | enqueue f =>
    simp only [evtIoWrite] at hstep
    split at hstep <;> cases hstep
    · rfl
    · rename_i henqueue
      rw [(FrameQueue.enqueue_eq henqueue).2]
  | _ =>
    cases hstep
    rfl

/-- The queue that the next step of a sweep changes. -/
def SweepPc.sweeps : SweepPc → Option Side
  | .injection => some .receive
  | .capture => some .capture
  | .injectionGeneration | .captureGeneration => none

/-- The sweep has changed the queue. -/
def SweepPc.swept (side : Side) : SweepPc → Bool
  | .injection => false
  | .injectionGeneration | .capture => side = .receive
  | .captureGeneration => true

/-- The next step of the callback closes the queue. -/
def Thread.closes (side : Side) : Thread → Bool
  | .cleanup _ (.clear _ pc) | .d0Exit (.clear pc) => pc.sweeps = some side
  | _ => false

/-- The next step of the callback opens the queue. -/
def Thread.reopens (side : Side) : Thread → Bool
  | .cleanup _ (.reopen pc) | .d0Entry (.reopen pc) => pc.sweeps = some side
  | _ => false

/-- The callback has opened the queue and is about to open the instance. -/
def Thread.reopened (side : Side) : Thread → Bool
  | .cleanup _ (.reopen pc) | .d0Entry (.reopen pc) => pc.swept side
  | .cleanup _ .resume | .d0Entry .openLifecycle => true
  | _ => false

/-- What a step does to the state of a queue, and how the callback gets to have opened it. -/
structure QueueStep (side : Side) (d : Device) (th : Thread) (d' : Device) (th' : Thread) : Prop where
  state : (d'.queue side).state =
    if th.closes side then .closed else if th.reopens side then .opened else (d.queue side).state
  reopened : th'.reopened side = true → (!th.closes side && (th.reopened side || th.reopens side)) = true

theorem CleanupStep.queue (hstep : CleanupStep d t h choice pc d' flow) :
    QueueStep side d (.cleanup h pc) d' (flow.on (Thread.cleanup h) .idle) := by
  refine ⟨?_, ?_⟩
  · cases hstep <;> cases side <;> rfl
  · cases hstep <;> cases side <;> first | exact id | exact fun _ => rfl

theorem D0EntryStep.queue {pc : D0EntryPc} {flow : Flow D0EntryPc Unit} (hstep : D0EntryStep d pc d' flow) :
    QueueStep side d (.d0Entry pc) d' (flow.on Thread.d0Entry .idle) := by
  refine ⟨?_, ?_⟩
  · cases hstep <;> cases side <;> rfl
  · cases hstep <;> cases side <;> first | exact id | exact fun _ => rfl

theorem D0ExitStep.queue {pc : D0ExitPc} {flow : Flow D0ExitPc Unit} (hstep : D0ExitStep d t choice pc d' flow) :
    QueueStep side d (.d0Exit pc) d' (flow.on Thread.d0Exit .idle) := by
  refine ⟨?_, ?_⟩
  · cases hstep <;> cases side <;> rfl
  · cases hstep <;> cases side <;> exact id

theorem Thread.queue_eq_false (hk : th.kind ∉ [.cleanup, .d0Entry, .d0Exit]) (side : Side) :
    th.closes side = false ∧ th.reopens side = false ∧ th.reopened side = false := by
  cases th <;> first | exact ⟨rfl, rfl, rfl⟩ | simp [Thread.kind] at hk

theorem Thread.settle_queue {π : Type} (th : Thread) (inside : π → Thread) (result : Device × Flow π Unit) :
    (th.settle inside result).1.queue = result.1.queue := by
  obtain ⟨_, _, _, _, _, _, _, hframe⟩ := th.settle_frame inside result
  rw [hframe]
  rfl

theorem QueueStep.settle {π : Type} {inside : π → Thread} {result : Device × Flow π Unit}
    (h : QueueStep side d th result.1 (result.2.on inside .idle)) :
    QueueStep side d th (th.settle inside result).1 (th.settle inside result).2 := by
  refine ⟨?_, ?_⟩
  · rw [Thread.settle_queue]
    exact h.state
  · rw [Thread.settle_eq]
    exact h.reopened

/-- The other callbacks leave the queues open or closed. -/
theorem stepThread_queueState (hk : th.kind ∉ [.cleanup, .d0Entry, .d0Exit])
    (hstep : stepThread d t choice th = some next) (side : Side) :
    (next.1.queue side).state = (d.queue side).state := by
  cases side with
  | receive =>
    by_cases hmoves : th.kind ∈ [.write, .receive]
    · cases th <;> simp [Thread.kind] at hmoves
      case write h input pc =>
        obtain ⟨⟨d', flow⟩, hresult, rfl⟩ := Option.map_eq_some_iff.mp hstep
        rw [Thread.settle_queue]
        exact evtIoWrite_state hresult
      case receive pc =>
        cases hstep
        obtain ⟨⟨frames, hqueue⟩, -⟩ := (advanceReceive_step d t choice pc).queue
        rw [Thread.settle_queue]
        exact (congrArg FrameQueue.state hqueue :)
    · exact congrArg FrameQueue.state ((stepThread_frames hstep).injectionQueue (by simp_all))
  | capture => exact (stepThread_capture hk hstep).state

theorem stepThread_queue (hstep : stepThread d t choice th = some next) (side : Side) :
    QueueStep side d th next.1 next.2 := by
  by_cases hk : th.kind ∈ [.cleanup, .d0Entry, .d0Exit]
  · cases th <;> simp [Thread.kind] at hk
    case cleanup h pc =>
      obtain ⟨⟨d', flow⟩, hresult, rfl⟩ := Option.map_eq_some_iff.mp hstep
      exact .settle (evtFileCleanup_cases hresult).queue
    case d0Entry pc =>
      obtain ⟨⟨d', flow⟩, hresult, rfl⟩ := Option.map_eq_some_iff.mp hstep
      exact .settle (evtDeviceD0Entry_cases hresult).queue
    case d0Exit pc =>
      obtain ⟨⟨d', flow⟩, hresult, rfl⟩ := Option.map_eq_some_iff.mp hstep
      exact .settle (evtDeviceD0Exit_cases hresult).queue
  · obtain ⟨hcloses, hreopens, -⟩ := Thread.queue_eq_false hk side
    refine ⟨?_, fun hreopened => ?_⟩
    · rw [hcloses, hreopens]
      exact stepThread_queueState hk hstep side
    · rw [(Thread.queue_eq_false (stepThread_kind_not_mem hstep (by decide) hk) side).2.2] at hreopened
      cases hreopened

/-! ### Runs -/

/-- A cleanup closes a queue only while the instance is not open, and not after a D0 entry that is about to open the
instance has opened the queue. -/
def ClearsUnopened (s : Driver) (a : Action) : Prop :=
  ∀ t choice h owns pc side, a = .advance t choice → s.thr t = .cleanup h (.clear owns pc) → pc.sweeps = some side →
    s.dev.lifecycle ≠ .instanceOpen ∧ ∀ u, (s.thr u).kind = .d0Entry → (s.thr u).reopened side = false

/-- The queues of an instance that is open, or about to be opened, are open. -/
def QueuesOpen (s : Driver) : Prop :=
  ∀ side, s.dev.lifecycle = .instanceOpen ∨ (∃ t, (s.thr t).reopened side = true) →
    (s.dev.queue side).state = .opened

/-- A callback that opens the instance has opened both queues. -/
theorem LifecycleMove.reopened {th th' : Thread} {old new : Lifecycle} (h : LifecycleMove th old new th')
    (hopen : new = .instanceOpen) (side : Side) : th.reopened side = true := by
  cases h <;> first | rfl | cases hopen

theorem Thread.kind_of_reopened (h : th.reopened side = true) : th.locked .direct = true ∨ th.kind = .d0Entry := by
  cases th with
  | cleanup handle pc => cases pc <;> first | exact .inl rfl | cases h
  | d0Entry pc => exact .inr rfl
  | _ => cases h

theorem Thread.closes_cases (h : th.closes side = true) :
    th.locked .direct = true ∧
      ((∃ handle owns pc, th = .cleanup handle (.clear owns pc) ∧ pc.sweeps = some side) ∨
        ∃ pc, th = .d0Exit (.clear pc)) := by
  cases th with
  | cleanup handle pc =>
    cases pc <;> first | exact ⟨rfl, .inl ⟨_, _, _, rfl, of_decide_eq_true h⟩⟩ | cases h
  | d0Exit pc => cases pc <;> first | exact ⟨rfl, .inr ⟨_, rfl⟩⟩ | cases h
  | _ => cases h

namespace QueuesOpen

/-- The lifecycle, the queues and the parts in them stay. -/
theorem keep (h : QueuesOpen s) (hlifecycle : d.lifecycle = s.dev.lifecycle) (hqueue : d.queue = s.dev.queue)
    (hth : ∀ side, th.reopened side = (s.thr t).reopened side) : QueuesOpen (s.setThread t d th) := by
  intro side hopen
  rw [Driver.setThread_dev, hqueue]
  rw [Driver.setThread_dev, hlifecycle] at hopen
  refine h side (hopen.imp_right ?_)
  rintro ⟨i, hi⟩
  exact ⟨i, s.setThread_keep t d th (f := Thread.reopened side) (hth side) i ▸ hi⟩

/-- Nobody relies on a queue that is closed. -/
theorem unused_of_closes (halternating : Alternating s) (hsuspension : Suspension s)
    (hlocks : LocksOwned (fun _ => none) s) (hok : ClearsUnopened s (.advance t choice))
    (hcloses : (s.thr t).closes side = true) :
    s.dev.lifecycle ≠ .instanceOpen ∧ ∀ u, u ≠ t → (s.thr u).reopened side = false := by
  obtain ⟨hlocked, hcase⟩ := Thread.closes_cases hcloses
  refine ⟨fun hlifecycle => ?_, fun u hut => Bool.eq_false_iff.mpr fun hu => ?_⟩
  · obtain ⟨handle, owns, pc, hthr, hpc⟩ | ⟨pc, hthr⟩ := hcase
    · exact (hok t choice handle owns pc side rfl hthr hpc).1 hlifecycle
    · have hsuspended := hsuspension.passing t (by rw [hthr]; rfl)
      rw [hlifecycle] at hsuspended
      cases hsuspended
  · obtain hdirect | hentry := Thread.kind_of_reopened hu
    · have howner := (hlocks .direct u).mpr (.inl hdirect)
      rw [(hlocks .direct t).mpr (.inl hlocked)] at howner
      exact hut (Option.some.inj howner).symm
    · obtain ⟨handle, owns, pc, hthr, hpc⟩ | ⟨pc, hthr⟩ := hcase
      · have hnot := (hok t choice handle owns pc side rfl hthr hpc).2 u hentry
        rw [hnot] at hu
        cases hu
      · refine hut (halternating.unique u t ?_ (by rw [hthr]; exact Option.some_ne_none _))
        cases hthread : s.thr u <;> rw [hthread] at hentry <;> cases hentry
        exact Option.some_ne_none _

theorem advance (h : QueuesOpen s)
    (hunused : ∀ side, (s.thr t).closes side = true →
      s.dev.lifecycle ≠ .instanceOpen ∧ ∀ u, u ≠ t → (s.thr u).reopened side = false)
    (hstep : stepThread s.dev t choice (s.thr t) = some next) : QueuesOpen (s.setThread t next.1 next.2) := by
  intro side hopen
  have hqueue := stepThread_queue hstep side
  -- whoever relies on the queue now did so before, or has just opened it
  have hbefore : (s.thr t).closes side = false ∧ ((s.thr t).reopens side = true ∨
      s.dev.lifecycle = .instanceOpen ∨ ∃ u, (s.thr u).reopened side = true) := by
    obtain hlifecycle | ⟨u, hu⟩ := hopen
    · obtain ⟨hsame, -⟩ | hmove := stepThread_lifecycle hstep
      · have hlifecycle : s.dev.lifecycle = .instanceOpen := hsame ▸ hlifecycle
        exact ⟨Bool.eq_false_iff.mpr fun hcloses => (hunused side hcloses).1 hlifecycle, .inr (.inl hlifecycle)⟩
      · have hreopened := hmove.reopened hlifecycle side
        refine ⟨?_, .inr (.inr ⟨t, hreopened⟩)⟩
        cases hthr : s.thr t with
        | cleanup handle pc =>
          rw [hthr] at hreopened
          cases pc <;> first | rfl | cases hreopened
        | d0Exit pc =>
          rw [hthr] at hreopened
          cases hreopened
        | _ => rfl
    · by_cases hut : u = t
      · subst hut
        rw [Driver.setThread_self] at hu
        obtain ⟨hcloses, hreopened⟩ := Bool.and_eq_true_iff.mp (hqueue.reopened hu)
        refine ⟨by simpa using hcloses, ?_⟩
        exact (Bool.or_eq_true_iff.mp hreopened).symm.imp_right fun hbefore => .inr ⟨u, hbefore⟩
      · rw [Driver.setThread_of_ne _ _ _ _ hut] at hu
        refine ⟨Bool.eq_false_iff.mpr fun hcloses => ?_, .inr (.inr ⟨u, hu⟩)⟩
        rw [(hunused side hcloses).2 u hut] at hu
        cases hu
  rw [Driver.setThread_dev, hqueue.state, hbefore.1, if_neg Bool.false_ne_true]
  obtain hreopens | hrelied := hbefore.2
  · rw [if_pos hreopens]
  · rw [h side hrelied, ite_self]

theorem step (h : QueuesOpen s) (halternating : Alternating s) (hsuspension : Suspension s)
    (hlocks : LocksOwned (fun _ => none) s) (hok : ClearsUnopened s a) (hstep : stepDriver s a = some s') :
    QueuesOpen s' := by
  cases stepDriver_cases hstep with
  | @start t a d th hidle hstart =>
    obtain ⟨_, _, _, _, _, _, _, _, hframe⟩ := hstart.frame
    refine h.keep (by rw [hframe]) (by rw [hframe]; rfl) fun side => ?_
    rw [hidle]
    cases hstart <;> rfl
  | @framework a d hmove =>
    rw [s.setDev_eq 0]
    exact h.keep (by cases hmove <;> rfl) (by cases hmove <;> rfl) fun side => rfl
  | @packet t length passive gen captured hthr hlength =>
    refine h.keep rfl rfl fun side => ?_
    rw [hthr]
    rfl
  | @advance t choice next hadvance =>
    exact h.advance (fun side => unused_of_closes halternating hsuspension hlocks hok) hadvance

end QueuesOpen

theorem DriverReach.queuesOpen (h : DriverReach ClearsUnopened s) : QueuesOpen s := by
  refine h.invariant (fun s hinit side _ => ?_) fun _ _ _ hreach hinv hok hstep =>
    hinv.step (DriverReach.alternating hreach) (DriverReach.suspension hreach) (DriverReach.locksOwned hreach) hok hstep
  obtain ⟨⟨mtu, -, -, hdev⟩, -⟩ := hinit
  rw [hdev]
  cases side <;> rfl

/-! ### The closers -/

/-- A cleanup keeps the owner closer until it readmits the direction. -/
theorem CleanupStep.owner_kept (hstep : CleanupStep d t h choice pc d' flow) (hheld : pc.holds side = true) :
    flow.on (CleanupPc.holds side) false = true ∨ (Thread.cleanup h pc).readmits side .owner := by
  cases hstep with
  | unlockWrite resumed => cases resumed <;> first | exact .inl rfl | cases hheld
  | _ => cases side <;> first | exact .inl rfl | exact .inr ⟨rfl, rfl⟩ | cases hheld

/-- The entry into D0 will readmit the direction. -/
def Thread.powering (side : Side) : Thread → Bool
  | .d0Entry (.readmitCallbacks pc) => pc.holds side
  | .d0Entry _ => true
  | _ => false

theorem D0EntryStep.powering {pc : D0EntryPc} {flow : Flow D0EntryPc Unit} (hstep : D0EntryStep d pc d' flow)
    (hpowering : (Thread.d0Entry pc).powering side = true) :
    (flow.on Thread.d0Entry .idle).powering side = true ∨ (Thread.d0Entry pc).readmits side .power := by
  cases hstep <;> cases side <;> first | exact .inl rfl | exact .inr ⟨rfl, rfl⟩ | cases hpowering

theorem stepThread_owner_kept (hstep : stepThread d t choice th = some next) (hheld : th.holds side .owner) :
    next.2.holds side .owner ∨ th.readmits side .owner := by
  obtain ⟨hkind, -⟩ | ⟨-, hc⟩ := Thread.kind_of_holds hheld
  · cases th <;> cases hkind
    obtain ⟨⟨d', flow⟩, hresult, rfl⟩ := Option.map_eq_some_iff.mp hstep
    obtain hkept | hreadmits := (evtFileCleanup_cases hresult).owner_kept hheld.2
    · cases flow with
      | run pc => exact .inl ⟨rfl, hkept⟩
      | ret value => cases hkept
    · exact .inr hreadmits
  · cases hc

theorem stepThread_powering (hstep : stepThread d t choice th = some next) (hpowering : th.powering side = true) :
    next.2.powering side = true ∨ th.readmits side .power := by
  cases th with
  | d0Entry pc =>
    obtain ⟨⟨d', flow⟩, hresult, rfl⟩ := Option.map_eq_some_iff.mp hstep
    rw [Thread.settle_eq]
    exact (evtDeviceD0Entry_cases hresult).powering hpowering
  | _ => cases hpowering

/-- D0 exit goes on, or the device is down. -/
theorem stepThread_exits (hstep : stepThread d t choice th = some next) (hkind : th.kind = .d0Exit) :
    next.2.kind = .d0Exit ∨ next.1.power = .down := by
  cases th <;> cases hkind
  obtain ⟨⟨d', flow⟩, hresult, rfl⟩ := Option.map_eq_some_iff.mp hstep
  cases flow with
  | run pc => exact .inl rfl
  | ret value => exact .inr rfl

theorem Thread.kind_of_shuts_power (h : th.shuts side .power) : th.kind = .d0Exit := by
  cases th with
  | cleanup handle pc => cases pc <;> first | exact h.elim | cases h.1
  | d0Exit pc => rfl
  | _ => exact h.elim

/-- A closer that is set has a callback behind it, or the device is down. -/
structure ClosersBacked (s : Driver) : Prop where
  owner : ∀ side, closedBy (s.dev.leases.word side) .owner → ∃ t, (s.thr t).holds side .owner
  power : ∀ side, closedBy (s.dev.leases.word side) .power →
    (∃ t, (s.thr t).kind = .d0Exit) ∨ s.dev.power = .down ∨ ∃ t, (s.thr t).powering side = true

/-- A thread that is not the one that changes is still there. -/
theorem Driver.exists_setThread {P : Thread → Prop} (h : ∃ i, P (s.thr i)) (hth : P (s.thr t) → P th) :
    ∃ i, P ((s.setThread t d th).thr i) := by
  obtain ⟨i, hi⟩ := h
  refine ⟨i, ?_⟩
  by_cases hit : i = t
  · subst hit
    rw [Driver.setThread_self]
    exact hth hi
  · rwa [Driver.setThread_of_ne _ _ _ _ hit]

namespace ClosersBacked

/-- The lease words stay, and the thread that changes had no part in the closers. -/
theorem keep (h : ClosersBacked s) (hleases : d.leases = s.dev.leases)
    (hholds : (s.thr t).kind ∈ [.cleanup, .d0Entry, .d0Exit] → th = s.thr t)
    (hpower : s.dev.power = .down → d.power = .down ∨ ∀ side, th.powering side = true) :
    ClosersBacked (s.setThread t d th) := by
  refine ⟨fun side hclosed => ?_, fun side hclosed => ?_⟩ <;> rw [Driver.setThread_dev, hleases] at hclosed
  · refine Driver.exists_setThread (P := fun th => th.holds side .owner) (h.owner side hclosed) fun hheld => ?_
    obtain ⟨hk, -⟩ | ⟨hk, -⟩ := Thread.kind_of_holds hheld <;> rwa [hholds (by simp [hk])]
  · obtain hexit | hdown | hentry := h.power side hclosed
    · refine .inl (Driver.exists_setThread (P := fun th => th.kind = .d0Exit) hexit fun hk => ?_)
      rwa [hholds (by simp [hk])]
    · refine .inr ((hpower hdown).imp id fun hpowering => ⟨t, ?_⟩)
      rw [Driver.setThread_self]
      exact hpowering side
    · refine .inr (.inr (Driver.exists_setThread (P := fun th => th.powering side = true) hentry fun hpowering => ?_))
      have hk : (s.thr t).kind = .d0Entry := by
        cases hthr : s.thr t <;> rw [hthr] at hpowering <;> first | rfl | cases hpowering
      rwa [hholds (by simp [hk])]

theorem advance (h : ClosersBacked s) (hcounted : LeasesCounted s) (halternating : Alternating s)
    (hstep : stepThread s.dev t choice (s.thr t) = some next) : ClosersBacked (s.setThread t next.1 next.2) := by
  have hword := fun side => stepThread_word hstep side ((hcounted side).le t)
  have hhold := fun side => stepThread_holds hstep side
  refine ⟨fun side hclosed => ?_, fun side hclosed => ?_⟩
  · obtain ⟨hbefore | hshuts, hreadmits⟩ := ((hword side).closers .owner).mp hclosed
    · refine Driver.exists_setThread (P := fun th => th.holds side .owner) (h.owner side hbefore) fun hheld => ?_
      exact (stepThread_owner_kept hstep hheld).resolve_right hreadmits
    · exact ⟨t, by rw [Driver.setThread_self]; exact ((hhold side).shuts .owner hshuts).1⟩
  · obtain ⟨hbefore, hreadmits⟩ := ((hword side).closers .power).mp hclosed
    have hcases : (∃ t, (s.thr t).kind = .d0Exit) ∨ s.dev.power = .down ∨ ∃ t, (s.thr t).powering side = true :=
      hbefore.elim (h.power side) fun hshuts => .inl ⟨t, Thread.kind_of_shuts_power hshuts⟩
    obtain ⟨i, hi⟩ | hdown | hentry := hcases
    · by_cases hit : i = t
      · subst hit
        refine (stepThread_exits hstep hi).imp (fun hnext => ⟨i, ?_⟩) .inl
        rwa [Driver.setThread_self]
      · exact .inl ⟨i, by rwa [Driver.setThread_of_ne _ _ _ _ hit]⟩
    · have hnone := halternating.none_of_settled (.inr hdown) t
      refine .inr (.inl (((stepThread_frames hstep).power fun hk => ?_).trans hdown))
      cases hthr : s.thr t <;> rw [hthr] at hnone hk <;> first | (simp [Thread.kind] at hk; done) | cases hnone
    · refine .inr (.inr (Driver.exists_setThread (P := fun th => th.powering side = true) hentry fun hpowering => ?_))
      exact (stepThread_powering hstep hpowering).resolve_right hreadmits

theorem step (h : ClosersBacked s) (hcounted : LeasesCounted s) (halternating : Alternating s)
    (hstep : stepDriver s a = some s') : ClosersBacked s' := by
  cases stepDriver_cases hstep with
  | @start t a d th hidle hstart =>
    obtain ⟨_, _, _, _, _, _, _, _, hframe⟩ := hstart.frame
    refine h.keep (by rw [hframe]; rfl) (by rw [hidle]; simp [Thread.kind]) fun hdown => ?_
    cases hstart with
    | d0Entry => exact .inr fun side => rfl
    | d0Exit hpower =>
      rw [hpower] at hdown
      cases hdown
    | _ => exact .inl hdown
  | @framework a d hmove =>
    rw [s.setDev_eq 0]
    exact h.keep (by cases hmove <;> rfl) (fun _ => rfl) fun hdown => .inl (by cases hmove <;> exact hdown)
  | @packet t length passive gen captured hthr hlength =>
    exact h.keep rfl (by rw [hthr]; simp [Thread.kind]) fun hdown => .inl hdown
  | @advance t choice next hadvance => exact h.advance hcounted halternating hadvance

end ClosersBacked

theorem DriverReach.closersBacked {ok : Driver → Action → Prop} (h : DriverReach ok s) : ClosersBacked s := by
  refine h.invariant (fun s hinit => ?_) fun _ _ _ hreach hinv _ hstep =>
    hinv.step (DriverReach.leasesCounted hreach) (DriverReach.alternating hreach) hstep
  obtain ⟨⟨mtu, -, -, hdev⟩, -⟩ := hinit
  have hword : ∀ side, s.dev.leases.word side = 0 := fun side => by
    rw [hdev]
    cases side <;> rfl
  have hnone : ∀ c, ¬closedBy 0 c := fun c => by cases c <;> decide
  refine ⟨fun side hclosed => ?_, fun side hclosed => ?_⟩
  · exact absurd (hword side ▸ hclosed) (hnone .owner)
  · exact absurd (hword side ▸ hclosed) (hnone .power)

/-! ### The open instance -/

/-- None of the callbacks that open and close the instance is running. -/
def Driver.Settled (s : Driver) : Prop := ∀ t, (s.thr t).kind ∉ [.create, .cleanup, .d0Entry, .d0Exit]

/-- In a run in which no cleanup clears a queue behind the back of an open instance, or of a D0 entry that is about to
open it, an open instance at rest has open queues. The closers need no condition. -/
theorem open_adapter_has_open_queues {s : Driver} (hsettled : s.Settled) (hopen : s.dev.lifecycle = .instanceOpen) :
    (DriverReach ClearsUnopened s → ∀ side, (s.dev.queue side).state = .opened) ∧
    (DriverReach Machine.Free s → ∀ side,
      ¬closedBy (s.dev.leases.word side) .owner ∧ ¬closedBy (s.dev.leases.word side) .power) := by
  refine ⟨fun hreach side => DriverReach.queuesOpen hreach side (.inl hopen), ?_⟩
  intro hreach side
  have hbacked := DriverReach.closersBacked hreach
  refine ⟨fun hclosed => ?_, fun hclosed => ?_⟩
  · obtain ⟨t, ht⟩ := hbacked.owner side hclosed
    obtain ⟨hk, -⟩ | ⟨-, hc⟩ := Thread.kind_of_holds ht
    · exact hsettled t (by simp [hk])
    · cases hc
  · obtain ⟨t, ht⟩ | hdown | ⟨t, ht⟩ := hbacked.power side hclosed
    · exact hsettled t (by simp [ht])
    · have hsuspended := (DriverReach.suspension hreach).down hdown
      rw [hopen] at hsuspended
      cases hsuspended
    · refine hsettled t ?_
      cases hthr : s.thr t <;> rw [hthr] at ht <;> first | cases ht | simp [Thread.kind]

theorem settled_after {acts : List Action} (ts : List ThreadId) (hacts : ∀ a ∈ acts, ∀ t, t ∈ a.thread → t ∈ ts)
    (hidle : ∀ t ∈ ts, (driverSystem.after .initial acts).thr t = .idle) :
    (driverSystem.after .initial acts).Settled := by
  intro t
  rw [after_threads (P := fun th => th = .idle) hacts rfl hidle t]
  decide

/-- A handle is opened and closed. -/
def opensAndCloses : List Action := .create 1 7 :: steps 1 2 ++ .cleanup 1 7 :: steps 1 31

theorem open_adapter_has_open_queues_closed :
    let s := driverSystem.after .initial opensAndCloses
    s.dev.log.head? = some (.cleanedUp 7) ∧ s.Settled ∧ s.dev.lifecycle = .instanceOpen ∧
      ∀ side, (s.dev.queue side).state = .opened := by
  intro s
  have hreach : DriverReach (fun s a => a.kind ≠ .d0Entry ∧ ∀ t, t ∈ a.thread → s.dev.lifecycle ≠ .instanceOpen ∨
      (s.thr t).closes .receive = false ∧ (s.thr t).closes .capture = false) s :=
    Machine.System.reach_after_keeping (by decide +kernel) (driverReach_initial _)
  have hclears : DriverReach ClearsUnopened s := by
    refine hreach.exchange fun s a hs hok t choice h owns pc side ha hthr hpc => ⟨fun hopen => ?_, fun u hu => ?_⟩
    · have hcloses : (s.thr t).closes side = true := by
        rw [hthr]
        exact decide_eq_true hpc
      obtain hclosed | ⟨hreceive, hcapture⟩ := hok.2 t (by rw [ha]; rfl)
      · exact hclosed hopen
      · cases side
        · rw [hreceive] at hcloses
          cases hcloses
        · rw [hcapture] at hcloses
          cases hcloses
    · refine absurd ?_ (DriverReach.avoids [.d0Entry] hs (by decide) (fun _ _ hok hmem => hok.1 ?_) u)
      · exact List.mem_singleton.mpr hu
      · exact List.mem_singleton.mp hmem
  have hsettled : s.Settled := settled_after [1] (by decide) (by decide +kernel)
  have hopen : s.dev.lifecycle = .instanceOpen := by decide +kernel
  exact ⟨by decide +kernel, hsettled, hopen, (open_adapter_has_open_queues hsettled hopen).1 hclears⟩

/-- The second handle is closed while the first cleanup, which has released the control handle, is about to open the
queues and the instance. -/
def closesBehind : List Action :=
  .create 1 7 :: steps 1 2 ++ .cleanup 1 7 :: steps 1 21 ++ .create 2 8 :: steps 2 2 ++ .cleanup 2 8 :: steps 2 6 ++
    steps 1 10 ++ steps 2 19

/-- Both cleanups have returned, and the open instance has closed queues. -/
theorem open_adapter_with_closed_queues :
    ∃ s, DriverReach Machine.Free s ∧ s.Settled ∧ s.dev.lifecycle = .instanceOpen ∧
      ∀ side, (s.dev.queue side).state = .closed := by
  refine ⟨driverSystem.after .initial closesBehind, Machine.System.reach_after (driverReach_initial _) _, ?_, ?_, ?_⟩
  · exact settled_after [1, 2] (by decide) (by decide +kernel)
  · decide +kernel
  · intro side
    cases side <;> decide +kernel

end WinTap

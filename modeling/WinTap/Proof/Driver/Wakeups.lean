import WinTap.Proof.Driver.CaptureQueue
import WinTap.Proof.Driver.QueueStates
import WinTap.Proof.Driver.Readiness
import WinTap.Proof.Driver.Stopping
import WinTap.Proof.Wait.Wakeups

/-!
# No wakeup is lost

A callback that puts a frame into the empty capture queue claims the wait afterwards, and so does an RX callback that
takes a frame from the full injection queue and hands it to the network stack. One that puts the frame back does not
claim: the queue is full again by then, since only the RX callback takes frames from it. So while nobody tears down, a
pending wait whose interest is ready has a thread that is still going to find it. When no thread is on its way from a
queue to the record, a wait is pending for good reason: the capture queue is empty, or the injection queue is full.
-/

namespace WinTap

open Machine

variable {d : Device} {t : ThreadId} {choice : Choice} {th : Thread} {next : Device × Thread} {s : Driver}

/-! ### Between a queue and the record -/

/-- The callback has put a frame into the empty capture queue, and is about to claim. -/
def Thread.rising (th : Thread) : Bool :=
  match th.storing with
  | some (_, .generation wasEmpty) => wasEmpty
  | _ => false

/-- The RX callback has taken a frame from the full injection queue and is about to hand it on, or is about to put a
frame back. -/
def Thread.falling : Thread → Bool
  | .receive (.generation _ _ wasFull) | .receive (.place _ _ wasFull) => wasFull
  | .receive (.requeueLifecycle ..) | .receive (.requeueOwner ..) | .receive (.requeueEnqueue _) => true
  | _ => false

/-- The callback is between the capture queue and its claim, or the registration in its second look at it. -/
def Thread.wakesReader (th : Thread) : Bool := th.rising || th.protocol.looks 0

/-- The callback is between the injection queue and its claim or put-back, or the registration in its second look. -/
def Thread.wakesWriter (th : Thread) : Bool := th.falling || th.protocol.looks 1

theorem stepThread_rising (hstep : stepThread d t choice th = some next) (hrising : th.rising = true) :
    next.2.protocol.looks 0 = true := by
  unfold Thread.rising at hrising
  split at hrising
  case h_2 => cases hrising
  case h_1 f wasEmpty hat =>
    subst hrising
    unfold Thread.storing at hat
    split at hat
    case h_1 | h_2 =>
      obtain ⟨rfl, rfl⟩ := RequeuePc.eq_of_storing _ hat
      cases hstep
      rfl
    case h_3 pc =>
      cases pc <;> cases hat
      cases hstep
      rfl
    case h_4 => cases hat

theorem stepThread_rises (hk : th.kind ∉ [.cleanup, .d0Entry, .d0Exit]) (hstep : stepThread d t choice th = some next)
    (hempty : d.capture.queue.frames = []) (hfilled : next.1.capture.queue.frames ≠ []) : next.2.rising = true := by
  have hlonger : d.capture.queue.len < next.1.capture.queue.len := by
    rw [FrameQueue.len, FrameQueue.len, hempty]
    exact List.length_pos_iff.mpr hfilled
  obtain ⟨f, -, -, hnext⟩ := (stepThread_capture hk hstep).put_of_lt hlonger
  rw [Thread.rising, hnext, FrameQueue.isEmpty, hempty]
  rfl

/-- The RX callback that has made room in the full queue goes on to its claim, or fills the queue again. -/
theorem advanceReceive_falls {pc : RxPc} (hopen : d.injection.queue.state = .opened)
    (hbudget : d.injection.queue.Budgeted d.frameMaximum) (hlifecycle : d.lifecycle = .instanceOpen)
    (howner : ∀ gen, pc.ownerGeneration = some gen → gen = d.ownerGeneration)
    (hheld : ∀ f, pc.heldFrame = some f → f.length ≤ d.frameMaximum)
    (hroom : (advanceReceive d t choice pc).1.injection.queue.len < frameQueueLimit)
    (h : frameQueueLimit ≤ d.injection.queue.len ∨
      (Thread.receive pc).falling = true ∧ frameQueueLimit ≤ d.injection.queue.len + 1) :
    ∃ pc', (advanceReceive d t choice pc).2 = .run pc' ∧ ((Thread.receive pc').protocol.looks 1 = true ∨
      (Thread.receive pc').falling = true ∧
        frameQueueLimit ≤ (advanceReceive d t choice pc).1.injection.queue.len + 1) := by
  have hstays : d.injection.queue.len < frameQueueLimit →
      (Thread.receive pc).falling = true ∧ frameQueueLimit ≤ d.injection.queue.len + 1 :=
    fun hlt => h.resolve_left (Nat.not_le.mpr hlt)
  cases pc with
  | dequeue gen =>
    have hfull : d.injection.queue.len = frameQueueLimit := by
      refine Nat.le_antisymm hbudget.length (Nat.le_of_not_lt fun hlt => ?_)
      cases (hstays hlt).1
    simp only [advanceReceive] at hroom ⊢
    cases hdequeue : d.injection.queue.dequeue with
    | none =>
      rw [hdequeue] at hroom
      exact absurd hfull (Nat.ne_of_lt hroom)
    | some result =>
      refine ⟨_, rfl, .inr ⟨decide_eq_true ⟨hopen, hfull⟩, ?_⟩⟩
      rw [← hfull, FrameQueue.len, (FrameQueue.dequeue_eq hdequeue).1]
      exact Nat.le_refl _
  | generation gen f wasFull => exact ⟨_, rfl, .inr (hstays hroom)⟩
  | place gen f wasFull =>
    simp only [advanceReceive] at hroom ⊢
    split at hroom
    · rw [if_pos ‹_›, show wasFull = true from (hstays hroom).1]
      exact ⟨_, rfl, .inl rfl⟩
    · rw [if_neg ‹_›]
      exact ⟨_, rfl, .inr ⟨rfl, (hstays hroom).2⟩⟩
  | requeueLifecycle gen f =>
    exact ⟨.requeueOwner gen f, by rw [advanceReceive, if_pos hlifecycle], .inr (hstays hroom)⟩
  | requeueOwner gen f =>
    exact ⟨.requeueEnqueue f, by rw [advanceReceive, if_pos (howner gen rfl).symm], .inr (hstays hroom)⟩
  | requeueEnqueue f =>
    -- a frame that is put back leaves the queue full, whether the queue takes it or not
    simp only [advanceReceive] at hroom
    split at hroom
    · rename_i e herror
      rw [hbudget.enqueue_ok hopen hroom (hheld f rfl)] at herror
      cases herror
    · rename_i queue henqueue
      rw [(FrameQueue.enqueue_eq henqueue).2, FrameQueue.len, List.length_append] at hroom
      exact absurd (h.elim Nat.le_succ_of_le And.right) (Nat.not_le.mpr hroom)
  | lease =>
    simp only [advanceReceive] at hroom
    split at hroom <;> cases (hstays hroom).1
  | _ => cases (hstays hroom).1

theorem WaitStep.tends {e : Env} {c c' : Core} {x x' : WaitThread} (h : WaitStep e c t choice x c' x')
    (hmine : x.Mine c) (hadvance : ∀ {y}, advanceThread e c t choice x = some (c', y) → Tends e c x c' y) :
    Tends e c x c' x' := by
  cases h with
  | rest hcore hthread | queue hcore hthread =>
    subst hcore hthread
    exact .quiet rfl rfl rfl (.inl ⟨rfl, hmine⟩)
  | teardown _ hidle hcore hthread | claim _ _ hidle hcore hthread | again hidle hcore hthread =>
    subst hcore hthread
    exact .quiet rfl rfl rfl (.inr ⟨hidle, trivial, rfl⟩)
  | advance hstep => exact hadvance hstep
  | rests hstep hthread =>
    subst hthread
    obtain ⟨hpending, -, -, hlooks⟩ := hadvance hstep
    exact ⟨hpending, trivial, nofun, hlooks⟩

/-! ### The invariant -/

/-- While a wait asks for the bit and the queue is ready, some thread looks, or is late with its claim. -/
def Awake (i : Nat) (ready : Device → Prop) (late : Device → Thread → Prop) (s : Driver) : Prop :=
  s.dev.core.Asks i → ready s.dev → ∃ t, (s.thr t).protocol.looks i = true ∨ late s.dev (s.thr t)

theorem Awake.set {i : Nat} {ready : Device → Prop} {late : Device → Thread → Prop} (h : Awake i ready late s)
    (htends : Tends s.dev.env s.dev.core (s.thr t).protocol d.core th.protocol)
    (henv : ready s.dev → s.dev.env.ready.getLsbD i = true)
    (hothers : ∀ u, u ≠ t → late s.dev (s.thr u) → late d (s.thr u))
    (hstep : ready d → ¬ready s.dev ∨ late s.dev (s.thr t) → th.protocol.looks i = true ∨ late d th) :
    Awake i ready late (s.setThread t d th) := by
  intro hasks hready
  have hself : th.protocol.looks i = true ∨ late d th →
      ∃ u, ((s.setThread t d th).thr u).protocol.looks i = true ∨ late d ((s.setThread t d th).thr u) := by
    intro hth
    exact ⟨t, by rwa [Driver.setThread_self]⟩
  obtain hlooks | ⟨hasked, hgoes⟩ := htends.looks i hasks
  · exact hself (.inl hlooks)
  by_cases hwas : ready s.dev
  swap
  · exact hself (hstep hready (.inl hwas))
  obtain ⟨u, hu⟩ := h hasked hwas
  by_cases hut : u = t
  · subst hut
    obtain hlooks | hlate := hu
    · exact hself (.inl (hgoes hlooks (henv hwas)))
    · exact hself (hstep hready (.inr hlate))
  · refine ⟨u, ?_⟩
    rw [Driver.setThread_of_ne _ _ _ _ hut]
    exact hu.imp_right (hothers u hut)

structure WakeInv (s : Driver) : Prop where
  mine : ∀ t, (s.thr t).protocol.Mine s.dev.core
  adapted : ∀ t, (s.thr t).protocol.adapted = true → s.dev.adaptiveEnabled = true
  enabled : waitRecordState s.dev.core.waitState = waitPending → s.dev.adaptiveEnabled = true
  readable : Awake 0 (fun d => d.capture.queue.frames ≠ []) (fun _ th => th.rising = true) s
  writable : Awake 1 (fun d => d.injection.queue.len < frameQueueLimit)
    (fun d th => th.falling = true ∧ frameQueueLimit ≤ d.injection.queue.len + 1) s

theorem Thread.onControl_of_protocol (h : th.protocol.dispatching = true) : th.onControl = true := by
  rw [th.protocol_dispatching, decide_eq_true_eq] at h
  cases th <;> first | rfl | cases h

theorem WaitThread.adapted_of_marked {x : WaitThread} {r : Request} (h : x.stage = .marked r) :
    x.adapted = true ∧ x.dispatching = true := by
  obtain ⟨input, pc, rfl⟩ := WaitThread.eq_of_marked h
  exact ⟨rfl, rfl⟩

theorem WakeInv.set (h : WakeInv s) (hserial : Serialized s) (hopen : s.dev.injection.queue.state = .opened)
    (htends : Tends s.dev.env s.dev.core (s.thr t).protocol d.core th.protocol)
    (hadaptive : s.dev.adaptiveEnabled = true → d.adaptiveEnabled = true)
    (hreadable : d.capture.queue.frames ≠ [] → s.dev.capture.queue.frames = [] ∨ (s.thr t).rising = true →
      th.protocol.looks 0 = true ∨ th.rising = true)
    (hothers : ∀ u, u ≠ t → (s.thr u).falling = true → s.dev.injection.queue.len ≤ d.injection.queue.len)
    (hwritable : d.injection.queue.len < frameQueueLimit → frameQueueLimit ≤ s.dev.injection.queue.len ∨
      (s.thr t).falling = true ∧ frameQueueLimit ≤ s.dev.injection.queue.len + 1 →
      th.protocol.looks 1 = true ∨ th.falling = true ∧ frameQueueLimit ≤ d.injection.queue.len + 1) :
    WakeInv (s.setThread t d th) where
  mine u := by
    by_cases hut : u = t
    · subst hut
      rw [Driver.setThread_self]
      exact htends.mine
    · rw [Driver.setThread_of_ne _ _ _ _ hut]
      have hmine := h.mine u
      cases hu : (s.thr u).protocol with
      | register r input pc =>
        rw [hu] at hmine
        intro hrechecks hpending
        obtain ⟨hslot, hinterest, hbefore⟩ := htends.pending hpending
        rw [Driver.setThread_dev, hslot, hinterest]
        refine hmine hrechecks (hbefore.resolve_right ?_)
        -- no other registration is under way
        rintro ⟨q, hmarked⟩
        have ht := hserial.control t (Thread.onControl_of_protocol (WaitThread.adapted_of_marked hmarked).2)
        have hheld := hserial.control u (Thread.onControl_of_protocol (by rw [hu]; rfl))
        exact hut (Option.some.inj (hheld.symm.trans ht))
      | _ => trivial
  adapted u hu := by
    by_cases hut : u = t
    · subst hut
      rw [Driver.setThread_self] at hu
      obtain hbefore | henabled := htends.adapted hu
      · exact hadaptive (h.adapted u hbefore)
      · exact hadaptive henabled
    · rw [Driver.setThread_of_ne _ _ _ _ hut] at hu
      exact hadaptive (h.adapted u hu)
  enabled hpending := by
    obtain ⟨-, -, hbefore | ⟨r, hmarked⟩⟩ := htends.pending hpending
    · exact hadaptive (h.enabled hbefore)
    · exact hadaptive (h.adapted t (WaitThread.adapted_of_marked hmarked).1)
  readable := by
    refine h.readable.set htends (fun hready => ?_) (fun _ _ => id) fun hready hbefore => ?_
    · have hreadable : s.dev.env.readable = true := by simpa [Device.env, FrameQueue.isEmpty] using hready
      simp [Env.ready, hreadable, adaptiveInterestReadable]
    · exact hreadable hready (hbefore.imp_left not_not.mp)
  writable := by
    refine h.writable.set htends (fun hready => ?_) (fun u hut hu => ?_) fun hready hbefore => ?_
    · have hwritable : s.dev.env.writable = true := by simp [Device.env, hopen, hready]
      simp [Env.ready, hwritable, adaptiveInterestWritable]
    · exact ⟨hu.1, Nat.le_trans hu.2 (Nat.succ_le_succ (hothers u hut hu.1))⟩
    · exact hwritable hready (hbefore.imp_left Nat.le_of_not_lt)

/-- A step outside the queues. -/
theorem WakeInv.keep (h : WakeInv s) (hserial : Serialized s) (hopen : s.dev.injection.queue.state = .opened)
    (htends : Tends s.dev.env s.dev.core (s.thr t).protocol d.core th.protocol)
    (hadaptive : d.adaptiveEnabled = s.dev.adaptiveEnabled) (hcapture : d.capture.queue = s.dev.capture.queue)
    (hinjection : d.injection.queue = s.dev.injection.queue)
    (hth : th.rising = (s.thr t).rising ∧ th.falling = (s.thr t).falling) : WakeInv (s.setThread t d th) := by
  refine h.set hserial hopen htends (fun henabled => hadaptive.trans henabled) ?_ ?_ ?_
  · rw [hcapture, hth.1]
    exact fun hready hbefore => .inr (hbefore.resolve_left hready)
  · exact fun _ _ _ => Nat.le_of_eq (by rw [hinjection])
  · rw [hinjection, hth.2]
    exact fun hroom hbefore => .inr (hbefore.resolve_left (Nat.not_le.mpr hroom))

theorem stepThread_adaptive (hk : th.kind ≠ .cleanup) (hstep : stepThread d t choice th = some next)
    (henabled : d.adaptiveEnabled = true) : next.1.adaptiveEnabled = true := by
  by_cases henable : th.kind = .enable
  · cases th <;> cases henable
    rename_i h input pc
    obtain ⟨result, hresult, rfl⟩ := Option.map_eq_some_iff.mp hstep
    obtain ⟨_, _, _, _, _, _, _, hframe⟩ := (Thread.enable h input pc).settle_frame (Thread.enable h input) result
    rw [hframe]
    cases pc <;> simp only [handleEnableAdaptivePolling] at hresult
    all_goals
      repeat' split at hresult
      all_goals first | (cases hresult; first | exact henabled | rfl) | cases hresult
  · rwa [(stepThread_frames hstep).adaptiveEnabled (by simp [hk, henable])]

theorem DriverReach.withinBudget {ok : Driver → Action → Prop} (h : DriverReach ok s) : WithinBudget s := by
  refine h.invariant (fun s hinit => ?_) fun _ _ _ _ hinv _ hstep => hinv.step hstep
  obtain ⟨⟨mtu, hdefault, hmaximum, hdev⟩, hidle⟩ := hinit
  refine ⟨⟨mtu, hdefault, hmaximum, by rw [hdev]; rfl⟩, ?_, fun t => ?_⟩
  · rw [hdev]
    exact .tryNew _
  · rw [hidle t]
    exact ⟨trivial, nofun⟩

theorem WakeInv.step {s' : Driver} {a : Action} (h : WakeInv s) (hreach : DriverReach NoTeardown s)
    (hstep : stepDriver s a = some s') : WakeInv s' := by
  have hsteady := DriverReach.steady hreach fun _ _ => id
  have hserial := DriverReach.serialized hreach
  have hopen : s.dev.injection.queue.state = .opened := by
    refine DriverReach.queuesOpen (hreach.exchange fun s a hs _ => ?_) .receive (.inl hsteady.lifecycle)
    intro t choice handle owns pc side _ hthr
    refine absurd ((DriverReach.steady hs fun _ _ => id).kind t) ?_
    simp [hthr, Thread.kind]
  cases stepDriver_cases hstep with
  | @start t a d th hidle hstart =>
    have hbefore : (s.thr t).protocol = .idle ∧ false = (s.thr t).rising ∧ false = (s.thr t).falling := by
      rw [hidle]
      exact ⟨rfl, rfl, rfl⟩
    have hmine : th.protocol.Mine d.core := by cases hstart <;> first | trivial | exact fun hno => by cases hno
    cases hstart <;>
      exact h.keep hserial hopen (.quiet rfl rfl rfl (.inr ⟨hbefore.1, hmine, rfl⟩)) rfl rfl rfl hbefore.2
  | @framework a d hmove =>
    rw [s.setDev_eq 0]
    cases hmove <;> exact h.keep hserial hopen (.quiet rfl rfl rfl (.inl ⟨rfl, h.mine 0⟩)) rfl rfl rfl ⟨rfl, rfl⟩
  | @packet t length passive gen captured hthr hlength =>
    have hbefore : (s.thr t).protocol = .idle ∧ false = (s.thr t).rising ∧ false = (s.thr t).falling := by
      rw [hthr]
      exact ⟨rfl, rfl, rfl⟩
    exact h.keep hserial hopen (.quiet rfl rfl rfl (.inr ⟨hbefore.1, trivial, rfl⟩)) rfl rfl rfl hbefore.2
  | @advance t choice next hadvance =>
    have hwait := DriverReach.protocol hreach
    have hbudget := DriverReach.withinBudget hreach
    have hk := hsteady.kind t
    have htends := (stepThread_protocol hadvance).tends (h.mine t) fun hstep =>
      advanceThread_tends (hwait.inv.pcs t) (hwait.inv.own.stage t) hwait.inv.own.view (hwait.asks.threads t)
        (h.mine t) h.enabled hstep
    simp only [List.mem_cons, List.not_mem_nil, or_false, not_or] at hk
    have hgrows : (s.thr t).kind ≠ .receive → s.dev.injection.queue.len ≤ next.1.injection.queue.len := by
      intro hreceive
      obtain ⟨new, hqueue, -⟩ := stepThread_injects hadvance (by simp [hk, hreceive]) (hbudget.threads t).write
      rw [hqueue, FrameQueue.len, FrameQueue.len, List.length_append]
      exact Nat.le_add_right _ _
    have hfalling : ∀ u, (s.thr u).falling = true → (s.thr u).kind = .receive := by
      intro u hu
      cases hth : s.thr u <;> rw [hth] at hu <;> first | rfl | cases hu
    refine h.set hserial hopen htends (stepThread_adaptive hk.1 hadvance) (fun hready hbefore => ?_)
      (fun u hut hu => hgrows fun ht => ?_) fun hroom hbefore => ?_
    · exact hbefore.symm.imp (stepThread_rising hadvance) fun hempty =>
        stepThread_rises (hsteady.kind t) hadvance hempty hready
    · -- only one RX callback runs at a time
      have hreceive : ∀ v, (s.thr v).kind = .receive → (s.thr v).onReceive = true := by
        intro v hv
        cases hth : s.thr v <;> rw [hth] at hv <;> first | rfl | cases hv
      exact hut (hserial.receive_unique (hreceive u (hfalling u hu)) (hreceive t ht))
    · by_cases hreceive : (s.thr t).kind = .receive
      · cases hth : s.thr t <;> rw [hth] at hreceive hadvance hbefore <;> cases hreceive
        rename_i pc
        cases hadvance
        have howner := hsteady.owner t
        have hsized := (hbudget.threads t).receive
        rw [hth] at howner hsized
        rw [show Channel.queue _ = _ from congrFun (Thread.settle_queue ..) Side.receive] at hroom ⊢
        obtain ⟨pc', hrun, hnext⟩ :=
          advanceReceive_falls hopen hbudget.queue hsteady.lifecycle howner hsized hroom hbefore
        rw [Thread.settle_eq, hrun]
        exact hnext
      · obtain hfull | ⟨hth, -⟩ := hbefore
        · exact absurd (Nat.le_trans hfull (hgrows hreceive)) (Nat.not_le.mpr hroom)
        · exact absurd (hfalling t hth) hreceive

theorem DriverReach.wakes (h : DriverReach NoTeardown s) : WakeInv s := by
  refine h.invariant (fun s hinit => ?_) fun _ _ _ hreach hinv _ hstep => hinv.step hreach hstep
  obtain ⟨⟨mtu, -, -, hdev⟩, hidle⟩ := hinit
  have hfree : waitRecordState s.dev.core.waitState ≠ waitPending := by
    rw [hdev]
    exact (by decide : waitRecordState Core.initial.waitState ≠ waitPending)
  refine ⟨fun t => ?_, fun t ht => ?_, fun hpending => absurd hpending hfree, fun hasks => absurd hasks.1 hfree,
    fun hasks => absurd hasks.1 hfree⟩
  · rw [hidle t]
    trivial
  · rw [hidle t] at ht
    cases ht

theorem bit_of_and_ne_zero {mask : Mask} (i : Nat) (h : mask &&& BitVec.twoPow 32 i ≠ 0) : mask.getLsbD i = true := by
  rw [BitVec.and_twoPow] at h
  by_contra hbit
  exact h (if_neg hbit)

/-- While nobody tears down, a pending wait that no thread is on its way to has nothing to wait for: the capture queue
is empty if the wait asks for READABLE, and the injection queue is full if it asks for WRITABLE. -/
theorem no_lost_wakeup {s : Driver} (h : DriverReach NoTeardown s)
    (hpending : waitRecordState s.dev.core.waitState = waitPending) :
    ((∀ t, (s.thr t).wakesReader = false) → s.dev.core.waitInterest &&& adaptiveInterestReadable ≠ 0 →
      s.dev.capture.queue.frames = []) ∧
    ((∀ t, (s.thr t).wakesWriter = false) → s.dev.core.waitInterest &&& adaptiveInterestWritable ≠ 0 →
      s.dev.injection.queue.len = frameQueueLimit) := by
  have hwakes := DriverReach.wakes h
  refine ⟨fun hquiet hasks => ?_, fun hquiet hasks => ?_⟩
  · by_contra hready
    obtain ⟨t, ht⟩ := hwakes.readable ⟨hpending, bit_of_and_ne_zero 0 hasks⟩ hready
    exact Bool.eq_false_iff.mp (hquiet t) (Bool.or_eq_true_iff.mpr ht.symm)
  · refine Nat.le_antisymm (DriverReach.withinBudget h).queue.length (Nat.le_of_not_lt fun hroom => ?_)
    obtain ⟨t, ht⟩ := hwakes.writable ⟨hpending, bit_of_and_ne_zero 1 hasks⟩ hroom
    exact Bool.eq_false_iff.mp (hquiet t) (Bool.or_eq_true_iff.mpr (ht.symm.imp_left And.left))

/-- A wait for a readable capture queue is pending, and its registration has returned. -/
def waitingReader : List Action :=
  enabledAlone ++ [.queueStart true, .queueStart false, .register 1 7 5 readableInput] ++ steps 1 29

theorem no_lost_wakeup_waiting :
    waitRecordState (driverSystem.after .initial waitingReader).dev.core.waitState = waitPending ∧
      (driverSystem.after .initial waitingReader).dev.capture.queue.frames = [] := by
  have hpending : waitRecordState (driverSystem.after .initial waitingReader).dev.core.waitState = waitPending := by
    decide +kernel
  have hkinds : ∀ a ∈ waitingReader, a.kind ∉ [.cleanup, .d0Exit] := by decide +kernel
  have hacts : ∀ a ∈ waitingReader, ∀ t, t ∈ a.thread → t ∈ [0, 1] := by decide +kernel
  have hquiet := after_threads (P := fun th => th.wakesReader = false) hacts rfl (by decide +kernel)
  exact ⟨hpending, (no_lost_wakeup (Machine.System.reach_after_of (fun _ => hkinds) (driverReach_initial _)) hpending).1
    hquiet (by decide +kernel)⟩

end WinTap

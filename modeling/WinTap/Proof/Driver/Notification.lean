import WinTap.Base.Tally
import WinTap.Proof.Driver.Injection

/-!
# The RX notification

The network stack arms the notification when it has no more packets to take, and whoever then finds a frame in the
injection queue takes the armed flag and sends the one notification that it stands for. The two sides share no lock:
a WRITE enqueues first and takes the flag afterwards, and arming sets the flag first and looks at the queue
afterwards, so one of them sees the other. The RX callback can put a frame back without a look at the flag, but the
framework calls it and the arming callback one at a time, so the frame is on neither side only while nobody arms.
-/

namespace WinTap

variable {d d' : Device} {th : Thread} {next : Device × Thread} {t : ThreadId} {choice : Choice} {input : WriteInput}
  {pc : WritePc} {flow : Flow WritePc Unit} {s s' : Driver} {a : Action}

/-! ### Every notification was armed -/

/-- The notifications that were sent. -/
def Device.notifications (d : Device) : Nat := d.log.count .notified

theorem Device.notifications_of_log (h : d'.log = d.log) : d'.notifications = d.notifications := by
  rw [Device.notifications, h, Device.notifications]

theorem Device.notifications_cons {e : Event} (h : d'.log = e :: d.log) (he : e ≠ .notified) :
    d'.notifications = d.notifications := by
  rw [Device.notifications, h, List.count_cons_of_ne he, Device.notifications]

theorem Device.notifications_notified (h : d'.log = .notified :: d.log) : d'.notifications = d.notifications + 1 := by
  rw [Device.notifications, h, List.count_cons_self, Device.notifications]

/-- A callback that is about to arm, or that has taken the flag and not yet sent the notification. -/
def Thread.owesNotification : Thread → Nat
  | .write _ _ (.releaseAccepted true) | .write _ _ (.completeAccepted true) | .write _ _ .notify => 1
  | .notification (.arm true) | .notification .notify => 1
  | _ => 0

/-- A step does not make more of what was armed. -/
def NotificationStep (d : Device) (th : Thread) (next : Device × Thread) : Prop :=
  next.1.notifications + next.1.rxNotificationArmed.toNat + next.2.owesNotification
    ≤ d.notifications + d.rxNotificationArmed.toNat + th.owesNotification

theorem NotificationStep.same (hsent : next.1.notifications = d.notifications)
    (harmed : next.1.rxNotificationArmed = d.rxNotificationArmed)
    (howes : next.2.owesNotification ≤ th.owesNotification) : NotificationStep d th next := by
  rw [NotificationStep, hsent, harmed]
  omega

theorem NotificationStep.disarmed (hsent : next.1.notifications = d.notifications)
    (harmed : next.1.rxNotificationArmed = false) (howes : next.2.owesNotification = 0) :
    NotificationStep d th next := by
  rw [NotificationStep, hsent, harmed, howes]
  exact Nat.le_trans (Nat.le_add_right _ _) (Nat.le_add_right _ _)

theorem NotificationStep.sent (hsent : next.1.notifications = d.notifications + 1)
    (harmed : next.1.rxNotificationArmed = d.rxNotificationArmed) (howed : th.owesNotification = 1)
    (howes : next.2.owesNotification = 0) : NotificationStep d th next := by
  rw [NotificationStep, hsent, harmed, howed, howes]
  omega

/-- Only a WRITE and the arming callback do anything to the flag but clear it. -/
theorem stepThread_flag (hk : th.kind ∉ [.write, .notification]) (hstep : stepThread d t choice th = some next) :
    next.1.rxNotificationArmed = d.rxNotificationArmed ∨ next.1.rxNotificationArmed = false := by
  by_cases hclears : th.kind ∈ [.d0Exit, .queueStop]
  · cases th <;> simp [Thread.kind] at hclears
    case d0Exit pc =>
      obtain ⟨⟨d', flow⟩, hresult, rfl⟩ := Option.map_eq_some_iff.mp hstep
      cases evtDeviceD0Exit_cases hresult with
      | disarm => exact .inr rfl
      | _ => exact .inl rfl
    case queueStop isTransmit pc =>
      obtain ⟨⟨d', flow⟩, hresult, rfl⟩ := Option.map_eq_some_iff.mp hstep
      cases evtPacketQueueStop_cases hresult with
      | disarm => exact .inr rfl
      | flush => cases isTransmit <;> exact .inl rfl
      | _ => exact .inl rfl
  · refine .inl ((stepThread_frames hstep).rxNotificationArmed ?_)
    simp only [List.mem_cons, List.not_mem_nil, or_false, not_or] at hk hclears ⊢
    exact ⟨hk.1, hclears.1, hclears.2, hk.2⟩

theorem Thread.owesNotification_of_kind (hk : th.kind ∉ [.write, .notification]) : th.owesNotification = 0 := by
  cases th <;> first | rfl | simp [Thread.kind] at hk

theorem evtIoWrite_notification {h : Handle} (hstep : evtIoWrite d t h input choice pc = some (d', flow)) :
    NotificationStep d (.write h input pc) (d', flow.on (Thread.write h input) .idle) := by
  cases pc with
  | lock | tryAdmit =>
    simp only [evtIoWrite] at hstep
    split at hstep <;> cases hstep
    all_goals
      refine .same rfl rfl ?_
      rw [Flow.on_run]
      first | exact Nat.zero_le _ | (split <;> exact Nat.zero_le _)
  | lifecycle =>
    cases hstep
    refine .same rfl rfl ?_
    rw [Flow.on_run]
    repeat' split
    all_goals exact Nat.zero_le _
  | capacity =>
    cases hstep
    refine .same rfl rfl ?_
    rw [Flow.on_run]
    split <;> exact Nat.zero_le _
  | allocate =>
    simp only [evtIoWrite] at hstep
    repeat' split at hstep
    all_goals
      cases hstep
      exact .same rfl rfl (Nat.zero_le _)
  | enqueue f =>
    simp only [evtIoWrite] at hstep
    split at hstep <;> cases hstep
    · exact .same rfl rfl (Nat.zero_le _)
    · exact .same (Device.notifications_cons rfl (by rintro ⟨⟩)) rfl (Nat.zero_le _)
  | notification =>
    cases hstep
    rw [NotificationStep, Device.notifications_of_log (d := d) rfl]
    cases d.rxNotificationArmed <;> exact Nat.le_refl _
  | completeAccepted notify =>
    cases hstep
    refine .same (Device.notifications_cons rfl (by rintro ⟨⟩)) rfl ?_
    cases notify <;> exact Nat.le_refl _
  | notify =>
    cases hstep
    exact .sent (Device.notifications_notified rfl) rfl rfl rfl
  | complete status =>
    cases hstep
    exact .same (Device.notifications_cons rfl (by rintro ⟨⟩)) rfl (Nat.zero_le _)
  | releaseAccepted notify =>
    cases hstep
    cases notify <;> exact .same rfl rfl (Nat.le_refl _)
  | _ =>
    cases hstep
    exact .same rfl rfl (Nat.zero_le _)

theorem setNotificationEnabled_notification (d : Device) (pc : NotificationPc) :
    NotificationStep d (.notification pc)
      ((setNotificationEnabled d pc).1, (setNotificationEnabled d pc).2.on Thread.notification .idle) := by
  cases pc with
  | arm enabled =>
    cases enabled with
    | false => exact .disarmed rfl rfl rfl
    | true =>
      rw [NotificationStep, Device.notifications_of_log (d := d) rfl]
      exact Nat.add_le_add_right (Nat.le_add_right _ _) 1
  | queued =>
    refine .same rfl rfl ?_
    simp only [setNotificationEnabled]
    split <;> exact Nat.le_refl _
  | take =>
    rw [NotificationStep, Device.notifications_of_log (d := d) rfl]
    simp only [setNotificationEnabled]
    cases d.rxNotificationArmed <;> exact Nat.le_refl _
  | notify => exact .sent (Device.notifications_notified rfl) rfl rfl rfl

theorem stepThread_notification (hstep : stepThread d t choice th = some next) : NotificationStep d th next := by
  by_cases hk : th.kind ∈ [.write, .notification]
  · cases th <;> simp [Thread.kind] at hk
    case write h input pc =>
      obtain ⟨⟨d', flow⟩, hresult, rfl⟩ := Option.map_eq_some_iff.mp hstep
      have hwrite := evtIoWrite_notification hresult
      cases flow <;> exact hwrite
    case notification pc =>
      cases hstep
      have hset := setNotificationEnabled_notification d pc
      rw [Thread.settle_eq]
      cases hflow : (setNotificationEnabled d pc).2 <;> rw [hflow] at hset <;> exact hset
  · have hsent : next.1.notifications = d.notifications := by
      obtain hsame | ⟨e, hlog, hauthor⟩ := stepThread_logs hstep
      · exact Device.notifications_of_log hsame
      · refine Device.notifications_cons hlog ?_
        rintro rfl
        exact hk hauthor
    have howes := Thread.owesNotification_of_kind (stepThread_kind_not_mem hstep (by decide) hk)
    obtain hsame | hclear := stepThread_flag hk hstep
    · exact .same hsent hsame (by rw [howes]; exact Nat.zero_le _)
    · exact .disarmed hsent hclear howes

/-- `evt_packet_queue_set_notification_enabled` is called to arm. -/
def Action.armsNotification : Action → Bool
  | .setNotificationEnabled _ enabled => enabled
  | _ => false

/-- What was sent, the flag, and what the callbacks owe come to at most `calls`. -/
def NotifiedWithin (s : Driver) (calls : Nat) : Prop :=
  ∃ n, Tally (fun t => (s.thr t).owesNotification) n ∧
    s.dev.notifications + s.dev.rxNotificationArmed.toNat + n ≤ calls

namespace NotifiedWithin

variable {calls : Nat}

theorem init (h : driverSystem.init s) : NotifiedWithin s 0 := by
  obtain ⟨⟨mtu, -, -, hdev⟩, hidle⟩ := h
  refine ⟨0, Tally.zero fun t => by rw [hidle t]; rfl, ?_⟩
  rw [hdev]
  exact Nat.le_refl 0

/-- A thread takes a step, and the bound grows by what it newly owes. -/
theorem set (h : NotifiedWithin s calls) {more : Nat}
    (hmore : d.notifications + d.rxNotificationArmed.toNat + th.owesNotification
      ≤ s.dev.notifications + s.dev.rxNotificationArmed.toNat + (s.thr t).owesNotification + more) :
    NotifiedWithin (s.setThread t d th) (calls + more) := by
  obtain ⟨n, htally, hle⟩ := h
  have hmine : (s.thr t).owesNotification ≤ n := htally.le t
  refine ⟨n - (s.thr t).owesNotification + th.owesNotification, htally.step t th (by omega), ?_⟩
  rw [Driver.setThread_dev]
  omega

theorem step (h : NotifiedWithin s calls) (hstep : stepDriver s a = some s') :
    NotifiedWithin s' (calls + if a.armsNotification then 1 else 0) := by
  cases stepDriver_cases hstep with
  | @start t a d th hidle hstart =>
    refine h.set ?_
    rw [hidle]
    cases hstart
    case notification enabled _ => cases enabled <;> exact Nat.le_refl _
    all_goals exact Nat.le_refl _
  | @framework a d hmove =>
    rw [s.setDev_eq 0]
    refine h.set ?_
    cases hmove
    case queueCancel =>
      change s.dev.notifications + 0 + _ ≤ _
      omega
    all_goals exact Nat.le_refl _
  | @packet t length passive gen captured hthr hlength =>
    refine h.set ?_
    rw [hthr]
    exact Nat.le_refl _
  | @advance t choice next hadvance => exact h.set (stepThread_notification hadvance)

end NotifiedWithin

/-! ### No frame is left behind an armed flag -/

/-- A callback between its enqueue, or its arming, and its own look at the other side. -/
def Thread.looksAgain : Thread → Bool
  | .write _ _ .generation | .write _ _ .notification => true
  | .notification .queued | .notification .take => true
  | _ => false

theorem Thread.looksAgain_eq_false (hwrite : th.kind ≠ .write) (harm : th.kind ≠ .notification) :
    th.looksAgain = false := by
  cases th <;> first | rfl | exact absurd rfl hwrite | exact absurd rfl harm

/-- A frame is queued, or the RX callback may still put it back. -/
def Driver.HasFrame (s : Driver) : Prop :=
  s.dev.injection.queue.frames ≠ [] ∨ ∃ t, (s.thr t).receivedFrame ≠ none

/-- While the flag is set and a frame is there, somebody is going to look again. -/
def Watched (s : Driver) : Prop :=
  s.dev.rxNotificationArmed = true → s.HasFrame → ∃ t, (s.thr t).looksAgain = true

namespace Watched

/-- A thread brings no frame and does not arm, and looks again if it was going to. -/
theorem keep (h : Watched s) (harmed : d.rxNotificationArmed = true → s.dev.rxNotificationArmed = true)
    (hqueue : d.injection.queue.frames ≠ [] → s.HasFrame) (hheld : th.receivedFrame ≠ none → s.HasFrame)
    (hlooks : (s.thr t).looksAgain = true → th.looksAgain = true) : Watched (s.setThread t d th) := by
  intro hset hframe
  have hbefore : s.HasFrame := by
    obtain hqueued | ⟨u, hu⟩ := hframe
    · exact hqueue hqueued
    · by_cases hut : u = t
      · subst hut
        rw [Driver.setThread_self] at hu
        exact hheld hu
      · rw [Driver.setThread_of_ne _ _ _ _ hut] at hu
        exact .inr ⟨u, hu⟩
  exact Machine.exists_update (h (harmed hset) hbefore) hlooks

/-- The thread itself is going to look. -/
theorem of_looks (hth : th.looksAgain = true) : Watched (s.setThread t d th) := fun _ _ =>
  ⟨t, by rwa [Driver.setThread_self]⟩

theorem of_disarmed (hd : d.rxNotificationArmed = false) : Watched (s.setThread t d th) := fun hset => by
  rw [Driver.setThread_dev, hd] at hset
  cases hset

theorem write (h : Watched s) {handle : Handle} (hthr : s.thr t = .write handle input pc)
    (hstep : evtIoWrite s.dev t handle input choice pc = some (d', flow)) :
    Watched (s.setThread t d' (flow.on (Thread.write handle input) .idle)) := by
  have hnone : (flow.on (Thread.write handle input) .idle).receivedFrame = none := by cases flow <;> rfl
  have hrest : d'.rxNotificationArmed = s.dev.rxNotificationArmed →
      d'.injection.queue.frames = s.dev.injection.queue.frames →
      ((Thread.write handle input pc).looksAgain = true →
        (flow.on (Thread.write handle input) .idle).looksAgain = true) →
      Watched (s.setThread t d' (flow.on (Thread.write handle input) .idle)) := fun harmed hqueue hlooks =>
    h.keep (fun hset => harmed ▸ hset) (fun hqueued => .inl (hqueue ▸ hqueued)) (fun hheld => absurd hnone hheld)
      (fun hbefore => hlooks (hthr ▸ hbefore))
  cases pc with
  | enqueue f =>
    simp only [evtIoWrite] at hstep
    split at hstep <;> cases hstep
    · exact hrest rfl rfl (absurd · Bool.false_ne_true)
    · exact of_looks rfl
  | generation =>
    cases hstep
    exact hrest rfl rfl fun _ => rfl
  | notification =>
    cases hstep
    exact of_disarmed rfl
  | _ =>
    simp only [evtIoWrite] at hstep
    repeat' split at hstep
    all_goals first | (cases hstep; exact hrest rfl rfl (absurd · Bool.false_ne_true)) | cases hstep

/-- The arming callback finds the queue empty while no RX callback holds a frame. -/
theorem arming (h : Watched s) (hserial : Serialized s) {pc : NotificationPc} (hthr : s.thr t = .notification pc) :
    Watched (s.setThread t ((setNotificationEnabled s.dev pc).2.on (fun _ => (setNotificationEnabled s.dev pc).1)
        ((Thread.notification pc).finish (setNotificationEnabled s.dev pc).1))
      ((setNotificationEnabled s.dev pc).2.on Thread.notification .idle)) := by
  cases pc with
  | arm enabled =>
    cases enabled with
    | false => exact of_disarmed rfl
    | true => exact of_looks rfl
  | queued =>
    simp only [setNotificationEnabled]
    split
    · rename_i hempty
      intro _ hframe
      obtain hqueued | ⟨u, hu⟩ := hframe
      · exact absurd (List.isEmpty_iff.mp hempty) hqueued
      · by_cases hut : u = t
        · subst hut
          rw [Driver.setThread_self] at hu
          exact absurd rfl hu
        · rw [Driver.setThread_of_ne _ _ _ _ hut] at hu
          exact absurd (hserial.received_turn (by rw [hthr]; rfl) u hu) hut
    · exact of_looks rfl
  | take =>
    refine of_disarmed ?_
    simp only [setNotificationEnabled]
    cases s.dev.rxNotificationArmed <;> rfl
  | notify =>
    refine h.keep id (fun hqueued => .inl hqueued) (fun hheld => absurd rfl hheld) ?_
    rw [hthr]
    exact (absurd · Bool.false_ne_true)

/-- The RX callback holds and queues only what was there. -/
theorem receiving (h : Watched s) {pc : RxPc} (hthr : s.thr t = .receive pc)
    (hd : d.injection = (advanceReceive s.dev t choice pc).1.injection)
    (harmed : d.rxNotificationArmed = s.dev.rxNotificationArmed) :
    Watched (s.setThread t d ((advanceReceive s.dev t choice pc).2.on Thread.receive .idle)) := by
  have hheld : pc.heldFrame ≠ none → s.HasFrame := fun hpc => .inr ⟨t, by rw [hthr]; exact hpc⟩
  have hback : ((advanceReceive s.dev t choice pc).1.injection.queue.frames ≠ [] → s.HasFrame) ∧
      (((advanceReceive s.dev t choice pc).2.on Thread.receive .idle).receivedFrame ≠ none → s.HasFrame) := by
    have hflow : ∀ flow : Flow RxPc Unit, (flow.on Thread.receive .idle).receivedFrame
        = flow.on RxPc.heldFrame none := fun flow => by cases flow <;> rfl
    rw [hflow]
    cases advanceReceive_step s.dev t choice pc with
    | keep hqueue _ hkept => exact ⟨fun hframes => .inl (hqueue ▸ hframes), fun hnext => hheld (hkept ▸ hnext)⟩
    | take _ _ _ hdequeue =>
      have hfront : s.HasFrame := .inl (by rw [(FrameQueue.dequeue_eq hdequeue).1]; exact List.cons_ne_nil _ _)
      exact ⟨fun _ => hfront, fun _ => hfront⟩
    | place hqueue _ hnone | letGo hqueue _ hnone =>
      exact ⟨fun hframes => .inl (hqueue ▸ hframes), absurd hnone⟩
    | put hpc _ hnone => exact ⟨fun _ => hheld (by rw [hpc]; exact Option.some_ne_none _), absurd hnone⟩
  refine h.keep (fun hset => harmed ▸ hset) (fun hqueued => hback.1 ?_) hback.2 ?_
  · rwa [← hd]
  · rw [hthr]
    exact (absurd · Bool.false_ne_true)

/-- The teardown paths only empty the queue. -/
theorem stepThread_sweeps (hk : th.kind ∈ [.cleanup, .d0Entry, .d0Exit])
    (hstep : stepThread d t choice th = some next) :
    next.1.injection.queue.frames = d.injection.queue.frames ∨ next.1.injection.queue.frames = [] := by
  cases th <;> simp [Thread.kind] at hk
  case cleanup h pc =>
    obtain ⟨⟨d', flow⟩, hresult, rfl⟩ := Option.map_eq_some_iff.mp hstep
    cases evtFileCleanup_cases hresult with
    | clearInjection owns => exact .inr rfl
    | reopenInjection => exact .inr rfl
    | _ => exact .inl rfl
  case d0Entry pc =>
    obtain ⟨⟨d', flow⟩, hresult, rfl⟩ := Option.map_eq_some_iff.mp hstep
    cases evtDeviceD0Entry_cases hresult with
    | reopenInjection => exact .inr rfl
    | _ => exact .inl rfl
  case d0Exit pc =>
    obtain ⟨⟨d', flow⟩, hresult, rfl⟩ := Option.map_eq_some_iff.mp hstep
    cases evtDeviceD0Exit_cases hresult with
    | clearInjection => exact .inr rfl
    | _ => exact .inl rfl

theorem step (h : Watched s) (hserial : Serialized s) (hstep : stepDriver s a = some s') : Watched s' := by
  cases stepDriver_cases hstep with
  | @start t a d th hidle hstart =>
    obtain ⟨_, _, _, _, _, _, _, _, hframe⟩ := hstart.frame
    refine h.keep (by rw [hframe]; exact id) (by rw [hframe]; exact .inl) (fun hheld => absurd ?_ hheld) ?_
    · cases hstart <;> rfl
    · rw [hidle]
      exact (absurd · Bool.false_ne_true)
  | @framework a d hmove =>
    rw [s.setDev_eq 0]
    cases hmove
    case queueCancel => exact of_disarmed rfl
    all_goals exact h.keep id .inl (fun hheld => .inr ⟨0, hheld⟩) id
  | @packet t length passive gen captured hthr hlength =>
    exact h.keep id .inl (fun hheld => absurd rfl hheld) (by rw [hthr]; exact (absurd · Bool.false_ne_true))
  | @advance t choice next hadvance =>
    by_cases hk : (s.thr t).kind ∈ [.write, .notification, .receive]
    · cases hthr : s.thr t <;> simp [Thread.kind, hthr] at hk <;> rw [hthr] at hadvance
      case write handle input pc =>
        obtain ⟨⟨d', flow⟩, hresult, rfl⟩ := Option.map_eq_some_iff.mp hadvance
        have hwrite := h.write hthr hresult
        cases flow <;> exact hwrite
      case notification pc =>
        cases hadvance
        rw [Thread.settle_eq]
        exact h.arming hserial hthr
      case receive pc =>
        cases hadvance
        obtain ⟨_, _, _, hframe⟩ := advanceReceive_frame s.dev t choice pc
        rw [Thread.settle_eq]
        refine h.receiving hthr ?_ ?_
        · cases (advanceReceive s.dev t choice pc).2 <;> rfl
        · cases (advanceReceive s.dev t choice pc).2 <;> rw [hframe] <;> rfl
    · simp only [List.mem_cons, List.not_mem_nil, or_false, not_or] at hk
      have hnext : next.2 = .idle ∨ next.2.kind = (s.thr t).kind := stepThread_kind hadvance
      obtain hsame | hclear := stepThread_flag (by simp [hk]) hadvance
      · refine h.keep (fun hset => hsame ▸ hset) (fun hqueued => .inl ?_) (fun hheld => absurd ?_ hheld) ?_
        · by_cases hsweeps : (s.thr t).kind ∈ [.cleanup, .d0Entry, .d0Exit]
          · obtain hqueue | hempty := stepThread_sweeps hsweeps hadvance
            · rwa [← hqueue]
            · exact absurd hempty hqueued
          · rwa [← (stepThread_frames hadvance).injectionQueue (by simp [hk]; simpa using hsweeps)]
        · refine Thread.receivedFrame_eq_none ?_
          obtain hend | hkind := hnext
          · rw [hend]
            decide
          · rw [hkind]
            exact hk.2.2
        · intro hlooks
          rw [Thread.looksAgain_eq_false hk.1 hk.2.1] at hlooks
          cases hlooks
      · exact of_disarmed hclear

end Watched

theorem DriverReach.watched {ok : Driver → Action → Prop} (h : DriverReach ok s) : Watched s := by
  refine h.invariant (fun s hinit hset => ?_) fun _ _ _ hreach hinv _ hstep =>
    hinv.step (DriverReach.serialized hreach) hstep
  obtain ⟨⟨mtu, -, -, hdev⟩, -⟩ := hinit
  rw [hdev] at hset
  cases hset

/-- No WRITE, no callback of the RX queue, no cleanup and no power transition is running. -/
def Driver.NotificationIdle (s : Driver) : Prop :=
  ∀ t, (s.thr t).onReceive = false ∧ (s.thr t).kind ∉ [.write, .cleanup, .d0Entry, .d0Exit]

/-- In every run there are at most as many notifications as calls that armed one, and whenever nothing is in
progress that bears on it, the flag is not set beside a frame in the injection queue. -/
theorem rx_notification_exact {s₀ s : Driver} {acts : List Action} (hinit : driverSystem.init s₀)
    (hrun : driverSystem.run s₀ acts = some s) :
    s.dev.log.count .notified ≤ acts.countP Action.armsNotification ∧
      (s.NotificationIdle → ¬(s.dev.rxNotificationArmed = true ∧ s.dev.injection.queue.frames ≠ [])) := by
  constructor
  · have hwithin := Machine.System.run_countP (P := NotifiedWithin) (p := Action.armsNotification)
      (fun _ _ _ _ => NotifiedWithin.step) (NotifiedWithin.init hinit) hrun
    obtain ⟨n, -, hle⟩ := hwithin
    rw [Device.notifications] at hle
    omega
  · rintro hidle ⟨hset, hframe⟩
    have hreach : DriverReach Machine.Free s :=
      Machine.System.reach_of_run (fun _ _ _ => trivial) (.init hinit) hrun
    obtain ⟨t, ht⟩ := DriverReach.watched hreach hset (.inl hframe)
    obtain ⟨hreceive, hkind⟩ := hidle t
    simp only [List.mem_cons, List.not_mem_nil, or_false, not_or] at hkind
    have harm : (s.thr t).kind ≠ .notification := by
      intro harm
      cases hth : s.thr t <;> rw [hth] at harm hreceive <;> cases harm
      cases hreceive
    rw [Thread.looksAgain_eq_false hkind.1 harm] at ht
    cases ht

/-- The stack arms on an empty queue, and the WRITE of a frame notifies it. -/
def notifiedWrite : List Action :=
  [.create 0 7] ++ steps 0 2 ++ [.setNotificationEnabled 1 true] ++ steps 1 2 ++ .write 2 7 writeFrame :: steps 2 12

theorem rx_notification_exact_write :
    ∃ s, driverSystem.run .initial notifiedWrite = some s ∧ s.dev.injection.queue.frames ≠ [] ∧
      s.dev.log.count .notified = 1 ∧ s.dev.log.count .notified ≤ notifiedWrite.countP Action.armsNotification := by
  have hrun : (driverSystem.run .initial notifiedWrite).isSome = true := by decide +kernel
  obtain ⟨s, hs⟩ := Option.isSome_iff_exists.mp hrun
  have hfacts : (driverSystem.run .initial notifiedWrite).all (fun s =>
      decide (s.dev.injection.queue.frames ≠ [] ∧ s.dev.log.count .notified = 1)) = true := by decide +kernel
  rw [hs, Option.all_some, decide_eq_true_eq] at hfacts
  have hinit : driverSystem.init Driver.initial := ⟨⟨defaultMtu, by decide, by decide, rfl⟩, fun _ => rfl⟩
  exact ⟨s, hs, hfacts.1, hfacts.2, (rx_notification_exact hinit hs).1⟩

end WinTap

import WinTap.Proof.Driver.Injection
import WinTap.Proof.Driver.Quiesced

/-!
# When the injection queue is writable

A wait for WRITABLE looks at the number of queued frames only, and a WRITE is admitted by number and by bytes. The two
agree because the byte budget of the queue is that of as many frames as the queue holds, each of the largest size:
nothing larger is ever queued, neither by a WRITE nor by an RX callback that puts a frame back.
-/

namespace WinTap

variable {d : Device} {t : ThreadId} {choice : Choice} {th : Thread} {maximum : Nat}

namespace FrameQueue

/-- The queue has the limits that it was created with, and keeps to them with frames of an admitted size. -/
structure Budgeted (maximum : Nat) (q : FrameQueue) : Prop where
  limit : q.limit = frameQueueLimit
  byteLimit : q.byteLimit = frameQueueLimit * maximum
  length : q.len ≤ frameQueueLimit
  sizes : ∀ f ∈ q.frames, f.length ≤ maximum

namespace Budgeted

variable {q q' : FrameQueue} {f : Frame}

theorem tryNew (maximum : Nat) : Budgeted maximum (.tryNew frameQueueLimit (frameQueueLimit * maximum)) :=
  ⟨rfl, rfl, Nat.zero_le _, nofun⟩

theorem close (h : q.Budgeted maximum) : q.close.Budgeted maximum :=
  ⟨h.limit, h.byteLimit, Nat.zero_le _, nofun⟩

theorem reopen (h : q.Budgeted maximum) : q.reopen.Budgeted maximum :=
  ⟨h.limit, h.byteLimit, Nat.zero_le _, nofun⟩

theorem dequeue (h : q.Budgeted maximum) (hdequeue : q.dequeue = some (f, q')) :
    q'.Budgeted maximum ∧ f.length ≤ maximum := by
  obtain ⟨hframes, hq'⟩ := FrameQueue.dequeue_eq hdequeue
  have hlength := h.length
  rw [FrameQueue.len, hframes, List.length_cons] at hlength
  have hsizes := h.sizes
  rw [hframes] at hsizes
  rw [hq']
  exact ⟨⟨h.limit, h.byteLimit, Nat.le_of_succ_le hlength, fun g hg => hsizes g (List.mem_cons_of_mem f hg)⟩,
    hsizes f List.mem_cons_self⟩

/-- The bytes of the queued frames are at most those of as many largest ones. -/
theorem bytes_le (h : q.Budgeted maximum) : q.bytes ≤ q.len * maximum := by
  have hsum : (q.frames.map Frame.length).sum ≤ (q.frames.map Frame.length).length • maximum := by
    refine List.sum_le_card_nsmul _ _ fun length hlength => ?_
    obtain ⟨g, hg, rfl⟩ := List.mem_map.mp hlength
    exact h.sizes g hg
  rwa [List.length_map, smul_eq_mul] at hsum

/-- A queue that is open and not full takes every frame of an admitted size. -/
theorem enqueue_ok (h : q.Budgeted maximum) (hstate : q.state = .opened) (hroom : q.len < frameQueueLimit)
    (hlength : f.length ≤ maximum) : q.enqueue f = .ok { q with frames := q.frames ++ [f] } := by
  refine FrameQueue.enqueue_ok hstate (h.limit ▸ hroom) ?_
  calc q.bytes + f.length
    _ ≤ q.len * maximum + maximum := Nat.add_le_add h.bytes_le hlength
    _ = (q.len + 1) * maximum := (Nat.succ_mul q.len maximum).symm
    _ ≤ frameQueueLimit * maximum := Nat.mul_le_mul_right maximum hroom
    _ = q.byteLimit := h.byteLimit.symm

theorem room_of_enqueue (h : q.Budgeted maximum) (henqueue : q.enqueue f = .ok q') :
    q.state = .opened ∧ q.len < frameQueueLimit := by
  have hstate := (FrameQueue.enqueue_eq henqueue).1
  refine ⟨hstate, ?_⟩
  by_contra hfull
  rw [← h.limit] at hfull
  have hcapacity : q.checkCapacity f.length = .error .full := by
    rw [checkCapacity, if_neg (not_not.mpr hstate)]
    split
    · rfl
    · exact if_pos (.inl (Nat.le_of_not_lt hfull))
  rw [FrameQueue.enqueue, hcapacity] at henqueue
  cases henqueue

theorem enqueue (h : q.Budgeted maximum) (henqueue : q.enqueue f = .ok q') (hlength : f.length ≤ maximum) :
    q'.Budgeted maximum := by
  have hroom := (h.room_of_enqueue henqueue).2
  rw [(FrameQueue.enqueue_eq henqueue).2]
  refine ⟨h.limit, h.byteLimit, ?_, fun g hg => ?_⟩
  · rw [len, List.length_append]
    exact hroom
  · obtain hg | hg := List.mem_append.mp hg
    · exact h.sizes g hg
    · rwa [List.mem_singleton.mp hg]

/-- The queue is open and not full exactly when it would take every frame of an admitted size. -/
theorem writable_iff (h : q.Budgeted maximum) (hmaximum : frameMinimum ≤ maximum) :
    q.state = .opened ∧ q.len < frameQueueLimit ↔
      ∀ f : Frame, frameMinimum ≤ f.length → f.length ≤ maximum → ∃ q', q.enqueue f = .ok q' := by
  refine ⟨fun hroom f _ hlength => ⟨_, h.enqueue_ok hroom.1 hroom.2 hlength⟩, fun htakes => ?_⟩
  obtain ⟨q', henqueue⟩ := htakes ⟨0, frameMinimum⟩ (Nat.le_refl _) hmaximum
  exact h.room_of_enqueue henqueue

end Budgeted

end FrameQueue

/-! ### Steps -/

section
variable {d d' : Device}

theorem evtIoWrite_budgeted {h : Handle} {input : WriteInput} {pc : WritePc} {flow : Flow WritePc Unit}
    (hstep : evtIoWrite d t h input choice pc = some (d', flow)) (hsized : pc.Sized maximum input)
    (hbudget : d.injection.queue.Budgeted maximum) : d'.injection.queue.Budgeted maximum := by
  cases pc <;> simp only [evtIoWrite] at hstep
  case lock | tryAdmit =>
    split at hstep <;> cases hstep <;> exact hbudget
  case allocate =>
    split at hstep
    · cases hstep
      exact hbudget
    · split at hstep <;> cases hstep <;> exact hbudget
  case enqueue f =>
    split at hstep <;> cases hstep
    · exact hbudget
    · rename_i queue henqueue
      exact hbudget.enqueue henqueue hsized
  all_goals
    cases hstep
    exact hbudget

theorem ReceiveStep.budgeted {pc : RxPc} {held : Option Frame} (h : ReceiveStep d pc d' held)
    (hheld : ∀ f, pc.heldFrame = some f → f.length ≤ maximum) (hbudget : d.injection.queue.Budgeted maximum) :
    d'.injection.queue.Budgeted maximum ∧ ∀ f, held = some f → f.length ≤ maximum := by
  cases h with
  | keep hqueue _ hkept =>
    rw [hqueue, hkept]
    exact ⟨hbudget, hheld⟩
  | take _ _ htaken hdequeue =>
    obtain ⟨hrest, hlength⟩ := hbudget.dequeue hdequeue
    refine ⟨hrest, fun g hg => ?_⟩
    cases htaken.symm.trans hg
    exact hlength
  | put hpc _ hnone henqueue =>
    subst hpc
    exact ⟨hbudget.enqueue henqueue (hheld _ rfl), by simp [hnone]⟩
  | place hqueue _ hnone | letGo hqueue _ hnone =>
    rw [hqueue]
    exact ⟨hbudget, by simp [hnone]⟩

end

/-- The frames that a callback has for the injection queue are of an admitted size. -/
structure Thread.InjectionSized (maximum : Nat) (th : Thread) : Prop where
  write : th.Sized maximum
  receive : ∀ f, th.receivedFrame = some f → f.length ≤ maximum

theorem stepThread_budgeted {next : Device × Thread} (hstep : stepThread d t choice th = some next)
    (hsized : th.InjectionSized d.frameMaximum) (hbudget : d.injection.queue.Budgeted d.frameMaximum) :
    next.1.injection.queue.Budgeted d.frameMaximum ∧ next.2.InjectionSized d.frameMaximum := by
  have hwrite := stepThread_sized hstep hsized.write
  by_cases hreceive : th.kind = .receive
  · cases th <;> simp only [Thread.kind, reduceCtorEq] at hreceive
    rename_i pc
    cases hstep
    obtain ⟨hqueue, hheld⟩ := (advanceReceive_step d t choice pc).budgeted hsized.receive hbudget
    rw [Thread.settle_eq] at hwrite ⊢
    cases hflow : (advanceReceive d t choice pc).2 with
    | run pc =>
      rw [hflow] at hheld hwrite
      exact ⟨hqueue, hwrite, hheld⟩
    | ret value => exact ⟨hqueue, trivial, by rintro _ ⟨⟩⟩
  · have hnext := Thread.receivedFrame_eq_none (stepThread_kind_ne hstep (by decide) hreceive)
    refine ⟨?_, hwrite, fun f hf => by rw [hnext] at hf; cases hf⟩
    by_cases hk : th.kind ∈ [.write, .cleanup, .d0Entry, .d0Exit]
    · cases th <;> simp [Thread.kind] at hk
      case write h input pc =>
        obtain ⟨⟨d', flow⟩, hresult, rfl⟩ := Option.map_eq_some_iff.mp hstep
        have hqueue := evtIoWrite_budgeted hresult hsized.write hbudget
        cases flow <;> exact hqueue
      case cleanup h pc =>
        obtain ⟨⟨d', flow⟩, hresult, rfl⟩ := Option.map_eq_some_iff.mp hstep
        have hqueue : d'.injection.queue.Budgeted d.frameMaximum := by
          cases evtFileCleanup_cases hresult with
          | clearInjection => exact hbudget.close
          | reopenInjection => exact hbudget.reopen
          | _ => exact hbudget
        cases flow <;> exact hqueue
      case d0Entry pc =>
        obtain ⟨⟨d', flow⟩, hresult, rfl⟩ := Option.map_eq_some_iff.mp hstep
        have hqueue : d'.injection.queue.Budgeted d.frameMaximum := by
          cases evtDeviceD0Entry_cases hresult with
          | reopenInjection => exact hbudget.reopen
          | _ => exact hbudget
        cases flow <;> exact hqueue
      case d0Exit pc =>
        obtain ⟨⟨d', flow⟩, hresult, rfl⟩ := Option.map_eq_some_iff.mp hstep
        have hqueue : d'.injection.queue.Budgeted d.frameMaximum := by
          cases evtDeviceD0Exit_cases hresult with
          | clearInjection => exact hbudget.close
          | _ => exact hbudget
        cases flow <;> exact hqueue
    · simp only [List.mem_cons, List.not_mem_nil, or_false, not_or] at hk
      rw [(stepThread_frames hstep).injectionQueue (by simp [hk, hreceive])]
      exact hbudget

/-! ### Runs -/

/-- The injection queue keeps to its budget, and so does what the callbacks have for it. -/
structure WithinBudget (s : Driver) : Prop where
  mtu : ∃ mtu, defaultMtu ≤ mtu ∧ mtu ≤ maximumMtu ∧ s.dev.frameMaximum = mtu + frameMinimum
  queue : s.dev.injection.queue.Budgeted s.dev.frameMaximum
  threads : ∀ t, (s.thr t).InjectionSized s.dev.frameMaximum

namespace WithinBudget

variable {s s' : Driver} {a : Action}

theorem keep (h : WithinBudget s) (hmaximum : d.frameMaximum = s.dev.frameMaximum)
    (hqueue : d.injection.queue.Budgeted s.dev.frameMaximum) (hth : th.InjectionSized s.dev.frameMaximum) :
    WithinBudget (s.setThread t d th) := by
  constructor <;> rw [Driver.setThread_dev, hmaximum]
  · exact h.mtu
  · exact hqueue
  · intro i
    by_cases hi : i = t
    · subst hi
      rwa [Driver.setThread_self]
    · rw [Driver.setThread_of_ne _ _ _ _ hi]
      exact h.threads i

theorem step (h : WithinBudget s) (hstep : stepDriver s a = some s') : WithinBudget s' := by
  cases stepDriver_cases hstep with
  | @start t a d th hidle hstart =>
    obtain ⟨_, _, _, _, _, _, _, _, hframe⟩ := hstart.frame
    refine h.keep (by rw [hframe]) (by rw [hframe]; exact h.queue) ?_
    cases hstart <;> exact ⟨trivial, nofun⟩
  | @framework a d hmove =>
    rw [s.setDev_eq 0]
    cases hmove <;> exact h.keep rfl h.queue (h.threads 0)
  | @packet t length passive gen captured hthr hlength => exact h.keep rfl h.queue ⟨trivial, nofun⟩
  | @advance t choice next hadvance =>
    obtain ⟨hqueue, hth⟩ := stepThread_budgeted hadvance (h.threads t) h.queue
    exact h.keep (stepThread_frames hadvance).frameMaximum hqueue hth

/-- A hardware callback changes the instance. -/
theorem hardware (h : WithinBudget s) (hmaximum : d.frameMaximum = s.dev.frameMaximum)
    (hqueue : d.injection.queue = s.dev.injection.queue ∨ d.injection.queue = s.dev.injection.queue.close) :
    WithinBudget { s with dev := d } := by
  rw [s.setDev_eq 0]
  refine h.keep hmaximum ?_ (h.threads 0)
  obtain hsame | hclosed := hqueue
  · rw [hsame]
    exact h.queue
  · rw [hclosed]
    exact h.queue.close

end WithinBudget

theorem InstanceReach.withinBudget {ok : Instance → InstanceAction → Prop} {s : Instance} (h : InstanceReach ok s) :
    WithinBudget s.driver := by
  refine InstanceReach.driver_invariant (fun mtu hdefault hmaximum => ?_) (fun _ _ _ => WithinBudget.step)
    (fun s choice pc d flow hbudget hstep => ?_) (fun s t choice pc d flow hbudget hstep => ?_) h
  · exact ⟨⟨mtu, hdefault, hmaximum, rfl⟩, .tryNew _, fun _ => ⟨trivial, nofun⟩⟩
  · cases hstep <;> exact hbudget.hardware rfl (.inl rfl)
  · cases hstep with
    | clearInjection => exact hbudget.hardware rfl (.inr rfl)
    | _ => exact hbudget.hardware rfl (.inl rfl)

/-- In every state that an added device reaches, the injection queue passes the WRITABLE test exactly when it would
take every frame that a WRITE may bring; and an open queue passes it exactly when `dequeue_injection_frame` would not
find it full. -/
theorem writable_readiness_exact {ok : Instance → InstanceAction → Prop} {s : Instance} (h : InstanceReach ok s) :
    ∃ mtu, 1500 ≤ mtu ∧ mtu ≤ 65521 ∧ s.driver.dev.frameMaximum = mtu + 14 ∧
      s.driver.dev.injection.queue.byteLimit = frameQueueLimit * (mtu + 14) ∧
      (s.driver.dev.env.writable = true ↔
        ∀ f : Frame, 14 ≤ f.length → f.length ≤ mtu + 14 → ∃ q', s.driver.dev.injection.queue.enqueue f = .ok q') ∧
      (s.driver.dev.injection.queue.state = .opened →
        (s.driver.dev.env.writable = true ↔
          ¬(s.driver.dev.injection.queue.state = .opened ∧
            s.driver.dev.injection.queue.len = frameQueueLimit))) := by
  obtain ⟨⟨mtu, hdefault, hmaximum, hmtu⟩, hqueue, -⟩ := InstanceReach.withinBudget h
  rw [hmtu] at hqueue
  have hwritable : s.driver.dev.env.writable = true ↔ s.driver.dev.injection.queue.state = .opened ∧
      s.driver.dev.injection.queue.len < frameQueueLimit := by
    rw [Device.env, Bool.and_eq_true, decide_eq_true_iff, decide_eq_true_iff]
  refine ⟨mtu, hdefault, hmaximum, hmtu, hqueue.byteLimit, ?_, fun hopen => ?_⟩
  · rw [hwritable]
    exact hqueue.writable_iff (Nat.le_add_left ..)
  · have hlength := hqueue.length
    rw [hwritable]
    exact ⟨fun hroom hfull => absurd hfull.2 (Nat.ne_of_lt hroom.2),
      fun hroom => ⟨hopen, Nat.lt_of_le_of_ne hlength fun hfull => hroom ⟨hopen, hfull⟩⟩⟩

/-- The queue is filled with WRITEs of the largest size. -/
def filledInjection : Instance :=
  instanceSystem.after (.added defaultMtu) (broughtUp ++ (.create 1 7 :: steps 1 2 ++
    (List.replicate frameQueueLimit (.write 2 7 ⟨1514, statusSuccess, 1514⟩ :: steps 2 11)).flatten).map .driver)

/-- An RX callback takes one frame from it. -/
def relievedInjection : Instance :=
  instanceSystem.after filledInjection ((.receive 3 :: steps 3 5).map .driver)

theorem filledInjection_eq :
    (filledInjection.driver.dev.injection.queue.bytes = filledInjection.driver.dev.injection.queue.byteLimit ∧
      filledInjection.driver.dev.frameMaximum = 1514 ∧ filledInjection.driver.dev.env.writable = false) ∧
    relievedInjection.driver.dev.injection.queue.len = 255 ∧
      relievedInjection.driver.dev.frameMaximum = 1514 ∧ relievedInjection.driver.dev.env.writable = true := by
  decide +kernel

/-- The full queue, which has no byte left either, refuses some frame; when an RX callback has taken one from it, it
takes every frame again. -/
theorem writable_readiness_exact_filled :
    filledInjection.driver.dev.injection.queue.bytes = filledInjection.driver.dev.injection.queue.byteLimit ∧
      (¬∀ f : Frame, 14 ≤ f.length → f.length ≤ 1514 →
        ∃ q', filledInjection.driver.dev.injection.queue.enqueue f = .ok q') ∧
      relievedInjection.driver.dev.injection.queue.len = 255 ∧
      ∀ f : Frame, 14 ≤ f.length → f.length ≤ 1514 →
        ∃ q', relievedInjection.driver.dev.injection.queue.enqueue f = .ok q' := by
  have hexact : ∀ {s : Instance}, InstanceReach Machine.Free s → s.driver.dev.frameMaximum = 1514 →
      (s.driver.dev.env.writable = true ↔
        ∀ f : Frame, 14 ≤ f.length → f.length ≤ 1514 → ∃ q', s.driver.dev.injection.queue.enqueue f = .ok q') := by
    intro s hreach hsize
    obtain ⟨mtu, -, -, hmtu, -, hexact, -⟩ := writable_readiness_exact hreach
    rwa [hmtu.symm.trans hsize] at hexact
  have hreach : InstanceReach Machine.Free filledInjection := Machine.System.reach_after (instanceReach_added _) _
  have hreach' : InstanceReach Machine.Free relievedInjection := Machine.System.reach_after hreach _
  obtain ⟨⟨hbytes, hsize, hfull⟩, hlen, hsize', hroom⟩ := filledInjection_eq
  refine ⟨hbytes, fun htakes => ?_, hlen, (hexact hreach' hsize').mp hroom⟩
  exact Bool.false_ne_true (hfull.symm.trans ((hexact hreach hsize).mpr htakes))

end WinTap

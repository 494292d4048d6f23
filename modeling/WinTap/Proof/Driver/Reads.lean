import WinTap.Base.Custody
import WinTap.Proof.Driver.Frames

/-!
# Who holds a READ request

A READ is held by the callback that is serving it, waits in the manual queue, or has been completed. Three
paths serve READs: the READ callback, the worker, and direct delivery from the TX callback. Each takes a
request from the queue or from the framework, and gives it up by forwarding or completing it. So a request
is completed at most once, as long as nobody completes a request that another path holds; the stop callback
of the manual queue does exactly that.
-/

namespace WinTap

variable {d d' : Device} {th : Thread} {t : ThreadId} {s : Driver}

/-! ### Holders -/

/-- A READ callback holds its request until it has completed or forwarded it. -/
def ReadPc.held (r : Read) : ReadPc → Option Read
  | .releaseRequest | .drop => none
  | _ => some r

def DrainPc.held : DrainPc → Option Read
  | .take _ r _ | .release _ r _ | .deliver _ r _ | .requeue _ r _ _ _ | .complete r _ | .forward r
  | .forwardFailed r _ => some r
  | _ => none

def WorkPc.held : WorkPc → Option Read
  | .wait _ => none
  | .drain pc => pc.held

def PacketPc.held : PacketPc → Option Read
  | .releaseRead r | .addClaim r | .complete r => some r
  | _ => none

def TxPc.held : TxPc → Option Read
  | .packet _ _ _ pc => pc.held
  | _ => none

/-- The READ request a callback is serving. -/
def Thread.heldRead : Thread → Option Read
  | .read r pc => pc.held r
  | .worker pc => pc.held
  | .transmit _ pc => pc.held
  | _ => none

def Event.completedRead : Event → Option Read
  | .readCompleted r _ _ => some r
  | _ => none

/-- The READ requests the driver has completed, newest first. -/
def Device.completedReads (d : Device) : List Read := d.log.filterMap Event.completedRead

/-! ### What a step does to the requests -/

/-- A step that neither moves a request nor changes who holds it, or moves one. -/
abbrev ReadMove (held : Option Read) (d : Device) (held' : Option Read) (d' : Device) : Prop :=
  Custody.Move held d.readQueue.waiting d.completedReads held' d'.readQueue.waiting d'.completedReads

/-- A step that moves no request. -/
structure SameReads (d d' : Device) : Prop where
  waiting : d'.readQueue.waiting = d.readQueue.waiting
  completedReads : d'.completedReads = d.completedReads

theorem SameReads.readMove {held held' : Option Read} (h : SameReads d d') (hheld : held' = held) :
    ReadMove held d held' d' := by
  rw [ReadMove, h.waiting, h.completedReads, hheld]
  exact .keep

section
variable (d : Device) (t : ThreadId) (choice : Choice)

theorem enqueueExistingCaptureFrame_sameReads (f : Frame) (pc : StorePc) :
    SameReads d (enqueueExistingCaptureFrame d t f pc).1 := by
  cases pc with
  | enqueue =>
    simp only [enqueueExistingCaptureFrame]
    split <;> exact ⟨rfl, rfl⟩
  | generation wasEmpty => exact ⟨rfl, rfl⟩
  | claim pc => exact ⟨rfl, rfl⟩

theorem dequeueCaptureFrame_sameReads (pc : TakePc) : SameReads d (dequeueCaptureFrame d pc).1 := by
  obtain ⟨_, h⟩ := dequeueCaptureFrame_frame d pc
  rw [h]
  exact ⟨rfl, rfl⟩

theorem requeueCaptureFrameAndScheduleWait_sameReads (f : Frame) (gen : Word) (pc : RequeuePc) :
    SameReads d (requeueCaptureFrameAndScheduleWait d t f gen pc).1 := by
  cases pc with
  | lease =>
    simp only [requeueCaptureFrameAndScheduleWait]
    split <;> exact ⟨rfl, rfl⟩
  | lifecycle => exact ⟨rfl, rfl⟩
  | owner => exact ⟨rfl, rfl⟩
  | store pc => exact enqueueExistingCaptureFrame_sameReads d t f pc
  | drop => exact ⟨rfl, rfl⟩

theorem evtIoRead_readMove (r : Read) (pc : ReadPc) :
    ReadMove (pc.held r) d ((evtIoRead d t r choice pc).2.on (ReadPc.held r) none)
      (evtIoRead d t r choice pc).1 := by
  cases pc with
  | lease | tryAdmit gen | lifecycle | adaptive gen =>
    simp only [evtIoRead]
    split <;> exact .keep
  | poll gen pc | take gen pc =>
    exact (dequeueCaptureFrame_sameReads d pc).readMove (call_on (fun _ => rfl) fun value => by cases value <;> rfl)
  | requeue gen f status pc =>
    exact (requeueCaptureFrameAndScheduleWait_sameReads d t f gen pc).readMove (call_on (fun _ => rfl) fun _ => rfl)
  | deliver gen f =>
    simp only [evtIoRead]
    obtain hdone | ⟨status, hstatus, hfail⟩ := completeCapturedFrameToRead_cases d choice r f
    · rw [hdone]
      exact .retire
    · rw [hfail]
      simp only [if_neg hstatus]
      exact .keep
  | forward =>
    simp only [evtIoRead]
    split
    · exact .put
    · exact .keep
  | forwardFailed | complete | refuse => exact .retire
  | owner | release | releaseRequest | drop => exact .keep

theorem drainReads_readMove (pc : DrainPc) :
    ReadMove pc.held d ((drainReads d t choice pc).2.on DrainPc.held none)
      (drainReads d t choice pc).1 := by
  cases pc with
  | lease | lifecycle =>
    simp only [drainReads]
    split <;> exact .keep
  | retrieve gen =>
    simp only [drainReads, retrieveNextRequest]
    cases hwaiting : d.readQueue.waiting with
    | nil => exact .keep
    | cons r rest =>
      rw [ReadMove, hwaiting]
      exact .take
  | take gen r pc =>
    exact (dequeueCaptureFrame_sameReads d pc).readMove (call_on (fun _ => rfl) fun value => by cases value <;> rfl)
  | requeue gen r f status pc =>
    exact (requeueCaptureFrameAndScheduleWait_sameReads d t f gen pc).readMove (call_on (fun _ => rfl) fun _ => rfl)
  | deliver gen r f =>
    simp only [drainReads]
    obtain hdone | ⟨status, hstatus, hfail⟩ := completeCapturedFrameToRead_cases d choice r f
    · rw [hdone]
      exact .retire
    · rw [hfail]
      simp only [if_neg hstatus]
      exact .keep
  | forward r =>
    simp only [drainReads]
    split
    · exact .put
    · exact .keep
  | forwardFailed | complete => exact .retire
  | owner | release | again | releaseRequest | stop => exact .keep

theorem evtReadCompletionWorkItem_readMove (pc : WorkPc) :
    ReadMove pc.held d ((evtReadCompletionWorkItem d t choice pc).2.on WorkPc.held none)
      (evtReadCompletionWorkItem d t choice pc).1 := by
  cases pc with
  | wait pc =>
    exact SameReads.readMove ⟨rfl, rfl⟩ (call_on (fun _ => rfl) fun took => by cases took <;> rfl)
  | drain pc =>
    exact call_of (fun d' held => ReadMove _ d held d') (drainReads_readMove d t choice pc) (fun _ => rfl)
      fun again => by cases again <;> rfl

theorem capturePacket_readMove (passive : Bool) (gen : Word) (f : Frame) (pc : PacketPc) :
    ReadMove pc.held d ((capturePacket d t passive gen f choice pc).2.on PacketPc.held none)
      (capturePacket d t passive gen f choice pc).1 := by
  cases pc with
  | adaptive | lockDirect | directAdaptive | directLifecycle | directOwner | allocate | lifecycle | owner =>
    simp only [capturePacket]
    split <;> exact .keep
  | retrieve =>
    simp only [capturePacket, retrieveNextRequest]
    cases hwaiting : d.readQueue.waiting with
    | nil => exact .keep
    | cons r rest =>
      rw [ReadMove, hwaiting]
      exact .take
  | complete r =>
    simp only [capturePacket]
    obtain hdone | ⟨status, hstatus, hfail⟩ := completeCapturedFrameToRead_cases d choice r f
    · rw [hdone]
      exact .retire
    · rw [hfail]
      simp only [if_neg hstatus]
      exact .retire
  | unlockDirect delivered => cases delivered <;> exact .keep
  | store adaptive pc =>
    exact (enqueueExistingCaptureFrame_sameReads d t f pc).readMove (call_on (fun _ => rfl) fun _ => rfl)
  | releaseRead | addClaim | releaseClaim | loadAdaptive => exact .keep

theorem advanceTransmit_readMove (passive : Bool) (pc : TxPc) :
    ReadMove pc.held d ((advanceTransmit d t passive choice pc).2.on TxPc.held none)
      (advanceTransmit d t passive choice pc).1 := by
  cases pc with
  | lease | lifecycle | ring gen captured =>
    simp only [advanceTransmit]
    split <;> exact .keep
  | packet gen captured f pc =>
    exact call_of (fun d' held => ReadMove _ d held d') (capturePacket_readMove d t choice passive gen f pc)
      (fun _ => rfl) fun _ => rfl
  | owner | queueWork | drop => exact .keep

/-! ### The callbacks that serve no READ -/

theorem evtFileCleanup_waiting {h : Handle} {pc : CleanupPc} {flow : Flow CleanupPc Unit}
    (hstep : evtFileCleanup d t h choice pc = some (d', flow)) : d'.readQueue.waiting.Sublist d.readQueue.waiting := by
  cases evtFileCleanup_cases hstep with
  | purge owns _ => exact List.nil_sublist _
  | _ => exact .refl _

theorem evtDeviceD0Exit_waiting {pc : D0ExitPc} {flow : Flow D0ExitPc Unit}
    (hstep : evtDeviceD0Exit d t choice pc = some (d', flow)) : d'.readQueue.waiting.Sublist d.readQueue.waiting := by
  cases evtDeviceD0Exit_cases hstep with
  | purge _ => exact List.nil_sublist _
  | _ => exact .refl _

/-- Waiting requests are cancelled at most. -/
structure FewerReads (d d' : Device) : Prop where
  waiting : d'.readQueue.waiting.Sublist d.readQueue.waiting
  completedReads : d'.completedReads = d.completedReads

end

/-! ### The invariant -/

/-- Every READ request is in one place, and its number has been given out. -/
structure ReadInv (s : Driver) : Prop where
  custody : Custody (fun t => (s.thr t).heldRead) s.dev.readQueue.waiting s.dev.completedReads
  issued : ∀ t r,
    Custody.Has (s.thr t).heldRead s.dev.readQueue.waiting s.dev.completedReads r → r.id < s.dev.nextRead

namespace ReadInv

variable {th' : Thread}

theorem move (h : ReadInv s) (hm : ReadMove (s.thr t).heldRead s.dev th'.heldRead d')
    (hnext : d'.nextRead = s.dev.nextRead) : ReadInv (s.setThread t d' th') where
  custody := by
    rw [s.setThread_map _ _ _ Thread.heldRead]
    exact h.custody.move hm
  issued i r hr := by
    have hsame : (s.setThread t d' th').dev.nextRead = s.dev.nextRead := hnext
    rw [hsame]
    by_cases hi : i = t
    · subst hi
      simp only [Driver.setThread, Function.update_self] at hr
      exact h.issued i r ((hm.has_iff r).mp hr)
    · simp only [Driver.setThread, Function.update_of_ne hi] at hr
      obtain hheld | hrest := hr
      · exact h.issued i r (.inl hheld)
      · exact h.issued t r ((hm.has_iff r).mp (.inr hrest))

theorem fewer (h : ReadInv s) (hf : FewerReads s.dev d') (hheld : th'.heldRead = (s.thr t).heldRead)
    (hnext : d'.nextRead = s.dev.nextRead) : ReadInv (s.setThread t d' th') where
  custody := by
    rw [s.setThread_map _ _ _ Thread.heldRead, hheld, Function.update_eq_self]
    have hthin := h.custody.thin hf.waiting
    rwa [← hf.completedReads] at hthin
  issued i r hr := by
    have hsame : (s.setThread t d' th').dev.nextRead = s.dev.nextRead := hnext
    rw [hsame]
    rw [s.setThread_keep t d' th' hheld] at hr
    refine h.issued i r (hr.imp_right fun hr => hr.imp (fun hw => hf.waiting.subset hw) fun hg => ?_)
    exact hf.completedReads ▸ hg

end ReadInv

/-- What a step of a callback does to the READ requests: it moves one, or cancels waiting ones. -/
def ReadStep (held : Option Read) (d : Device) (held' : Option Read) (d' : Device) : Prop :=
  ReadMove held d held' d' ∨ FewerReads d d' ∧ held' = held

theorem Thread.heldRead_eq_none (hk : th.kind ∉ [.read, .worker, .transmit]) : th.heldRead = none := by
  cases th <;> first | rfl | simp [Thread.kind] at hk

theorem Logs.completedReads {k : Kind} (h : Logs k d d') (hk : k ∉ [.read, .worker, .transmit, .stopRead]) :
    d'.completedReads = d.completedReads := by
  obtain hlog | ⟨e, hlog, hauthor⟩ := h
  · rw [Device.completedReads, hlog]
    rfl
  · have he : e.completedRead = none := by
      cases e <;> first | rfl | exact absurd hauthor hk
    rw [Device.completedReads, hlog, List.filterMap_cons_none he]
    rfl

theorem settle_readQueue {π : Type} (th : Thread) (inside : π → Thread)
    (result : Device × Flow π Unit) :
    (th.settle inside result).1.readQueue = result.1.readQueue := by
  obtain ⟨_, _, _, _, _, _, _, hframe⟩ := th.settle_frame inside result
  rw [hframe]

theorem settle_reads {π : Type} {inside : π → Thread} {result : Device × Flow π Unit} (hth : ∀ h pc, th ≠ .cleanup h pc)
    (hmove : ReadMove th.heldRead d (result.2.on (fun pc => (inside pc).heldRead) none) result.1) :
    ReadStep th.heldRead d (th.settle inside result).2.heldRead (th.settle inside result).1 := by
  have hheld : (th.settle inside result).2.heldRead
      = result.2.on (fun pc => (inside pc).heldRead) none := by
    rw [Thread.settle_eq]
    cases result.2 <;> rfl
  have hlog : (th.settle inside result).1.completedReads = result.1.completedReads :=
    congrArg (List.filterMap Event.completedRead) (Thread.settle_log inside result hth)
  refine .inl ?_
  rwa [ReadMove, hheld, settle_readQueue, hlog]

/-- Every step of a callback but the stop callback of the manual queue. -/
theorem stepThread_reads {choice : Choice} {next : Device × Thread} (hstop : th.kind ≠ .stopRead)
    (hstep : stepThread d t choice th = some next) : ReadStep th.heldRead d next.2.heldRead next.1 := by
  have hframes := stepThread_frames hstep
  have hlogs := stepThread_logs hstep
  have hkind := stepThread_kind hstep
  by_cases hserves : th.kind ∈ [.read, .worker, .transmit]
  · cases th <;> simp only [stepThread] at hstep
    case read r pc =>
      cases hstep
      exact settle_reads (fun _ _ => Thread.noConfusion) (evtIoRead_readMove d t choice r pc)
    case worker pc =>
      cases hstep
      exact settle_reads (fun _ _ => Thread.noConfusion) (evtReadCompletionWorkItem_readMove d t choice pc)
    case transmit passive pc =>
      cases hstep
      exact settle_reads (fun _ _ => Thread.noConfusion) (advanceTransmit_readMove d t choice passive pc)
    all_goals simp [Thread.kind] at hserves
  · have hnone : next.2.heldRead = none := by
      obtain hidle | hsame := hkind
      · rw [hidle]
        rfl
      · exact Thread.heldRead_eq_none (hsame ▸ hserves)
    refine .inr ⟨⟨?_, ?_⟩, hnone.trans (Thread.heldRead_eq_none hserves).symm⟩
    · by_cases hpurges : th.kind ∈ [.cleanup, .d0Exit]
      · cases th <;> simp only [stepThread] at hstep
        case cleanup h pc =>
          obtain ⟨⟨d', flow⟩, hcleanup, rfl⟩ := Option.map_eq_some_iff.mp hstep
          rw [settle_readQueue]
          exact evtFileCleanup_waiting d t choice hcleanup
        case d0Exit pc =>
          obtain ⟨⟨d', flow⟩, hexit, rfl⟩ := Option.map_eq_some_iff.mp hstep
          rw [settle_readQueue]
          exact evtDeviceD0Exit_waiting d t choice hexit
        all_goals simp [Thread.kind] at hpurges
      · rw [hframes.waiting (by simp only [List.mem_cons, List.not_mem_nil, or_false] at *; tauto)]
    · exact hlogs.completedReads (by simp only [List.mem_cons, List.not_mem_nil, or_false] at *; tauto)

/-! ### Runs -/

/-- The framework does not call the stop callback of the manual queue. It would call it for a READ that
the driver has retrieved and neither completed nor forwarded back, so for one that a path holds. -/
def NoReadStop (_ : Driver) (a : Action) : Prop := a.kind ≠ .stopRead

namespace ReadInv

variable {s s' : Driver} {a : Action}

theorem init (h : driverSystem.init s) : ReadInv s := by
  obtain ⟨⟨mtu, -, -, hdev⟩, hidle⟩ := h
  refine ⟨?_, ?_⟩
  · rw [hdev]
    refine Custody.initial fun t => ?_
    rw [hidle t]
    rfl
  · intro t r hr
    rw [hdev, hidle t] at hr
    simp [Custody.Has, Thread.heldRead, Device.initial, Device.completedReads] at hr

/-- A request that starts gets a number no other request has. -/
theorem issue (h : ReadInv s) {r : Read} (hid : r.id = s.dev.nextRead) :
    ReadInv (s.setThread t { s.dev with nextRead := s.dev.nextRead + 1 } (.read r .lease)) where
  custody := by
    have hfresh : ∀ i, ¬Custody.Has (s.thr i).heldRead s.dev.readQueue.waiting s.dev.completedReads r :=
      fun i hi => absurd (h.issued i r hi) (by omega)
    rw [s.setThread_map _ _ _ Thread.heldRead]
    refine h.custody.issue ?_ ?_ ?_
    · exact fun hr => hfresh t (.inr (.inl hr))
    · exact fun hr => hfresh t (.inr (.inr hr))
    · exact fun i hi => hfresh i (.inl hi)
  issued i q hq := by
    change q.id < s.dev.nextRead + 1
    by_cases hi : i = t
    · subst hi
      obtain hq | hq := hq
      · simp only [Driver.setThread, Function.update_self, Thread.heldRead, ReadPc.held,
          Option.some.injEq] at hq
        rw [← hq, hid]
        exact Nat.lt_succ_self _
      · exact Nat.lt_succ_of_lt (h.issued i q (.inr hq))
    · simp only [Driver.setThread, Function.update_of_ne hi] at hq
      exact Nat.lt_succ_of_lt (h.issued i q hq)

theorem step (h : ReadInv s) (hstop : ∀ t, (s.thr t).kind ≠ .stopRead)
    (hstep : stepDriver s a = some s') : ReadInv s' := by
  cases stepDriver_cases hstep with
  | @start t a d th hidle hstart =>
    have hheld : (s.thr t).heldRead = none := by rw [hidle]; rfl
    cases hstart
    case read => exact h.issue rfl
    all_goals
      refine h.move ?_ rfl
      rw [hheld]
      exact .keep
  | @framework a d hmove =>
    rw [s.setDev_eq 0]
    cases hmove
    case cancelRead r hwaiting => exact h.fewer ⟨List.erase_sublist, rfl⟩ rfl rfl
    all_goals exact h.fewer ⟨.refl _, rfl⟩ rfl rfl
  | @packet t length passive gen captured hthr hlength =>
    refine h.move ?_ rfl
    rw [hthr]
    exact .keep
  | @advance t choice next hadvance =>
    have hnext := (stepThread_frames hadvance).nextRead
    obtain hmove | ⟨hfewer, hheld⟩ := stepThread_reads (hstop t) hadvance
    · exact h.move hmove hnext
    · exact h.fewer hfewer hheld hnext

end ReadInv

theorem DriverReach.reads (h : DriverReach NoReadStop s) : ReadInv s := by
  refine h.invariant (fun _ => ReadInv.init) fun s a s' hs hinv _ hstep => hinv.step ?_ hstep
  intro t hk
  refine DriverReach.avoids [.stopRead] hs (by decide) ?_ t (List.mem_singleton.mpr hk)
  exact fun _ _ hok hmem => hok (List.mem_singleton.mp hmem)

/-- In every run in which the framework does not call the stop callback of the manual queue, the driver
completes every READ at most once. -/
theorem read_completed_at_most_once {s : Driver} (h : DriverReach NoReadStop s) (r : Read) :
    s.dev.completedReads.count r ≤ 1 :=
  List.nodup_iff_count_le_one.mp (DriverReach.reads h).custody.gone_nodup r

/-- A READ is parked, a frame is captured, and the worker retrieves the READ for it. -/
def retrievedRead : List Action :=
  [.create 0 7] ++ steps 0 2 ++ [.read 1 7 1514] ++ steps 1 8 ++ [.transmit 2 false] ++ steps 2 3
    ++ [.packet 2 60] ++ steps 2 11 ++ [.work 3] ++ steps 3 5

/-- The worker completes the READ it retrieved. -/
theorem read_completed_at_most_once_delivered :
    (driverSystem.after .initial (retrievedRead ++ steps 3 4)).dev.completedReads = [⟨0, 7, 1514⟩] ∧
      (driverSystem.after .initial (retrievedRead ++ steps 3 4)).dev.completedReads.count
        ⟨0, 7, 1514⟩ ≤ 1 :=
  ⟨by decide +kernel, read_completed_at_most_once
    (Machine.System.reach_after_of (fun _ a ha => by
      have hall : ∀ b ∈ retrievedRead ++ steps 3 4, b.kind ≠ .stopRead := by decide +kernel
      exact hall a ha) (driverReach_initial _)) _⟩

/-- The framework stops the manual queue while the worker holds the READ: the stop callback completes it,
and then the worker does. -/
theorem read_completed_twice :
    ∃ s r, DriverReach Machine.Free s ∧ s.dev.completedReads.count r = 2 :=
  ⟨driverSystem.after .initial
      (retrievedRead ++ [.stopRead 4 ⟨0, 7, 1514⟩] ++ steps 4 2 ++ steps 3 4),
    ⟨0, 7, 1514⟩, Machine.System.reach_after (driverReach_initial _) _, by decide +kernel⟩

end WinTap

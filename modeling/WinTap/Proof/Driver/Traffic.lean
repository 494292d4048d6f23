import WinTap.Proof.Driver.Captures
import WinTap.Proof.Driver.Injection
import WinTap.Proof.Driver.Quiesced

/-!
# Frames under teardown

Teardown empties both queues, and a path that finds its owner retired or its queue closed lets go of the frame in its
hand. So frames get lost when somebody closes, but that is all: through any interleaving with cleanups, power and
hardware transitions a frame is in one place, in the direction it came in, and keeps its length. Each direction is a
custody of its own whose steps may lapse, and the serial numbers keep the two apart.
-/

namespace WinTap

variable {d d' : Device} {t : ThreadId} {choice : Choice} {th th' : Thread} {next : Device × Thread}

/-! ### The places of a direction -/

/-- The frame that a WRITE has allocated and not enqueued. -/
def WritePc.frame : WritePc → Option Frame
  | .enqueue f => some f
  | _ => none

/-- The frame that a callback has in hand, by direction. -/
def Thread.inHand : Side → Thread → Option Frame
  | .capture, th => th.carriedFrame
  | .receive, .receive pc => pc.heldFrame
  | .receive, .write _ _ pc => pc.frame
  | .receive, _ => none

/-- The queue of a direction. -/
def Device.queued (d : Device) : Side → List Frame
  | .capture => d.capture.queue.frames
  | .receive => d.injection.queue.frames

/-- What has left the driver: the frames that READs returned, and those the network stack was given, newest first. -/
def Device.departed (d : Device) : Side → List Frame
  | .capture => d.deliveredFrames
  | .receive => d.log.filterMap Event.indicatedFrame

/-- What a step of a callback does to the frames of a direction. -/
def LaneStep (side : Side) (th : Thread) (d : Device) (th' : Thread) (d' : Device) : Prop :=
  Custody.Lapse (th.inHand side) (d.queued side) (d.departed side) (th'.inHand side) (d'.queued side)
    (d'.departed side)

theorem LaneStep.same {side : Side} (hhand : th'.inHand side = th.inHand side)
    (hqueued : d'.queued side = d.queued side) (hdeparted : d'.departed side = d.departed side) :
    LaneStep side th d th' d' := by
  unfold LaneStep
  rw [hhand, hqueued, hdeparted]
  exact .move .keep

theorem LaneStep.letsGo (hnone : th'.carriedFrame = none) (hsame : SameFrames d d') :
    LaneStep .capture th d th' d' := by
  change Custody.Lapse th.carriedFrame d.capture.queue.frames d.deliveredFrames th'.carriedFrame
    d'.capture.queue.frames d'.deliveredFrames
  rw [hnone, hsame.frames, hsame.delivered]
  exact .letGo

/-! ### The capture direction -/

section
variable (d t choice)

end

theorem settle_letsGo {π : Type} {inside : π → Thread} {result : Device × Flow π Unit}
    (hth : th.kind ∈ [.read, .worker]) (hinside : ∀ pc, (inside pc).kind = th.kind)
    (h : result.2.on (fun pc => (inside pc).heldFrame) none = none ∧ SameFrames d result.1) :
    LaneStep .capture th d (th.settle inside result).2 (th.settle inside result).1 := by
  have hcleanup : ∀ h pc, th ≠ .cleanup h pc := by
    rintro h pc rfl
    simp [Thread.kind] at hth
  have hnone : (th.settle inside result).2.carriedFrame = none := by
    rw [Thread.settle_eq]
    obtain ⟨hheld, -⟩ := h
    cases hflow : result.2 with
    | run pc =>
      rw [hflow] at hheld
      have hkind : (inside pc).kind ∈ [.read, .worker] := hinside pc ▸ hth
      have hnew : (inside pc).newFrame = none := by
        cases hpc : inside pc <;> first | rfl | simp [hpc, Thread.kind] at hkind
      change (inside pc).heldFrame.or (inside pc).newFrame = none
      rw [show (inside pc).heldFrame = none from hheld, hnew]
      rfl
    | ret value => rfl
  exact .letsGo hnone (h.2.trans (settle_sameFrames hcleanup))

theorem Logs.indicated {k : Kind} (h : Logs k d d') (hk : k ≠ .receive) :
    d'.departed .receive = d.departed .receive := by
  obtain hlog | ⟨e, hlog, hauthor⟩ := h
  · rw [Device.departed, hlog, Device.departed]
  · have hnone : e.indicatedFrame = none := by
      cases e with
      | indicated f => exact absurd (List.mem_singleton.mp hauthor) hk
      | _ => rfl
    simp only [Device.departed, hlog, List.filterMap_cons_none hnone]

/-- The steps of the teardown paths either keep a queue or empty it. -/
theorem stepThread_teardown_queued (hstep : stepThread d t choice th = some next)
    (hk : th.kind ∈ [.cleanup, .d0Entry, .d0Exit]) (side : Side) :
    next.1.queued side = d.queued side ∨ next.1.queued side = [] := by
  have hsettle : ∀ {π : Type} (inside : π → Thread) (result : Device × Flow π Unit),
      (th.settle inside result).1.queued side = result.1.queued side := by
    intro π inside result
    obtain ⟨_, _, _, _, _, _, _, hframe⟩ := th.settle_frame inside result
    rw [hframe]
    cases side <;> rfl
  cases th <;> simp [Thread.kind] at hk
  case cleanup h pc =>
    obtain ⟨⟨d', flow⟩, hcleanup, rfl⟩ := Option.map_eq_some_iff.mp hstep
    rw [hsettle]
    cases evtFileCleanup_cases hcleanup <;> cases side <;> first | exact .inl rfl | exact .inr rfl
  case d0Entry pc =>
    obtain ⟨⟨d', flow⟩, hentry, rfl⟩ := Option.map_eq_some_iff.mp hstep
    rw [hsettle]
    cases evtDeviceD0Entry_cases hentry <;> cases side <;> first | exact .inl rfl | exact .inr rfl
  case d0Exit pc =>
    obtain ⟨⟨d', flow⟩, hexit, rfl⟩ := Option.map_eq_some_iff.mp hstep
    rw [hsettle]
    cases evtDeviceD0Exit_cases hexit <;> cases side <;> first | exact .inl rfl | exact .inr rfl

theorem Thread.inHand_eq_none (hk : th.kind ∉ [.read, .worker, .transmit, .receive, .write]) (side : Side) :
    th.inHand side = none := by
  cases th <;> first | (cases side <;> rfl) | simp [Thread.kind] at hk

theorem stepThread_teardown_lane (hstep : stepThread d t choice th = some next)
    (hk : th.kind ∈ [.cleanup, .d0Entry, .d0Exit]) (side : Side) : LaneStep side th d next.2 next.1 := by
  have hdeparted : next.1.departed side = d.departed side := by
    have hlogs := stepThread_logs hstep
    cases side with
    | capture => exact (hlogs.sameFrames (by simp at hk ⊢; grind)).1
    | receive => exact hlogs.indicated (by simp at hk; grind)
  have hnone : th.kind ∉ [.read, .worker, .transmit, .receive, .write] := by simp at hk ⊢; grind
  have hbefore := Thread.inHand_eq_none hnone side
  have hafter := Thread.inHand_eq_none (stepThread_kind_not_mem hstep (by decide) hnone) side
  unfold LaneStep
  rw [hbefore, hafter, hdeparted]
  obtain hkeep | hempty := stepThread_teardown_queued hstep hk side
  · rw [hkeep]
    exact .move .keep
  · rw [hempty]
    exact .thin (List.nil_sublist _)

/-- In the capture direction every step lapses at most. -/
theorem stepThread_capture_lane (hstep : stepThread d t choice th = some next) :
    LaneStep .capture th d next.2 next.1 := by
  by_cases hteardown : th.kind ∈ [.cleanup, .d0Entry, .d0Exit]
  · exact stepThread_teardown_lane hstep hteardown .capture
  by_cases hthrough : th.putBackGoesThrough d
  · obtain hmove | ⟨-, hnone, hsame⟩ := (stepThread_threadFrames hteardown hthrough hstep).step
    · exact .move hmove.move
    · exact .letsGo hnone hsame
  · cases th with
    | read r pc =>
      cases hstep
      exact settle_letsGo (by simp [Thread.kind]) (fun _ => rfl) (evtIoRead_letsGo d t choice hthrough)
    | worker pc =>
      cases hstep
      exact settle_letsGo (by simp [Thread.kind]) (fun _ => rfl) (evtReadCompletionWorkItem_letsGo d t choice hthrough)
    | _ => exact absurd trivial hthrough

/-! ### The receive direction -/

theorem ReceiveStep.lane {pc : RxPc} {held : Option Frame} (h : ReceiveStep d pc d' held) :
    Custody.Lapse pc.heldFrame (d.queued .receive) (d.departed .receive) held (d'.queued .receive)
      (d'.departed .receive) := by
  simp only [Device.queued, Device.departed]
  cases h with
  | keep hqueue hlog hheld =>
    rw [hqueue, hlog, hheld]
    exact .move .keep
  | take hnone hlog hheld hdequeue =>
    rw [hnone, hlog, hheld, (FrameQueue.dequeue_eq hdequeue).1]
    exact .move .take
  | place hqueue hlog hheld hf =>
    rw [hqueue, hlog, hheld, hf]
    exact .move .retire
  | put hpc hlog hheld henqueue =>
    subst hpc
    rw [hlog, hheld, (FrameQueue.enqueue_eq henqueue).2]
    exact .move .put
  | letGo hqueue hlog hheld =>
    rw [hqueue, hlog, hheld]
    exact .letGo

/-- A WRITE that allocates its frame. -/
structure Allocates (d : Device) (th : Thread) (next : Device × Thread) : Prop where
  dev : next.1 = { d with nextSerial := d.nextSerial + 1 }
  frame : ∃ h input, th = .write h input .allocate ∧ frameMinimum ≤ input.inputLength ∧
    next.2 = .write h input (.enqueue ⟨d.nextSerial, input.inputLength⟩)

theorem evtIoWrite_lane {h : Handle} {input : WriteInput} {pc : WritePc}
    (hstep : stepThread d t choice (.write h input pc) = some next) :
    LaneStep .receive (.write h input pc) d next.2 next.1 ∨ Allocates d (.write h input pc) next := by
  obtain ⟨⟨d', flow⟩, hwrite, rfl⟩ := Option.map_eq_some_iff.mp hstep
  have hsame : ∀ {th' : Thread} {d' : Device}, pc.frame = none → th'.inHand .receive = none →
      d'.queued .receive = d.queued .receive → d'.departed .receive = d.departed .receive →
      LaneStep .receive (.write h input pc) d th' d' :=
    fun hpc hth hqueued hdeparted => .same (hth.trans hpc.symm) hqueued hdeparted
  cases pc with
  | allocate =>
    simp only [evtIoWrite] at hwrite
    split at hwrite
    · cases hwrite
      exact .inl (hsame rfl rfl rfl rfl)
    · rename_i hlength
      split at hwrite <;> cases hwrite
      · exact .inl (hsame rfl rfl rfl rfl)
      · exact .inr ⟨rfl, h, input, rfl, (not_not.mp hlength).1, rfl⟩
  | enqueue f =>
    refine .inl ?_
    simp only [evtIoWrite] at hwrite
    split at hwrite <;> cases hwrite
    · exact .letGo
    · rename_i queue henqueue
      change Custody.Lapse (some f) d.injection.queue.frames _ none queue.frames _
      rw [(FrameQueue.enqueue_eq henqueue).2]
      exact .move .put
  | lock =>
    simp only [evtIoWrite] at hwrite
    split at hwrite <;> cases hwrite
    exact .inl (hsame rfl rfl rfl rfl)
  | lifecycle =>
    cases hwrite
    refine .inl (hsame rfl ?_ rfl rfl)
    simp only [Thread.settle]
    repeat' split
    all_goals rfl
  | tryAdmit =>
    simp only [evtIoWrite] at hwrite
    split at hwrite <;> cases hwrite
    · exact .inl (hsame rfl rfl rfl rfl)
    · refine .inl (hsame rfl ?_ rfl rfl)
      simp only [Thread.settle]
      split <;> rfl
  | capacity =>
    cases hwrite
    refine .inl (hsame rfl ?_ rfl rfl)
    simp only [Thread.settle]
    split <;> rfl
  | completeAccepted notify =>
    cases hwrite
    cases notify <;> exact .inl (hsame rfl rfl rfl rfl)
  | _ =>
    cases hwrite
    exact .inl (hsame rfl rfl rfl rfl)

/-- In the receive direction every step lapses at most, or allocates the frame of a WRITE. -/
theorem stepThread_receive_lane (hstep : stepThread d t choice th = some next) :
    LaneStep .receive th d next.2 next.1 ∨ Allocates d th next := by
  by_cases hteardown : th.kind ∈ [.cleanup, .d0Entry, .d0Exit]
  · exact .inl (stepThread_teardown_lane hstep hteardown .receive)
  by_cases hserves : th.kind ∈ [.receive, .write]
  · cases th <;> simp [Thread.kind] at hserves
    case receive pc =>
      cases hstep
      have hlane := (advanceReceive_step d t choice pc).lane
      refine .inl ?_
      rw [Thread.settle_eq]
      cases hflow : (advanceReceive d t choice pc).2 <;> rw [hflow] at hlane <;> exact hlane
    case write h input pc => exact evtIoWrite_lane hstep
  · have hframes := stepThread_frames hstep
    have hkinds : th.kind ∉ [.write, .receive, .cleanup, .d0Entry, .d0Exit] := by
      simp at hteardown hserves ⊢
      tauto
    have hnone : ∀ {th : Thread}, th.kind ∉ [.receive, .write] → th.inHand .receive = none := by
      intro th hk
      cases th <;> first | rfl | simp [Thread.kind] at hk
    have hnext := stepThread_kind_not_mem hstep (by decide) hserves
    refine .inl (.same ((hnone hnext).trans (hnone hserves).symm) ?_ ((stepThread_logs hstep).indicated ?_))
    · exact congrArg FrameQueue.frames (hframes.injectionQueue hkinds)
    · intro hreceive
      simp [hreceive] at hserves

/-! ### Runs -/

/-- The frame is somewhere in the direction: in a hand, in the queue, or gone from it. -/
def Driver.Carries (s : Driver) (side : Side) : Frame → Prop :=
  Custody.Present (fun t => (s.thr t).inHand side) (s.dev.queued side) (s.dev.departed side)

/-- The serial numbers of a direction, each in one place. -/
def Driver.Kept (s : Driver) (side : Side) : Prop :=
  Custody (fun t => ((s.thr t).inHand side).map Frame.serial) ((s.dev.queued side).map Frame.serial)
    ((s.dev.departed side).map Frame.serial)

structure Traffic (s : Driver) : Prop where
  kept : ∀ side, s.Kept side
  known : ∀ side f, s.Carries side f →
    f.serial < s.dev.nextSerial ∧ frameMinimum ≤ f.length ∧ f.length ≤ s.dev.frameMaximum
  apart : ∀ f g, s.Carries .capture f → s.Carries .receive g → f.serial ≠ g.serial
  writes : ∀ t, (s.thr t).Sized s.dev.frameMaximum

namespace Traffic

variable {s s' : Driver}

theorem sized_set (h : Traffic s) (hmaximum : d.frameMaximum = s.dev.frameMaximum)
    (hsized : th.Sized s.dev.frameMaximum) (i : ThreadId) :
    ((s.setThread t d th).thr i).Sized (s.setThread t d th).dev.frameMaximum := by
  rw [Driver.setThread_dev, hmaximum]
  by_cases hi : i = t
  · subst hi
    rwa [Driver.setThread_self]
  · rw [Driver.setThread_of_ne _ _ _ _ hi]
    exact h.writes i

theorem set (h : Traffic s) (hlane : ∀ side, LaneStep side (s.thr t) s.dev th d)
    (hserial : s.dev.nextSerial ≤ d.nextSerial) (hmaximum : d.frameMaximum = s.dev.frameMaximum)
    (hsized : th.Sized s.dev.frameMaximum) : Traffic (s.setThread t d th) := by
  have hcarries : ∀ side f, (s.setThread t d th).Carries side f → s.Carries side f := by
    intro side f hf
    rw [Driver.Carries, s.setThread_map t d th (Thread.inHand side), Driver.setThread_dev] at hf
    exact Custody.Present.of_lapse (hlane side) hf
  refine ⟨fun side => ?_, fun side f hf => ?_, fun f g hf hg => ?_, h.sized_set hmaximum hsized⟩
  · rw [Driver.Kept, s.setThread_map t d th (fun th => (th.inHand side).map Frame.serial), Driver.setThread_dev]
    exact (h.kept side).lapse ((hlane side).map Frame.serial)
  · obtain ⟨hold, hlength⟩ := h.known side f (hcarries side f hf)
    rw [Driver.setThread_dev, hmaximum]
    exact ⟨hold.trans_le hserial, hlength⟩
  · exact h.apart f g (hcarries .capture f hf) (hcarries .receive g hg)

theorem issue (h : Traffic s) {length : Nat} (target : Side)
    (hhand : th.inHand target = some ⟨s.dev.nextSerial, length⟩)
    (hother : ∀ side, side ≠ target → th.inHand side = (s.thr t).inHand side)
    (hqueued : ∀ side, d.queued side = s.dev.queued side) (hdeparted : ∀ side, d.departed side = s.dev.departed side)
    (hserial : d.nextSerial = s.dev.nextSerial + 1) (hmaximum : d.frameMaximum = s.dev.frameMaximum)
    (hlength : frameMinimum ≤ length ∧ length ≤ s.dev.frameMaximum) (hsized : th.Sized s.dev.frameMaximum) :
    Traffic (s.setThread t d th) := by
  have hfresh : ∀ side n, Custody.Present (fun i => ((s.thr i).inHand side).map Frame.serial)
      ((s.dev.queued side).map Frame.serial) ((s.dev.departed side).map Frame.serial) n → n < s.dev.nextSerial := by
    rintro side n ⟨i, hhand | hqueue | hgone⟩
    · obtain ⟨f, hf, rfl⟩ := Option.map_eq_some_iff.mp hhand
      exact (h.known side f ⟨i, .inl hf⟩).1
    · obtain ⟨f, hf, rfl⟩ := List.mem_map.mp hqueue
      exact (h.known side f ⟨i, .inr (.inl hf)⟩).1
    · obtain ⟨f, hf, rfl⟩ := List.mem_map.mp hgone
      exact (h.known side f ⟨i, .inr (.inr hf)⟩).1
  have hcarries : ∀ side f, (s.setThread t d th).Carries side f →
      side = target ∧ f = ⟨s.dev.nextSerial, length⟩ ∨ s.Carries side f := by
    intro side f hf
    rw [Driver.Carries, s.setThread_map t d th (Thread.inHand side), Driver.setThread_dev, hqueued, hdeparted] at hf
    by_cases hside : side = target
    · subst hside
      rw [hhand] at hf
      exact (Custody.Present.of_issue hf).imp_left fun heq => ⟨rfl, heq⟩
    · rw [hother side hside, Function.update_eq_self] at hf
      exact .inr hf
  refine ⟨fun side => ?_, fun side f hf => ?_, fun f g hf hg heq => ?_, h.sized_set hmaximum hsized⟩
  · rw [Driver.Kept, s.setThread_map t d th (fun th => (th.inHand side).map Frame.serial), Driver.setThread_dev,
      hqueued, hdeparted]
    by_cases hside : side = target
    · subst hside
      rw [hhand]
      refine (h.kept side).issue (fun hmem => ?_) (fun hmem => ?_) fun i hi => ?_
      · exact absurd (hfresh side _ ⟨t, .inr (.inl hmem)⟩) (Nat.lt_irrefl _)
      · exact absurd (hfresh side _ ⟨t, .inr (.inr hmem)⟩) (Nat.lt_irrefl _)
      · exact absurd (hfresh side _ ⟨i, .inl hi⟩) (Nat.lt_irrefl _)
    · rw [hother side hside, Function.update_eq_self]
      exact h.kept side
  · rw [Driver.setThread_dev, hserial, hmaximum]
    obtain ⟨-, rfl⟩ | hold := hcarries side f hf
    · exact ⟨Nat.lt_succ_self _, hlength⟩
    · obtain ⟨hlt, hsize⟩ := h.known side f hold
      exact ⟨hlt.trans (Nat.lt_succ_self _), hsize⟩
  · -- a new frame has a number that no frame of the other direction has
    obtain ⟨hcapture, hnewf⟩ | hf := hcarries .capture f hf <;> obtain ⟨hreceive, hnewg⟩ | hg := hcarries .receive g hg
    · rw [← hcapture] at hreceive
      cases hreceive
    · have hold := (h.known .receive g hg).1
      rw [← heq, hnewf] at hold
      exact absurd hold (Nat.lt_irrefl _)
    · have hold := (h.known .capture f hf).1
      rw [heq, hnewg] at hold
      exact absurd hold (Nat.lt_irrefl _)
    · exact h.apart f g hf hg heq

theorem sweep (h : Traffic s) (hqueued : ∀ side, d.queued side = s.dev.queued side ∨ d.queued side = [])
    (hlog : d.log = s.dev.log) (hserial : d.nextSerial = s.dev.nextSerial)
    (hmaximum : d.frameMaximum = s.dev.frameMaximum) : Traffic { s with dev := d } := by
  rw [s.setDev_eq 0]
  refine h.set (fun side => ?_) hserial.ge hmaximum (h.writes 0)
  have hdeparted : d.departed side = s.dev.departed side := by
    cases side
    · simp only [Device.departed, hlog]
    · simp only [Device.departed, Device.deliveredFrames, hlog]
  unfold LaneStep
  rw [hdeparted]
  obtain hkeep | hempty := hqueued side
  · rw [hkeep]
    exact .move .keep
  · rw [hempty]
    exact .thin (List.nil_sublist _)

theorem step {a : Action} (h : Traffic s) (hstep : stepDriver s a = some s') : Traffic s' := by
  cases stepDriver_cases hstep with
  | @start t a d th hidle hstart =>
    have hhand : ∀ side, th.inHand side = (s.thr t).inHand side := by
      intro side
      rw [hidle]
      cases hstart <;> cases side <;> rfl
    have hsized : th.Sized s.dev.frameMaximum := by cases hstart <;> trivial
    obtain ⟨_, _, _, _, _, _, _, _, hframe⟩ := hstart.frame
    subst hframe
    exact h.set (fun side => .same (hhand side) (by cases side <;> rfl) (by cases side <;> rfl)) le_rfl rfl hsized
  | @framework a d hmove =>
    cases hmove <;> exact h.sweep (fun side => .inl (by cases side <;> rfl)) rfl rfl rfl
  | @packet t length passive gen captured hthr hlength =>
    have hlower : frameMinimum ≤ length := by
      by_contra hshort
      simp [stepDriver, packetThread, hthr, takePacket, hshort] at hstep
    refine h.issue .capture rfl (fun side hside => ?_) (fun side => ?_) (fun side => ?_) rfl rfl ⟨hlower, hlength⟩
      trivial
    · rw [hthr]
      cases side
      · rfl
      · exact absurd rfl hside
    · cases side <;> rfl
    · cases side <;> rfl
  | @advance t choice next hadvance =>
    have hmaximum := (stepThread_frames hadvance).frameMaximum
    have hsized := stepThread_sized hadvance (h.writes t)
    have hcapture := stepThread_capture_lane hadvance
    obtain hreceive | ⟨hdev, handle, input, hthr, hlower, hnext⟩ := stepThread_receive_lane hadvance
    · refine h.set (fun side => ?_) (stepThread_nextSerial hadvance) hmaximum hsized
      cases side
      · exact hreceive
      · exact hcapture
    · have hupper := h.writes t
      rw [hthr] at hupper
      refine h.issue .receive (by rw [hnext]; rfl) (fun side hside => ?_) (fun side => ?_) (fun side => ?_)
        (by rw [hdev]) hmaximum ⟨hlower, hupper⟩ hsized
      · rw [hnext, hthr]
        cases side
        · exact absurd rfl hside
        · rfl
      · rw [hdev]
        cases side <;> rfl
      · rw [hdev]
        cases side <;> rfl

theorem initial (hidle : ∀ t, s.thr t = .idle) (hqueued : ∀ side, s.dev.queued side = [])
    (hdeparted : ∀ side, s.dev.departed side = []) : Traffic s := by
  have hhand : ∀ side t, (s.thr t).inHand side = none := fun side t => by
    rw [hidle t]
    cases side <;> rfl
  have hempty : ∀ side f, ¬s.Carries side f := by
    rintro side f ⟨t, hf | hf | hf⟩
    · cases (hhand side t).symm.trans hf
    · rw [hqueued] at hf
      cases hf
    · rw [hdeparted] at hf
      cases hf
  refine ⟨fun side => ?_, fun side f hf => absurd hf (hempty side f), fun f g hf => absurd hf (hempty .capture f),
    fun t => ?_⟩
  · rw [Driver.Kept, hqueued, hdeparted]
    exact Custody.initial fun t => by rw [hhand]; rfl
  · rw [hidle t]
    trivial

end Traffic

theorem InstanceReach.traffic {ok : Instance → InstanceAction → Prop} {s : Instance} (h : InstanceReach ok s) :
    Traffic s.driver := by
  refine InstanceReach.driver_invariant (fun mtu _ _ => ?_) (fun _ _ _ => Traffic.step)
    (fun s choice pc d flow hinv hstep => ?_) (fun s t choice pc d flow hinv hstep => ?_) h
  · refine .initial (fun _ => rfl) ?_ ?_ <;> rintro (_ | _) <;> rfl
  · cases hstep <;> exact hinv.sweep (fun side => .inl (by cases side <;> rfl)) rfl rfl rfl
  · cases hstep <;>
      exact hinv.sweep (fun side => by cases side <;> first | exact .inl rfl | exact .inr rfl) rfl rfl rfl

theorem DriverReach.traffic {ok : Driver → Action → Prop} {s : Driver} (h : DriverReach ok s) : Traffic s := by
  refine h.invariant (fun s hinit => ?_) fun _ _ _ _ hinv _ hstep => hinv.step hstep
  obtain ⟨⟨mtu, -, -, hdev⟩, hidle⟩ := hinit
  refine .initial hidle ?_ ?_ <;> rw [hdev] <;> rintro (_ | _) <;> rfl

/-- Whatever is closed, powered down or released in between, a frame is in one place at a time and leaves the driver at
most once: no packet is returned by two READs, and no written frame is indicated twice. No frame changes its direction,
and all of them are between a header and `frame_maximum` bytes long. -/
theorem frames_in_one_place {s : Instance} (h : InstanceReach Machine.Free s) :
    (∀ side, s.driver.Kept side) ∧
      (∀ f g, s.driver.Carries .capture f → s.driver.Carries .receive g → f.serial ≠ g.serial) ∧
      ∀ side f, s.driver.Carries side f → frameMinimum ≤ f.length ∧ f.length ≤ s.driver.dev.frameMaximum := by
  obtain ⟨hkept, hknown, hapart, -⟩ := h.traffic
  exact ⟨hkept, hapart, fun side f hf => (hknown side f hf).2⟩

/-- A packet waits in the capture queue and a written frame in the injection queue. -/
def bothDirections : List InstanceAction :=
  broughtUp ++ (.create 1 7 :: steps 1 2 ++ .write 2 7 ⟨60, statusSuccess, 60⟩ :: steps 2 6 ++ .transmit 3 false ::
    steps 3 3 ++ .packet 3 90 :: steps 3 6).map .driver

theorem frames_in_one_place_both :
    let s := (instanceSystem.after (.added defaultMtu) bothDirections).driver
    s.dev.queued .receive = [⟨0, 60⟩] ∧ s.dev.queued .capture = [⟨1, 90⟩] ∧ ∀ side, s.Kept side := by
  intro s
  have hreceive : s.dev.queued .receive = [⟨0, 60⟩] := by decide +kernel
  have hcapture : s.dev.queued .capture = [⟨1, 90⟩] := by decide +kernel
  have hreach := Machine.System.reach_after (instanceReach_added Machine.Free) bothDirections
  exact ⟨hreceive, hcapture, (frames_in_one_place hreach).1⟩

end WinTap

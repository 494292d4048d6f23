import WinTap.Proof.Driver.Callbacks
import WinTap.Proof.Driver.CaptureQueue
import WinTap.Proof.Driver.Captures

/-!
# The order in which READs return frames

A frame reaches a READ through the capture queue, or directly from the TX callback. While one READ path runs at
a time, the delivered frames, the frame the READ path holds, the capture queue and the frame of the TX callback
form one line in transmit order. Taking the front of the queue and delivering it keep that line. Two steps can
break it: a READ path appends the frame it could not deliver at the end of the queue, and a TX callback gives its
frame to a waiting READ without looking at the queue.
-/

namespace WinTap

variable {th : Thread} {d d' : Device} {t : ThreadId} {next : Device × Thread} {s : Driver} {a : Action}

/-! ### The steps that can break the line -/

/-- The put-back is at its enqueue, and the queue takes the frame. -/
def RequeuePc.stores (d : Device) (f : Frame) : RequeuePc → Bool
  | .store .enqueue => (d.capture.queue.checkCapacity f.length).isOk
  | _ => false

/-- A READ path about to put its frame back into the capture queue. -/
def Thread.storesBack (d : Device) : Thread → Bool
  | .read _ (.requeue _ f _ pc) | .worker (.drain (.requeue _ _ f _ pc)) => pc.stores d f
  | _ => false

/-- A TX callback about to complete a READ with its frame. -/
def Thread.deliversDirectly (d : Device) (choice : Choice) : Thread → Bool
  | .transmit _ (.packet _ _ f (.complete r)) =>
    (completeCapturedFrameToRead d r f choice).2 == statusSuccess
  | _ => false

section
variable (d : Device) (t : ThreadId) (choice : Choice)

/-- A TX callback delivers a frame only by completing a READ with it. -/
theorem capturePacket_delivered (passive : Bool) (gen : Word) (captured : Bool) (f : Frame) (pc : PacketPc)
    (hdirect : (Thread.transmit passive (.packet gen captured f pc)).deliversDirectly d choice = false) :
    (capturePacket d t passive gen f choice pc).1.deliveredFrames = d.deliveredFrames := by
  cases pc with
  | lockDirect =>
    simp only [capturePacket]
    split <;> rfl
  | retrieve =>
    simp only [capturePacket, retrieveNextRequest]
    cases d.readQueue.waiting <;> rfl
  | complete r =>
    have hstatus : (completeCapturedFrameToRead d r f choice).2 ≠ statusSuccess := by
      simpa [Thread.deliversDirectly] using hdirect
    simp only [capturePacket, if_neg hstatus]
    exact (completeRead_sameFrames d r _).delivered
  | store adaptive pc =>
    rw [capturePacket, call_fst]
    cases pc with
    | enqueue =>
      simp only [enqueueExistingCaptureFrame]
      split <;> rfl
    | _ => rfl
  | _ => rfl

end

/-- What a step of a READ path does to the line: it moves its frame, and makes the queue longer only by a
put-back, or it loses the frame. -/
structure ReadPathStep (d : Device) (th : Thread) (next : Device × Thread) : Prop where
  new : th.newFrame = none ∧ next.2.newFrame = none
  held : FrameStep th.heldFrame d next.2.heldFrame next.1 ∨ next.2.heldFrame = none ∧ SameFrames d next.1
  length : d.capture.queue.frames.length < next.1.capture.queue.frames.length → th.storesBack d = true

theorem Thread.newFrame_eq_none (hk : th.kind ≠ .transmit) : th.newFrame = none := by
  cases th <;> first | rfl | exact absurd rfl hk

theorem Thread.heldFrame_eq_none (hk : th.kind ∉ [.read, .worker]) : th.heldFrame = none := by
  cases th <;> first | rfl | simp [Thread.kind] at hk

theorem ReadPathStep.settle {π : Type} {inside : π → Thread} {result : Device × Flow π Unit}
    (hth : th.kind ∈ [.read, .worker]) (hinside : ∀ pc, (inside pc).kind = th.kind)
    (hheld : th.putBackGoesThrough d →
      FrameStep th.heldFrame d (result.2.on (fun pc => (inside pc).heldFrame) none) result.1)
    (hrefused : ¬th.putBackGoesThrough d →
      result.2.on (fun pc => (inside pc).heldFrame) none = none ∧ SameFrames d result.1)
    (hlength : d.capture.queue.len < (th.settle inside result).1.capture.queue.len → th.storesBack d = true) :
    ReadPathStep d th (th.settle inside result) := by
  have htransmit : th.kind ≠ .transmit := by
    rintro heq
    simp [heq] at hth
  have hsame : SameFrames result.1 (th.settle inside result).1 := settle_sameFrames (by
    rintro h pc rfl
    simp [Thread.kind] at hth)
  have hafter : (th.settle inside result).2.heldFrame
        = result.2.on (fun pc => (inside pc).heldFrame) none ∧
      (th.settle inside result).2.newFrame = none := by
    rw [Thread.settle_eq]
    cases result.2 with
    | run pc => exact ⟨rfl, Thread.newFrame_eq_none (hinside pc ▸ htransmit)⟩
    | ret value => exact ⟨rfl, rfl⟩
  refine ⟨⟨Thread.newFrame_eq_none htransmit, hafter.2⟩, ?_, hlength⟩
  rw [hafter.1]
  by_cases hthrough : th.putBackGoesThrough d
  · exact .inl ((hheld hthrough).congr hsame)
  · exact .inr ⟨(hrefused hthrough).1, (hrefused hthrough).2.trans hsame⟩

/-- Only a put-back makes the capture queue longer on a READ path. -/
theorem Thread.storesBack_of_lt {storing : Option (Frame × StorePc)} (hk : th.kind ∈ [.read, .worker])
    (hstep : CaptureStep th.storing d.capture.queue d'.capture.queue storing)
    (hlonger : d.capture.queue.len < d'.capture.queue.len) : th.storesBack d = true := by
  obtain ⟨f, hat, henqueue, -⟩ := hstep.put_of_lt hlonger
  have hcapacity : (d.capture.queue.checkCapacity f.length).isOk = true := by
    rw [FrameQueue.enqueue] at henqueue
    split at henqueue
    · cases henqueue
    · rename_i hok
      rw [hok]
      rfl
  unfold Thread.storing at hat
  split at hat
  case h_1 pc | h_2 pc =>
    obtain ⟨rfl, rfl⟩ := pc.eq_of_storing hat
    exact hcapacity
  case h_3 => simp [Thread.kind] at hk
  case h_4 => cases hat

theorem stepThread_readPath {choice : Choice} (hk : th.kind ∈ [.read, .worker])
    (hstep : stepThread d t choice th = some next) : ReadPathStep d th next := by
  have hcapture := stepThread_capture (fun hmem => by cases th <;> simp [Thread.kind] at hk hmem) hstep
  cases th <;> simp only [stepThread] at hstep
  case read r pc =>
    cases hstep
    exact .settle hk (fun _ => rfl) (evtIoRead_frames d t choice r pc) (evtIoRead_letsGo d t choice)
      (Thread.storesBack_of_lt hk hcapture)
  case worker pc =>
    cases hstep
    exact .settle hk (fun _ => rfl) (evtReadCompletionWorkItem_frames d t choice pc)
      (evtReadCompletionWorkItem_letsGo d t choice) (Thread.storesBack_of_lt hk hcapture)
  all_goals simp [Thread.kind] at hk

theorem stepThread_delivered {choice : Choice} (hk : th.kind = .transmit)
    (hdirect : th.deliversDirectly d choice = false) (hstep : stepThread d t choice th = some next) :
    next.1.deliveredFrames = d.deliveredFrames := by
  cases th <;> simp only [stepThread] at hstep
  case transmit passive pc =>
    cases hstep
    rw [(settle_sameFrames fun _ _ => Thread.noConfusion).delivered]
    cases pc with
    | lease =>
      simp only [advanceTransmit]
      split <;> rfl
    | packet gen captured f pc =>
      rw [advanceTransmit, call_fst]
      exact capturePacket_delivered d t choice passive gen captured f pc hdirect
    | _ => rfl
  all_goals simp [Thread.kind] at hk

/-! ### The line -/

/-- The frames in the order in which READs return them: those delivered, the one a READ path holds, the capture
queue, and the one of the TX callback. -/
def Device.frameLine (d : Device) (held new : Option Frame) : List Frame :=
  Custody.line held (d.capture.queue.frames ++ new.toList) d.deliveredFrames

/-- The line is in transmit order: serial numbers are given out as packets leave the TX ring. -/
structure Device.InTransmitOrder (d : Device) (held new : Option Frame) : Prop where
  increasing : (d.frameLine held new).Pairwise (·.serial < ·.serial)
  issued : ∀ f ∈ d.frameLine held new, f.serial < d.nextSerial

namespace Device.InTransmitOrder

variable {held held' new new' : Option Frame}

theorem sublist (h : d.InTransmitOrder held new) (hline : (d'.frameLine held' new').Sublist (d.frameLine held new))
    (hserial : d.nextSerial ≤ d'.nextSerial) : d'.InTransmitOrder held' new' where
  increasing := h.increasing.sublist hline
  issued f hf := Nat.lt_of_lt_of_le (h.issued f (hline.subset hf)) hserial

theorem packet {f : Frame} (h : d.InTransmitOrder held none) (hsame : SameFrames d d')
    (hserial : f.serial = d.nextSerial) (hnext : d'.nextSerial = d.nextSerial + 1) :
    d'.InTransmitOrder held (some f) := by
  have hline : d'.frameLine held (some f) = d.frameLine held none ++ [f] := by
    simp [frameLine, Custody.line, hsame.frames, hsame.delivered]
  refine ⟨?_, fun g hg => ?_⟩
  · rw [hline, List.pairwise_append]
    refine ⟨h.increasing, List.pairwise_singleton _ _, fun g hg g' hg' => ?_⟩
    rw [List.mem_singleton.mp hg', hserial]
    exact h.issued g hg
  · rw [hnext]
    rw [hline] at hg
    obtain hg | hg := List.mem_append.mp hg
    · exact Nat.lt_succ_of_lt (h.issued g hg)
    · rw [List.mem_singleton.mp hg, hserial]
      exact Nat.lt_succ_self _

end Device.InTransmitOrder

/-- The line of the frames that are anywhere, and at most one READ path. -/
structure OrderInv (s : Driver) : Prop where
  ordered : ∃ held new, Custody.InHand (fun t => (s.thr t).heldFrame) held ∧
    Custody.InHand (fun t => (s.thr t).newFrame) new ∧ s.dev.InTransmitOrder held new
  readPath : ∀ t u, (s.thr t).kind ∈ [.read, .worker] → (s.thr u).kind ∈ [.read, .worker] → t = u

def Action.choice : Action → Choice
  | .advance _ choice => choice
  | _ => none

/-- Legacy READs without teardown, with one READ path at a time. -/
def OneReadPath (s : Driver) (a : Action) : Prop :=
  NoTeardown s a ∧ s.dev.adaptiveEnabled = false ∧
    (a.kind ∈ [.read, .worker] → ∀ u, (s.thr u).kind ∉ [.read, .worker])

/-- A frame is put back only into an empty capture queue, and delivered directly only when no captured frame
waits for a READ. -/
def KeepsTransmitOrder (s : Driver) (a : Action) : Prop :=
  OneReadPath s a ∧ ∀ t, t ∈ a.thread →
    ((s.thr t).storesBack s.dev = true → s.dev.capture.queue.frames = []) ∧
    ((s.thr t).deliversDirectly s.dev a.choice = true →
      s.dev.capture.queue.frames = [] ∧ ∀ u, (s.thr u).heldFrame = none)

namespace OrderInv

variable {s s' : Driver}

theorem init (h : driverSystem.init s) : OrderInv s := by
  obtain ⟨⟨mtu, -, -, hdev⟩, hidle⟩ := h
  refine ⟨⟨none, none, .initial fun t => ?_, .initial fun t => ?_, ?_, ?_⟩, fun t u ht => ?_⟩
  · rw [hidle t]
    rfl
  · rw [hidle t]
    rfl
  · rw [hdev]
    exact List.Pairwise.nil
  · rw [hdev]
    exact fun f hf => absurd hf List.not_mem_nil
  · rw [hidle t] at ht
    simp [Thread.kind] at ht

theorem readPath_set (h : OrderInv s)
    (hkind : th.kind ∉ [.read, .worker] ∨ (s.thr t).kind ∈ [.read, .worker] ∨ ∀ u, (s.thr u).kind ∉ [.read, .worker]) :
    ∀ i u, ((s.setThread t d th).thr i).kind ∈ [.read, .worker] →
      ((s.setThread t d th).thr u).kind ∈ [.read, .worker] → i = u := by
  have hothers : ∀ i, i ≠ t → ((s.setThread t d th).thr i).kind ∈ [.read, .worker] →
      th.kind ∉ [.read, .worker] := by
    intro i hi hmem hth
    rw [Driver.setThread_of_ne _ _ _ _ hi] at hmem
    obtain hkind | hkind | hkind := hkind
    · exact hkind hth
    · exact hi (h.readPath i t hmem hkind)
    · exact hkind i hmem
  intro i u hi hu
  by_cases hit : i = t <;> by_cases hut : u = t
  · exact hit.trans hut.symm
  · subst hit
    rw [Driver.setThread_self] at hi
    exact absurd hi (hothers u hut hu)
  · subst hut
    rw [Driver.setThread_self] at hu
    exact absurd hu (hothers i hit hi)
  · rw [Driver.setThread_of_ne _ _ _ _ hit] at hi
    rw [Driver.setThread_of_ne _ _ _ _ hut] at hu
    exact h.readPath i u hi hu

theorem same (h : OrderInv s) (hframes : d.capture.queue.frames = s.dev.capture.queue.frames)
    (hdelivered : d.deliveredFrames = s.dev.deliveredFrames) (hserial : s.dev.nextSerial ≤ d.nextSerial)
    (hheld : th.heldFrame = (s.thr t).heldFrame) (hnew : th.newFrame = (s.thr t).newFrame)
    (hkind : th.kind ∉ [.read, .worker] ∨ (s.thr t).kind ∈ [.read, .worker] ∨ ∀ u, (s.thr u).kind ∉ [.read, .worker]) :
    OrderInv (s.setThread t d th) := by
  obtain ⟨held, new, hin, hout, hordered⟩ := h.ordered
  refine ⟨⟨held, new, ?_, ?_, hordered.sublist ?_ hserial⟩, h.readPath_set hkind⟩
  · rwa [s.setThread_map _ _ _ Thread.heldFrame, hheld, Function.update_eq_self]
  · rwa [s.setThread_map _ _ _ Thread.newFrame, hnew, Function.update_eq_self]
  · rw [Driver.setThread_dev, Device.frameLine, Device.frameLine, hframes, hdelivered]

theorem held_turn (h : OrderInv s) (ht : (s.thr t).kind ∈ [.read, .worker]) (u : ThreadId)
    (hu : (s.thr u).heldFrame ≠ none) : u = t := by
  by_contra hut
  exact hu (Thread.heldFrame_eq_none fun hkind => hut (h.readPath u t hkind ht))

theorem new_turn (hserialized : Serialized s) (ht : (s.thr t).kind = .transmit) (u : ThreadId)
    (hu : (s.thr u).newFrame ≠ none) : u = t := by
  have hon : ∀ {i}, (s.thr i).kind = .transmit → (s.thr i).onTransmit = true := by
    intro i hi
    cases hth : s.thr i <;> rw [hth] at hi <;> first | rfl | cases hi
  by_contra hut
  exact hu (Thread.newFrame_eq_none fun hkind => hut (hserialized.transmit_unique (hon hkind) (hon ht)))

/-- A READ path that keeps to the restriction keeps the line, or loses the frame it holds. -/
theorem read (h : OrderInv s) (ht : (s.thr t).kind ∈ [.read, .worker]) (hpath : ReadPathStep s.dev (s.thr t) (d, th))
    (hputs : (s.thr t).storesBack s.dev = true → s.dev.capture.queue.frames = [])
    (hserial : s.dev.nextSerial ≤ d.nextSerial) : OrderInv (s.setThread t d th) := by
  obtain ⟨held, new, hin, hout, hordered⟩ := h.ordered
  have hturn := h.held_turn ht
  rw [hin.eq_hand hturn] at hordered
  refine ⟨⟨th.heldFrame, new, ?_, ?_, hordered.sublist ?_ hserial⟩, h.readPath_set (.inr (.inl ht))⟩
  · rw [s.setThread_map _ _ _ Thread.heldFrame]
    exact .update hturn
  · rwa [s.setThread_map _ _ _ Thread.newFrame, hpath.new.2, ← hpath.new.1, Function.update_eq_self]
  · obtain hstep | ⟨hnone, hsame⟩ := hpath.held
    · have hline : d.frameLine th.heldFrame new = s.dev.frameLine (s.thr t).heldFrame new :=
        hstep.move.line_taker (fun hlength => hputs (hpath.length hlength)) new.toList
      rw [Driver.setThread_dev, hline]
    · rw [hnone, Driver.setThread_dev, Device.frameLine, Device.frameLine, hsame.frames, hsame.delivered]
      exact Custody.line_drop_held _ _

/-- A TX callback that keeps to the restriction keeps the line, or lets its frame go. -/
theorem transmit (h : OrderInv s) (hserialized : Serialized s) (ht : (s.thr t).kind = .transmit)
    (hth : th.kind ∉ [.read, .worker]) (hframes : ThreadFrames s.dev (s.thr t) (d, th))
    (hdelivers : s.dev.deliveredFrames.length < d.deliveredFrames.length →
      s.dev.capture.queue.frames = [] ∧ ∀ u, (s.thr u).heldFrame = none) (hserial : s.dev.nextSerial ≤ d.nextSerial) :
    OrderInv (s.setThread t d th) := by
  obtain ⟨held, new, hin, hout, hordered⟩ := h.ordered
  have hturn := new_turn hserialized ht
  have hnone : (s.thr t).heldFrame = none := Thread.heldFrame_eq_none (by rw [ht]; decide)
  have hnone' : th.heldFrame = none := Thread.heldFrame_eq_none hth
  rw [hout.eq_hand hturn] at hordered
  refine ⟨⟨held, th.newFrame, ?_, ?_, hordered.sublist ?_ hserial⟩, h.readPath_set (.inl hth)⟩
  · rwa [s.setThread_map _ _ _ Thread.heldFrame, hnone', ← hnone, Function.update_eq_self]
  · rw [s.setThread_map _ _ _ Thread.newFrame]
    exact .update hturn
  · obtain hstep | ⟨-, hgone, hsame⟩ := hframes.step
    · have hmove := hstep.move
      simp only [Thread.carriedFrame, hnone, hnone', Option.none_or] at hmove
      have hline : d.frameLine held th.newFrame = s.dev.frameLine held (s.thr t).newFrame := by
        refine hmove.line_giver hframes.new fun hlength => ?_
        obtain ⟨hempty, hothers⟩ := hdelivers hlength
        exact ⟨(hin.eq_hand (i := t) fun u hu => absurd (hothers u) hu).trans hnone, hempty⟩
      rw [Driver.setThread_dev, hline]
    · have hgone : th.newFrame = none := (Option.or_eq_none_iff.mp hgone).2
      rw [hgone, Driver.setThread_dev, Device.frameLine, Device.frameLine, hsame.frames, hsame.delivered]
      exact Custody.line_drop_last _ _

theorem step (h : OrderInv s) (hsteady : Steady s) (hserialized : Serialized s) (hok : KeepsTransmitOrder s a)
    (hstep : stepDriver s a = some s') : OrderInv s' := by
  cases stepDriver_cases hstep with
  | @start t a d th hidle hstart =>
    have hkind : th.kind ∉ [.read, .worker] ∨ ∀ u, (s.thr u).kind ∉ [.read, .worker] := by
      by_cases hmem : a.kind ∈ [.read, .worker]
      · exact .inr (hok.1.2.2 hmem)
      · exact .inl (hstart.kind ▸ hmem)
    cases hstart <;>
    · refine h.same rfl rfl (Nat.le_refl _) ?_ ?_ (hkind.imp_right .inr) <;>
      · rw [hidle]
        rfl
  | @framework a d hmove =>
    rw [s.setDev_eq 0]
    have hkind : (s.thr 0).kind ∉ [.read, .worker] ∨ (s.thr 0).kind ∈ [.read, .worker] :=
      (Decidable.em _).symm
    cases hmove <;> exact h.same rfl rfl (Nat.le_refl _) rfl rfl (hkind.imp_right .inl)
  | @packet t length passive gen captured hthr hlength =>
    obtain ⟨held, new, hin, hout, hordered⟩ := h.ordered
    have hturn := new_turn hserialized (t := t) (by rw [hthr]; rfl)
    have hheld : (Thread.transmit passive (.packet gen captured ⟨s.dev.nextSerial, length⟩ .adaptive)).heldFrame
        = (s.thr t).heldFrame := by rw [hthr]; rfl
    have hnew : new = none := (hout.eq_hand hturn).trans (by rw [hthr]; rfl)
    refine ⟨⟨held, some ⟨s.dev.nextSerial, length⟩, ?_, ?_, ?_⟩, h.readPath_set (.inl ?_)⟩
    · rwa [s.setThread_map _ _ _ Thread.heldFrame, hheld, Function.update_eq_self]
    · rw [s.setThread_map _ _ _ Thread.newFrame]
      exact .update hturn
    · exact (hnew ▸ hordered).packet ⟨rfl, rfl, rfl⟩ rfl rfl
    · simp [Thread.kind]
  | @advance t choice next hadvance =>
    have hserial := stepThread_nextSerial hadvance
    obtain ⟨hputs, hdelivers⟩ := hok.2 t rfl
    by_cases hread : (s.thr t).kind ∈ [.read, .worker]
    · exact h.read hread (stepThread_readPath hread hadvance) hputs hserial
    · have hthread : ThreadFrames s.dev (s.thr t) next := by
        refine stepThread_threadFrames (hsteady.kind t) ?_ hadvance
        cases hth : s.thr t <;> rw [hth] at hread <;> first | trivial | simp [Thread.kind] at hread
      have hnext := stepThread_kind_not_mem hadvance (by decide) hread
      by_cases htransmit : (s.thr t).kind = .transmit
      · refine h.transmit hserialized htransmit hnext hthread (fun hgrows => hdelivers ?_) hserial
        by_contra hdirect
        rw [stepThread_delivered htransmit (Bool.eq_false_iff.mpr hdirect) hadvance] at hgrows
        exact absurd hgrows (Nat.lt_irrefl _)
      · have hk : (s.thr t).kind ∉ [.read, .worker, .transmit] := by simpa [htransmit] using hread
        have hnone := Thread.carriedFrame_eq_none hk
        have hnone' := Thread.carriedFrame_eq_none (stepThread_kind_not_mem hadvance (by decide) hk)
        obtain ⟨hheld, hnew⟩ := Option.or_eq_none_iff.mp hnone
        obtain ⟨hheld', hnew'⟩ := Option.or_eq_none_iff.mp hnone'
        have hsame : next.1.capture.queue.frames = s.dev.capture.queue.frames ∧
            next.1.deliveredFrames = s.dev.deliveredFrames := by
          obtain hmove | ⟨-, -, hsame⟩ := hthread.step
          · exact (hnone ▸ hnone' ▸ hmove.move).same_of_none
          · exact ⟨hsame.frames, hsame.delivered⟩
        exact h.same hsame.1 hsame.2 hserial (hheld'.trans hheld.symm) (hnew'.trans hnew.symm) (.inl hnext)

end OrderInv

theorem DriverReach.captureOrder (h : DriverReach KeepsTransmitOrder s) : OrderInv s := by
  refine h.invariant (fun _ => OrderInv.init) fun s a s' hs hinv hok hstep => ?_
  exact hinv.step (DriverReach.steady hs fun _ _ hok => hok.1.1) (DriverReach.serialized hs) hok hstep

/-- In every run of one READ path at a time in which a frame is put back, or delivered directly, only when no
captured frame waits, READs return frames in transmit order: of two delivered frames the one delivered later
was taken from the TX ring later. -/
theorem reads_in_transmit_order {s : Driver} (h : DriverReach KeepsTransmitOrder s) :
    s.dev.deliveredFrames.Pairwise fun later earlier => earlier.serial < later.serial := by
  obtain ⟨held, new, -, -, hordered⟩ := (DriverReach.captureOrder h).ordered
  exact List.pairwise_reverse.mp (List.pairwise_append.mp hordered.increasing).1

/-- `OneReadPath` in a run of a few threads. -/
def OneReadPathAmong (ts : List ThreadId) (s : Driver) (a : Action) : Prop :=
  (∀ t, t ∈ a.thread → t ∈ ts) ∧ a.kind ∉ [.cleanup, .d0Exit] ∧ s.dev.adaptiveEnabled = false ∧
    (a.kind ∈ [.read, .worker] → ∀ u ∈ ts, (s.thr u).kind ∉ [.read, .worker])

instance (ts : List ThreadId) (s : Driver) (a : Action) : Decidable (OneReadPathAmong ts s a) :=
  inferInstanceAs (Decidable (_ ∧ a.kind ∉ _ ∧ s.dev.adaptiveEnabled = false ∧ (a.kind ∈ _ → _)))

theorem OneReadPathAmong.oneReadPath {ts : List ThreadId} (h : OneReadPathAmong ts s a)
    (hs : DriverReach (OneReadPathAmong ts) s) : OneReadPath s a := by
  refine ⟨h.2.1, h.2.2.1, fun hkind u => ?_⟩
  by_cases hu : u ∈ ts
  · exact h.2.2.2 hkind u hu
  · rw [DriverReach.idle (hs.mono fun _ _ hok => hok.1) hu]
    decide

/-- Two READs with room for a frame. -/
def twoReads : List Action := (List.replicate 2 (.read 1 7 100 :: steps 1 10)).flatten

/-- A frame that is put back into the empty queue is delivered before the one captured after it. -/
theorem reads_in_transmit_order_put_back :
    (driverSystem.after .initial
        (failedRead ++ steps 1 9 ++ .packet 2 60 :: steps 2 7 ++ twoReads)).dev.deliveredFrames
      = [⟨1, 60⟩, ⟨0, 60⟩] ∧
    (driverSystem.after .initial
        (failedRead ++ steps 1 9 ++ .packet 2 60 :: steps 2 7 ++ twoReads)).dev.deliveredFrames.Pairwise
      fun later earlier => earlier.serial < later.serial := by
  have hreach : DriverReach
      (fun s a => OneReadPathAmong [0, 1, 2] s a ∧ ∀ t, t ∈ a.thread →
        ((s.thr t).storesBack s.dev = true → s.dev.capture.queue.frames = []) ∧
          (s.thr t).deliversDirectly s.dev a.choice = false)
      (driverSystem.after .initial (failedRead ++ steps 1 9 ++ .packet 2 60 :: steps 2 7 ++ twoReads)) :=
    Machine.System.reach_after_keeping (by decide +kernel) (driverReach_initial _)
  refine ⟨by decide +kernel, reads_in_transmit_order (hreach.exchange fun s a hs hok => ?_)⟩
  refine ⟨hok.1.oneReadPath (hs.mono fun _ _ hok => hok.1), fun t ht => ⟨(hok.2 t ht).1, fun hdirect => ?_⟩⟩
  rw [(hok.2 t ht).2] at hdirect
  cases hdirect

/-- A frame is captured before a READ puts the one it could not deliver back: READs return the two in the
wrong order, without any direct delivery. -/
theorem put_back_reorders_reads :
    ∃ s x y, DriverReach (fun s a => OneReadPath s a ∧
        ∀ t, t ∈ a.thread → (s.thr t).deliversDirectly s.dev a.choice = false) s ∧
      x.serial < y.serial ∧ s.dev.deliveredFrames = [x, y] := by
  have hreach : DriverReach (fun s a => OneReadPathAmong [0, 1, 2] s a ∧
        ∀ t, t ∈ a.thread → (s.thr t).deliversDirectly s.dev a.choice = false)
      (driverSystem.after .initial (failedRead ++ .packet 2 60 :: steps 2 8 ++ steps 1 8 ++ twoReads)) :=
    Machine.System.reach_after_keeping (by decide +kernel) (driverReach_initial _)
  refine ⟨_, ⟨0, 60⟩, ⟨1, 60⟩, hreach.exchange fun s a hs hok => ⟨?_, hok.2⟩, by decide, by decide +kernel⟩
  exact hok.1.oneReadPath (hs.mono fun _ _ hok => hok.1)

/-- A READ finds the capture queue empty, and is parked after a frame was captured at dispatch level. The next
frame is given to it directly, before the captured one; nothing is put back. -/
theorem direct_delivery_reorders_reads :
    ∃ s x y, DriverReach (fun s a => OneReadPath s a ∧
        ∀ t, t ∈ a.thread → (s.thr t).storesBack s.dev = false) s ∧
      x.serial < y.serial ∧ s.dev.deliveredFrames = [x, y] := by
  have hreach : DriverReach (fun s a => OneReadPathAmong [0, 1, 2] s a ∧
        ∀ t, t ∈ a.thread → (s.thr t).storesBack s.dev = false)
      (driverSystem.after .initial
        ([.create 0 7] ++ steps 0 2 ++ [.read 1 7 100] ++ steps 1 6
          ++ [.transmit 2 false] ++ steps 2 3 ++ [.packet 2 60] ++ steps 2 11 ++ steps 1 2
          ++ [.transmit 2 true] ++ steps 2 3 ++ [.packet 2 60] ++ steps 2 11
          ++ .read 1 7 100 :: steps 1 10)) :=
    Machine.System.reach_after_keeping (by decide +kernel) (driverReach_initial _)
  refine ⟨_, ⟨0, 60⟩, ⟨1, 60⟩, hreach.exchange fun s a hs hok => ⟨?_, hok.2⟩, by decide, by decide +kernel⟩
  exact hok.1.oneReadPath (hs.mono fun _ _ hok => hok.1)

end WinTap

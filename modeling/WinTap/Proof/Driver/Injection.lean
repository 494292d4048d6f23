import WinTap.Base.Custody
import WinTap.Proof.Driver.Callbacks
import WinTap.Proof.Driver.Steady

/-!
# The order of injected frames

Accepted frames go to the end of the injection queue, and the RX callback takes them from its front. What was
injected is then what was indicated, followed by the frame that the callback holds, followed by the queue. A
frame that does not fit its descriptor is put back at the end of the queue: this keeps the order only when the
queue is empty, and in a full queue the frame is lost.
-/

namespace WinTap

variable {th : Thread} {d d' : Device} {e : Event} {h : Handle} {input : WriteInput} {pc : RxPc}
  {flow : Flow WritePc Unit} {t : ThreadId} {choice : Choice} {next : Device × Thread} {s : Driver}

/-- The frame that the RX callback has taken and not yet placed or put back. -/
def RxPc.heldFrame : RxPc → Option Frame
  | .generation _ f _ | .place _ f _ | .requeueLifecycle _ f | .requeueOwner _ f | .requeueEnqueue f => some f
  | .lease | .lifecycle | .owner | .ring _ | .dequeue _ | .claim _ _ | .requeueGeneration | .drop => none

def Thread.receivedFrame : Thread → Option Frame
  | .receive pc => pc.heldFrame
  | _ => none

theorem Thread.receivedFrame_eq_none (hk : th.kind ≠ .receive) : th.receivedFrame = none := by
  cases th <;> first | rfl | exact absurd rfl hk

def Event.injectedFrame : Event → Option Frame
  | .injected _ f => some f
  | _ => none

def Event.indicatedFrame : Event → Option Frame
  | .indicated f => some f
  | _ => none

/-- The frames that WRITEs injected, oldest first. -/
def Device.injectedFrames (d : Device) : List Frame := (d.log.filterMap Event.injectedFrame).reverse

/-- The frames handed to the network stack, oldest first. -/
def Device.indicatedFrames (d : Device) : List Frame := (d.log.filterMap Event.indicatedFrame).reverse

/-- The injected frames are the indicated ones, the held one and the queued ones, in this order. -/
def Device.InOrder (d : Device) (held : Option Frame) : Prop :=
  d.injectedFrames = d.indicatedFrames ++ held.toList ++ d.injection.queue.frames

theorem Device.injectedFrames_cons (hlog : d'.log = e :: d.log) :
    d'.injectedFrames = d.injectedFrames ++ e.injectedFrame.toList := by
  rw [Device.injectedFrames, hlog, List.filterMap_cons]
  cases e.injectedFrame with
  | none => simp [Device.injectedFrames]
  | some f => simp [Device.injectedFrames]

theorem Device.indicatedFrames_cons (hlog : d'.log = e :: d.log) :
    d'.indicatedFrames = d.indicatedFrames ++ e.indicatedFrame.toList := by
  rw [Device.indicatedFrames, hlog, List.filterMap_cons]
  cases e.indicatedFrame with
  | none => simp [Device.indicatedFrames]
  | some f => simp [Device.indicatedFrames]

/-! ### Writers -/

/-- New frames are accepted at the end of the queue, and none of them is too long. -/
def Injects (d d' : Device) : Prop :=
  ∃ new : List Frame, d'.injection.queue = { d.injection.queue with frames := d.injection.queue.frames ++ new } ∧
    d'.injectedFrames = d.injectedFrames ++ new ∧ d'.indicatedFrames = d.indicatedFrames ∧
    ∀ f ∈ new, f.length ≤ d.frameMaximum

theorem Injects.inOrder {held : Option Frame} (h : Injects d d') (horder : d.InOrder held) : d'.InOrder held := by
  obtain ⟨new, hqueue, hinjected, hindicated, -⟩ := h
  unfold Device.InOrder at horder ⊢
  rw [hinjected, hindicated, hqueue, horder, List.append_assoc]

theorem Injects.nothing (hqueue : d'.injection.queue = d.injection.queue)
    (hinjected : d'.injectedFrames = d.injectedFrames) (hindicated : d'.indicatedFrames = d.indicatedFrames) :
    Injects d d' := by
  refine ⟨[], ?_, ?_, hindicated, fun f hf => (by cases hf)⟩
  · rw [List.append_nil, hqueue]
  · rw [List.append_nil, hinjected]

/-- A WRITE carries only frames that the instance admits. -/
def WritePc.Sized (maximum : Nat) (input : WriteInput) : WritePc → Prop
  | .capacity | .allocate => input.inputLength ≤ maximum
  | .enqueue f => f.length ≤ maximum
  | _ => True

def Thread.Sized (maximum : Nat) : Thread → Prop
  | .write _ input pc => pc.Sized maximum input
  | _ => True

theorem evtIoWrite_sized {pc : WritePc} (hstep : evtIoWrite d t h input choice pc = some (d', flow))
    (hsized : pc.Sized d.frameMaximum input) : flow.on (WritePc.Sized d.frameMaximum input) True := by
  cases pc <;> simp only [evtIoWrite] at hstep
  case lock =>
    split at hstep <;> cases hstep
    trivial
  case lifecycle =>
    cases hstep
    simp only [Flow.on_run]
    repeat' split
    all_goals trivial
  case tryAdmit =>
    split at hstep <;> cases hstep
    · trivial
    · simp only [Flow.on_run]
      split
      · trivial
      · rename_i hbuffer
        unfold writeBufferStatus at hbuffer
        split at hbuffer
        · cases hbuffer
        · split at hbuffer
          · cases hbuffer
          · exact Nat.le_of_not_lt ‹_›
  case capacity =>
    cases hstep
    simp only [Flow.on_run]
    split
    · trivial
    · exact hsized
  case allocate =>
    split at hstep
    · cases hstep
      trivial
    · split at hstep <;> cases hstep
      · trivial
      · exact hsized
  case enqueue f => split at hstep <;> cases hstep <;> trivial
  case completeAccepted notify =>
    cases hstep
    cases notify <;> trivial
  all_goals
    cases hstep
    trivial

theorem evtIoWrite_injects {pc : WritePc} (hstep : evtIoWrite d t h input choice pc = some (d', flow))
    (hsized : pc.Sized d.frameMaximum input) : Injects d d' := by
  cases pc <;> simp only [evtIoWrite] at hstep
  case lock | tryAdmit =>
    split at hstep <;> cases hstep <;> exact .nothing rfl rfl rfl
  case allocate =>
    split at hstep
    · cases hstep
      exact .nothing rfl rfl rfl
    · split at hstep <;> cases hstep <;> exact .nothing rfl rfl rfl
  case enqueue f =>
    split at hstep <;> cases hstep
    · exact .nothing rfl rfl rfl
    · rename_i queue henqueue
      refine ⟨[f], (FrameQueue.enqueue_eq henqueue).2, Device.injectedFrames_cons (e := .injected h f) rfl, ?_, ?_⟩
      · exact (Device.indicatedFrames_cons (e := .injected h f) rfl).trans (List.append_nil _)
      · intro g hg
        rw [List.mem_singleton.mp hg]
        exact hsized
  all_goals
    cases hstep
    exact .nothing rfl rfl rfl

/-- No callback but a WRITE or the RX callback does anything to the frames. -/
theorem stepThread_injects (hstep : stepThread d t choice th = some next)
    (hkind : th.kind ∉ [.receive, .cleanup, .d0Entry, .d0Exit]) (hsized : th.Sized d.frameMaximum) :
    Injects d next.1 := by
  simp only [List.mem_cons, List.not_mem_nil, or_false, not_or] at hkind
  by_cases hwrite : th.kind = .write
  · cases th <;> simp only [Thread.kind, reduceCtorEq] at hwrite
    rename_i h input pc
    obtain ⟨⟨d', flow⟩, hresult, rfl⟩ := Option.map_eq_some_iff.mp hstep
    cases flow <;> exact evtIoWrite_injects hresult hsized
  · have hlogs := stepThread_logs hstep
    refine .nothing ((stepThread_frames hstep).injectionQueue (by simp [hkind, hwrite])) ?_ ?_
    · obtain hsame | ⟨e, hlog, hauthor⟩ := hlogs
      · rw [Device.injectedFrames, hsame, Device.injectedFrames]
      · have hnone : e.injectedFrame = none := by
          cases e <;> simp [Event.authors, hwrite, Event.injectedFrame] at hauthor ⊢
        rw [Device.injectedFrames_cons hlog, hnone]
        exact List.append_nil _
    · obtain hsame | ⟨e, hlog, hauthor⟩ := hlogs
      · rw [Device.indicatedFrames, hsame, Device.indicatedFrames]
      · have hnone : e.indicatedFrame = none := by
          cases e <;> simp [Event.authors, hkind, Event.indicatedFrame] at hauthor ⊢
        rw [Device.indicatedFrames_cons hlog, hnone]
        exact List.append_nil _

theorem stepThread_sized (hstep : stepThread d t choice th = some next) (hsized : th.Sized d.frameMaximum) :
    next.2.Sized d.frameMaximum := by
  by_cases hwrite : th.kind = .write
  · cases th <;> simp only [Thread.kind, reduceCtorEq] at hwrite
    rename_i h input pc
    obtain ⟨⟨d', flow⟩, hresult, rfl⟩ := Option.map_eq_some_iff.mp hstep
    have hnext := evtIoWrite_sized hresult hsized
    cases flow with
    | run pc => exact hnext
    | ret value => trivial
  · have hother := stepThread_kind_ne hstep (by decide) hwrite
    cases hnext : next.2 <;> simp only [hnext, Thread.kind, ne_eq, not_true_eq_false] at hother <;> trivial

/-! ### The RX callback -/

/-- An RX callback that puts a frame back finds the queue empty, and the queue takes it. -/
def RxPc.PutsBack (d : Device) : RxPc → Prop
  | .requeueEnqueue f => d.injection.queue.frames = [] ∧ ∃ queue, d.injection.queue.enqueue f = .ok queue
  | _ => True

/-- What a step of the RX callback does with the frames. -/
inductive ReceiveStep (d : Device) (pc : RxPc) (d' : Device) (held : Option Frame) : Prop
  | keep (hqueue : d'.injection.queue = d.injection.queue) (hlog : d'.log = d.log) (hheld : held = pc.heldFrame)
  | take {f : Frame} (hnone : pc.heldFrame = none) (hlog : d'.log = d.log) (hheld : held = some f)
      (hdequeue : d.injection.queue.dequeue = some (f, d'.injection.queue))
  | place {f : Frame} (hqueue : d'.injection.queue = d.injection.queue) (hlog : d'.log = .indicated f :: d.log)
      (hheld : held = none) (hf : pc.heldFrame = some f)
  | put {f : Frame} (hpc : pc = .requeueEnqueue f) (hlog : d'.log = d.log) (hheld : held = none)
      (henqueue : d.injection.queue.enqueue f = .ok d'.injection.queue)
  /-- A put-back finds the instance closed, its owner retired or the queue full. -/
  | letGo (hqueue : d'.injection.queue = d.injection.queue) (hlog : d'.log = d.log) (hheld : held = none)
      (hwhy : d.lifecycle ≠ .instanceOpen ∨ (∃ gen, pc.ownerGeneration = some gen ∧ d.ownerGeneration ≠ gen) ∨
        ∃ f e, pc = .requeueEnqueue f ∧ d.injection.queue.enqueue f = .error e)

theorem advanceReceive_step (d : Device) (t : ThreadId) (choice : Choice) (pc : RxPc) :
    ReceiveStep d pc (advanceReceive d t choice pc).1 ((advanceReceive d t choice pc).2.on RxPc.heldFrame none) := by
  cases pc with
  | lease | lifecycle | ring gen =>
    simp only [advanceReceive]
    split <;> exact .keep rfl rfl rfl
  | dequeue gen =>
    simp only [advanceReceive]
    split
    · exact .keep rfl rfl rfl
    · rename_i hdequeue
      exact .take rfl rfl rfl hdequeue
  | place gen f wasFull =>
    simp only [advanceReceive]
    split
    · cases wasFull <;> exact .place rfl rfl rfl rfl
    · exact .keep rfl rfl rfl
  | claim gen pc => exact .keep rfl rfl (call_on (fun _ => rfl) fun _ => rfl)
  | requeueLifecycle gen f =>
    simp only [advanceReceive]
    split
    · exact .keep rfl rfl rfl
    · exact .letGo rfl rfl rfl (.inl ‹_›)
  | requeueOwner gen f =>
    simp only [advanceReceive]
    split
    · exact .keep rfl rfl rfl
    · exact .letGo rfl rfl rfl (.inr (.inl ⟨gen, rfl, ‹_›⟩))
  | requeueEnqueue f =>
    simp only [advanceReceive]
    split
    · exact .letGo rfl rfl rfl (.inr (.inr ⟨f, _, rfl, ‹_›⟩))
    · exact .put rfl rfl rfl ‹_›
  | _ => exact .keep rfl rfl rfl

namespace ReceiveStep

variable {held : Option Frame}

theorem queue (h : ReceiveStep d pc d' held) :
    (∃ frames, d'.injection.queue = { d.injection.queue with frames := frames }) ∧
      d'.injectedFrames = d.injectedFrames := by
  have hsame : d'.log = d.log → d'.injectedFrames = d.injectedFrames := fun hlog => by
    rw [Device.injectedFrames, hlog, Device.injectedFrames]
  cases h with
  | keep hqueue hlog | letGo hqueue hlog => exact ⟨⟨_, hqueue⟩, hsame hlog⟩
  | take _ hlog _ hdequeue => exact ⟨⟨_, (FrameQueue.dequeue_eq hdequeue).2⟩, hsame hlog⟩
  | place hqueue hlog => exact ⟨⟨_, hqueue⟩, (Device.injectedFrames_cons hlog).trans (List.append_nil _)⟩
  | put _ hlog _ henqueue => exact ⟨⟨_, (FrameQueue.enqueue_eq henqueue).2⟩, hsame hlog⟩

theorem inOrder (hstep : ReceiveStep d pc d' held) (hlifecycle : d.lifecycle = .instanceOpen)
    (howner : ∀ gen, pc.ownerGeneration = some gen → gen = d.ownerGeneration) (hback : pc.PutsBack d)
    (h : d.InOrder pc.heldFrame) : d'.InOrder held := by
  have hsame : d'.log = d.log → d'.indicatedFrames = d.indicatedFrames := fun hlog => by
    rw [Device.indicatedFrames, hlog, Device.indicatedFrames]
  rw [Device.InOrder] at h ⊢
  rw [hstep.queue.2, h]
  cases hstep with
  | keep hqueue hlog hheld => rw [hqueue, hheld, hsame hlog]
  | take hnone hlog hheld hdequeue =>
    rw [hnone, hheld, hsame hlog, (FrameQueue.dequeue_eq hdequeue).1]
    simp
  | place hqueue hlog hheld hf =>
    rw [hf, hheld, hqueue, Device.indicatedFrames_cons hlog]
    simp [Event.indicatedFrame]
  | put hpc hlog hheld henqueue =>
    subst hpc
    rw [hheld, hsame hlog, (FrameQueue.enqueue_eq henqueue).2, hback.1]
    simp [RxPc.heldFrame]
  | letGo _ _ _ hwhy =>
    obtain hclosed | ⟨gen, hgen, hretired⟩ | ⟨f, e, rfl, herror⟩ := hwhy
    · exact absurd hlifecycle hclosed
    · exact absurd (howner gen hgen).symm hretired
    · obtain ⟨-, queue, henqueue⟩ := hback
      cases henqueue.symm.trans herror

end ReceiveStep

/-! ### Whole runs -/

theorem Serialized.received_turn (h : Serialized s) (ht : (s.thr t).onReceive = true) (u : ThreadId)
    (hu : (s.thr u).receivedFrame ≠ none) : u = t := by
  refine h.receive_unique ?_ ht
  cases hth : s.thr u <;> first | rfl | exact absurd (by rw [hth]; rfl) hu

/-- The injection queue is open and has room for one frame when it is empty. -/
structure Device.InjectionReady (d : Device) : Prop where
  opened : d.injection.queue.state = .opened
  limit : d.injection.queue.limit = frameQueueLimit
  byteLimit : d.injection.queue.byteLimit = frameQueueLimit * d.frameMaximum

theorem Device.InjectionReady.of_frames {frames : List Frame} (h : d.InjectionReady)
    (hqueue : d'.injection.queue = { d.injection.queue with frames := frames })
    (hmaximum : d'.frameMaximum = d.frameMaximum) : d'.InjectionReady where
  opened := by rw [hqueue]; exact h.opened
  limit := by rw [hqueue]; exact h.limit
  byteLimit := by rw [hqueue, hmaximum]; exact h.byteLimit

theorem Device.InjectionReady.enqueue {f : Frame} (h : d.InjectionReady) (hempty : d.injection.queue.frames = [])
    (hlength : f.length ≤ d.frameMaximum) : ∃ queue, d.injection.queue.enqueue f = .ok queue := by
  refine ⟨_, FrameQueue.enqueue_ok h.opened ?_ ?_⟩
  · rw [FrameQueue.len, hempty, h.limit]
    decide
  · rw [FrameQueue.bytes, hempty, h.byteLimit]
    simp only [List.map_nil, List.sum_nil, frameQueueLimit]
    omega

/-- Every frame accepted so far is in order, and of an admitted size. -/
structure InjectionInv (s : Driver) : Prop where
  order : ∃ held, Custody.InHand (fun t => (s.thr t).receivedFrame) held ∧ s.dev.InOrder held
  ready : s.dev.InjectionReady
  writes : ∀ t, (s.thr t).Sized s.dev.frameMaximum
  frames : ∀ f ∈ s.dev.injectedFrames, f.length ≤ s.dev.frameMaximum

/-- An RX callback about to put its frame back finds the injection queue empty. -/
def Thread.putBackEmpty (d : Device) : Thread → Bool
  | .receive (.requeueEnqueue _) => d.injection.queue.isEmpty
  | _ => true

/-- Nobody tears down, and a frame is put back only into an empty injection queue. -/
def PutBackEmpty (s : Driver) (a : Action) : Prop :=
  NoTeardown s a ∧ ∀ t, t ∈ a.thread → (s.thr t).putBackEmpty s.dev = true

instance (s : Driver) (a : Action) : Decidable (PutBackEmpty s a) :=
  inferInstanceAs (Decidable (a.kind ∉ _ ∧ ∀ t, t ∈ a.thread → (s.thr t).putBackEmpty s.dev = true))

namespace InjectionInv

variable {s s' : Driver} {a : Action}

theorem init (h : driverSystem.init s) : InjectionInv s := by
  obtain ⟨⟨mtu, -, -, hdev⟩, hidle⟩ := h
  refine ⟨⟨none, .initial fun t => ?_, ?_⟩, ?_, fun t => ?_, ?_⟩
  · rw [hidle t]
    rfl
  · rw [hdev]
    rfl
  · rw [hdev]
    exact ⟨rfl, rfl, rfl⟩
  · rw [hidle t]
    trivial
  · rw [hdev]
    intro f hf
    cases hf

theorem set (h : InjectionInv s) (hinjects : Injects s.dev d) (hmaximum : d.frameMaximum = s.dev.frameMaximum)
    (hsized : th.Sized s.dev.frameMaximum) (hheld : th.receivedFrame = (s.thr t).receivedFrame) :
    InjectionInv (s.setThread t d th) := by
  obtain ⟨held, hholds, horder⟩ := h.order
  have hinjects' := hinjects
  obtain ⟨new, hqueue, hinjected, -, hnew⟩ := hinjects'
  refine ⟨⟨held, ?_, hinjects.inOrder horder⟩, h.ready.of_frames hqueue hmaximum, fun i => ?_, fun f hf => ?_⟩
  · rwa [s.setThread_map _ _ _ Thread.receivedFrame, hheld, Function.update_eq_self]
  · rw [Driver.setThread_dev, hmaximum]
    by_cases hi : i = t
    · subst hi
      rwa [Driver.setThread_self]
    · rw [Driver.setThread_of_ne _ _ _ _ hi]
      exact h.writes i
  · rw [Driver.setThread_dev, hmaximum]
    rw [Driver.setThread_dev, hinjected] at hf
    obtain hf | hf := List.mem_append.mp hf
    · exact h.frames f hf
    · exact hnew f hf

/-- The frame that goes back into an empty queue is one that was injected, so it fits. -/
theorem putsBack (h : InjectionInv s) (horder : s.dev.InOrder pc.heldFrame)
    (hempty : ∀ f, pc = .requeueEnqueue f → s.dev.injection.queue.frames = []) : pc.PutsBack s.dev := by
  cases pc with
  | requeueEnqueue f =>
    have hmem : f ∈ s.dev.injectedFrames := by
      rw [horder]
      simp [RxPc.heldFrame]
    exact ⟨hempty f rfl, h.ready.enqueue (hempty f rfl) (h.frames f hmem)⟩
  | _ => trivial

theorem receive (h : InjectionInv s) (hsteady : Steady s) (hserialized : Serialized s) (hthr : s.thr t = .receive pc)
    (hempty : ∀ f, pc = .requeueEnqueue f → s.dev.injection.queue.frames = [])
    (hstep : stepThread s.dev t choice (.receive pc) = some next) : InjectionInv (s.setThread t next.1 next.2) := by
  obtain ⟨held, hholds, horder⟩ := h.order
  have hreceive : (s.thr t).onReceive = true := by rw [hthr]; rfl
  rw [hholds.eq_hand (hserialized.received_turn hreceive), hthr] at horder
  have howner : ∀ gen, pc.ownerGeneration = some gen → gen = s.dev.ownerGeneration :=
    fun gen hgen => hsteady.owner t gen (by rw [hthr]; exact hgen)
  have hreceived := advanceReceive_step s.dev t choice pc
  have hnext := hreceived.inOrder hsteady.lifecycle howner (h.putsBack horder hempty) horder
  obtain ⟨⟨frames, hqueue⟩, hinjected⟩ := hreceived.queue
  have hmaximum := (stepThread_frames hstep).frameMaximum
  have hsized := stepThread_sized hstep trivial
  cases hstep
  have hsettled : ∀ result : Device × Flow RxPc Unit,
      result.1.InOrder (result.2.on RxPc.heldFrame none) →
      ((Thread.receive pc).settle .receive result).1.InOrder
        ((Thread.receive pc).settle .receive result).2.receivedFrame ∧
      ((Thread.receive pc).settle .receive result).1.injection = result.1.injection ∧
      ((Thread.receive pc).settle .receive result).1.injectedFrames = result.1.injectedFrames := by
    intro result hresult
    obtain ⟨d, flow⟩ := result
    cases flow <;> exact ⟨hresult, rfl, rfl⟩
  obtain ⟨hin, hinjection, hsame⟩ := hsettled _ hnext
  refine ⟨⟨_, ?_, hin⟩, h.ready.of_frames (hinjection ▸ hqueue) hmaximum, fun i => ?_, fun f hf => ?_⟩
  · rw [s.setThread_map _ _ _ Thread.receivedFrame]
    exact .update (hserialized.received_turn hreceive)
  · rw [Driver.setThread_dev, hmaximum]
    by_cases hi : i = t
    · subst hi
      rwa [Driver.setThread_self]
    · rw [Driver.setThread_of_ne _ _ _ _ hi]
      exact h.writes i
  · rw [Driver.setThread_dev, hmaximum]
    rw [Driver.setThread_dev, hsame, hinjected] at hf
    exact h.frames f hf

theorem step (h : InjectionInv s) (hsteady : Steady s) (hserialized : Serialized s) (hok : PutBackEmpty s a)
    (hstep : stepDriver s a = some s') : InjectionInv s' := by
  cases stepDriver_cases hstep with
  | @start t a d th hidle hstart =>
    have hth : th.receivedFrame = (s.thr t).receivedFrame := by
      rw [hidle]
      cases hstart <;> rfl
    have hsized : th.Sized s.dev.frameMaximum := by cases hstart <;> trivial
    obtain ⟨_, _, _, _, _, _, _, _, hframe⟩ := hstart.frame
    refine h.set ?_ (by rw [hframe]) hsized hth
    rw [hframe]
    exact .nothing rfl rfl rfl
  | @framework a d hmove =>
    rw [s.setDev_eq 0]
    cases hmove <;> exact h.set (.nothing rfl rfl rfl) rfl (h.writes 0) rfl
  | @packet t length passive gen captured hthr hlength =>
    exact h.set (.nothing rfl rfl rfl) rfl trivial (by rw [hthr]; rfl)
  | @advance t choice next hadvance =>
    have hkind := hsteady.kind t
    by_cases hreceive : (s.thr t).kind = .receive
    · cases hthr : s.thr t <;> simp only [hthr, Thread.kind, reduceCtorEq] at hreceive
      rename_i pc
      rw [hthr] at hadvance
      refine h.receive hsteady hserialized hthr (fun f hf => ?_) hadvance
      have hempty := hok.2 t rfl
      rw [hthr, hf] at hempty
      exact List.isEmpty_iff.mp hempty
    · have hnext := stepThread_kind_ne hadvance (by decide) hreceive
      simp only [List.mem_cons, List.not_mem_nil, or_false, not_or] at hkind
      refine h.set (stepThread_injects hadvance (by simp [hkind, hreceive]) (h.writes t))
        (stepThread_frames hadvance).frameMaximum (stepThread_sized hadvance (h.writes t)) ?_
      rw [Thread.receivedFrame_eq_none hreceive, Thread.receivedFrame_eq_none hnext]

end InjectionInv

theorem DriverReach.injection (h : DriverReach PutBackEmpty s) : InjectionInv s := by
  refine h.invariant (fun _ => InjectionInv.init) fun s a s' hreach hinv hok hstep => ?_
  exact hinv.step (DriverReach.steady hreach fun _ _ => And.left) (DriverReach.serialized hreach) hok hstep

/-- The frames handed to the network stack are those that WRITEs injected, in the same order and without a
gap, as long as no frame is put back into a queue that has others; what is left is the frame that the RX
callback holds, if any, and the queue. -/
theorem injected_frames_in_order {s : Driver} (h : DriverReach PutBackEmpty s) :
    s.dev.indicatedFrames <+: s.dev.injectedFrames ∧
      ∃ held : Option Frame, (∀ f, held = some f ↔ ∃ t, (s.thr t).receivedFrame = some f) ∧
        s.dev.injectedFrames = s.dev.indicatedFrames ++ (held.toList ++ s.dev.injection.queue.frames) := by
  obtain ⟨held, hholds, horder⟩ := (DriverReach.injection h).order
  rw [Device.InOrder, List.append_assoc] at horder
  exact ⟨⟨_, horder.symm⟩, held, hholds, horder⟩

/-- A WRITE of a frame of 60 bytes. -/
def writeFrame : WriteInput := ⟨60, statusSuccess, 60⟩

/-- Frames are injected by WRITEs, and an RX callback takes the first and finds no descriptor that fits it. -/
def refusedFrame (writes : Nat) : List Action :=
  [.create 0 7] ++ steps 0 2 ++ (List.replicate writes (.write 1 7 writeFrame :: steps 1 11)).flatten
    ++ [.receive 2] ++ steps 2 6 ++ [.advance 2 (some statusDeviceNotReady)] ++ steps 2 5

/-- A single frame that does not fit goes back and is indicated by the next callback. -/
theorem injected_frames_in_order_put_back :
    (driverSystem.after .initial (refusedFrame 1 ++ .receive 2 :: steps 2 7)).dev.indicatedFrames = [⟨0, 60⟩] ∧
      (driverSystem.after .initial (refusedFrame 1 ++ .receive 2 :: steps 2 7)).dev.indicatedFrames
        <+: (driverSystem.after .initial (refusedFrame 1 ++ .receive 2 :: steps 2 7)).dev.injectedFrames :=
  ⟨by decide +kernel, (injected_frames_in_order
    (Machine.System.reach_after_keeping (by decide +kernel) (driverReach_initial _))).1⟩

/-- With a second frame behind it, the frame that does not fit is overtaken. -/
theorem injected_frames_reordered :
    ∃ s, DriverReach NoTeardown s ∧ s.dev.injectedFrames = [⟨0, 60⟩, ⟨1, 60⟩] ∧
      s.dev.indicatedFrames = [⟨1, 60⟩] ∧ ¬s.dev.indicatedFrames <+: s.dev.injectedFrames := by
  refine ⟨driverSystem.after .initial (refusedFrame 2 ++ .receive 2 :: steps 2 7),
    Machine.System.reach_after_of (fun _ => ?_) (driverReach_initial _), ?_⟩
  · have hacts : ∀ a ∈ refusedFrame 2 ++ .receive 2 :: steps 2 7, a.kind ∉ [.cleanup, .d0Exit] := by
      decide +kernel
    exact hacts
  · decide +kernel

end WinTap

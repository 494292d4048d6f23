import WinTap.Base.Tally
import WinTap.Driver.Admission
import WinTap.Proof.Driver.Frames

/-!
# The leases of the callbacks

Which lease a callback holds can be read off its program counter. Both lease words of the instance count
exactly these, in every run: a callback that acquires counts one more, one that drops counts one less, and
a teardown path changes closers only. So a word that was drained has no leased callback.
-/

namespace WinTap

variable {d : Device} {t : ThreadId} {choice : Choice} {w w' : Word} {held held' : Nat} {th th' : Thread}
  {next : Device × Thread} {closer : Closer}

/-! ### What a callback holds -/

/-- A put-back works under a lease of its own. -/
def RequeuePc.leases : RequeuePc → Nat
  | .lease => 0
  | _ => 1

def ReadPc.leases : ReadPc → Nat
  | .lease | .refuse => 0
  | .requeue _ _ _ pc => 1 + pc.leases
  | _ => 1

def DrainPc.leases : DrainPc → Nat
  | .lease => 0
  | .requeue _ _ _ _ pc => 1 + pc.leases
  | _ => 1

def TxPc.leases : TxPc → Nat
  | .lease => 0
  | _ => 1

def RxPc.leases : RxPc → Nat
  | .lease => 0
  | _ => 1

/-- The capture leases a callback holds. -/
def Thread.captureLeases : Thread → Nat
  | .read _ pc => pc.leases
  | .worker (.drain pc) => pc.leases
  | .transmit _ pc => pc.leases
  | _ => 0

/-- The receive leases a callback holds. -/
def Thread.receiveLeases : Thread → Nat
  | .receive pc => pc.leases
  | _ => 0

/-! ### What a step does to a word -/

/-- The count moves with the leases of the callback, no closer changes, and a word with a closer grants
nothing. -/
def LeaseStep (w : Word) (held : Nat) (w' : Word) (held' : Nat) : Prop :=
  held ≤ leaseCount w →
    leaseCount w' + held = leaseCount w + held' ∧ (∀ c, closedBy w' c ↔ closedBy w c) ∧
      (held < held' → ∀ c, ¬closedBy w c)

theorem LeaseStep.same (h : held' = held) : LeaseStep w held w held' := by
  intro _
  rw [h]
  exact ⟨rfl, fun _ => Iff.rfl, fun hless => absurd hless (Nat.lt_irrefl _)⟩

theorem LeaseStep.grant (h : acquireLease w = some w') : LeaseStep w held w' (held + 1) := by
  intro _
  obtain ⟨hcount, hclosers, hopen⟩ := acquireLease_eq h
  exact ⟨by omega, hclosers, fun _ => hopen⟩

theorem LeaseStep.drop : LeaseStep w (held + 1) (dropLease w) held := by
  intro hle
  obtain ⟨hcount, hclosers⟩ := dropLease_eq (w := w) (by omega)
  exact ⟨by omega, hclosers, fun hless => absurd hless (by omega)⟩

/-- A callee works beside the leases of its caller. -/
theorem LeaseStep.beside (h : LeaseStep w held w' held') (n : Nat) : LeaseStep w (n + held) w' (n + held') := by
  intro hle
  obtain ⟨hcount, hclosers, hgrant⟩ := h (by omega)
  exact ⟨by omega, hclosers, fun hless => hgrant (by omega)⟩

section
variable (d t choice)

theorem enqueueExistingCaptureFrame_leases (f : Frame) (pc : StorePc) :
    (enqueueExistingCaptureFrame d t f pc).1.capture.callbackLeases = d.capture.callbackLeases := by
  cases pc with
  | enqueue =>
    simp only [enqueueExistingCaptureFrame]
    split <;> rfl
  | _ => rfl

theorem dequeueCaptureFrame_leases (pc : TakePc) :
    (dequeueCaptureFrame d pc).1.capture.callbackLeases = d.capture.callbackLeases := by
  cases pc with
  | dequeue =>
    simp only [dequeueCaptureFrame]
    split <;> rfl
  | _ => rfl

theorem requeueCaptureFrameAndScheduleWait_leases (f : Frame) (gen : Word) (pc : RequeuePc) :
    LeaseStep d.capture.callbackLeases pc.leases
      (requeueCaptureFrameAndScheduleWait d t f gen pc).1.capture.callbackLeases
      ((requeueCaptureFrameAndScheduleWait d t f gen pc).2.on RequeuePc.leases 0) := by
  cases pc with
  | lease =>
    simp only [requeueCaptureFrameAndScheduleWait]
    split
    · exact .same rfl
    · rename_i hgrant
      exact .grant hgrant
  | lifecycle | owner =>
    simp only [requeueCaptureFrameAndScheduleWait]
    split <;> exact .same rfl
  | store pc =>
    have hword : (requeueCaptureFrameAndScheduleWait d t f gen (.store pc)).1.capture.callbackLeases
        = d.capture.callbackLeases := enqueueExistingCaptureFrame_leases d t f pc
    rw [hword]
    exact .same (call_on (fun _ => rfl) fun _ => rfl)
  | drop => exact .drop

theorem evtIoRead_leases (r : Read) (pc : ReadPc) :
    LeaseStep d.capture.callbackLeases pc.leases (evtIoRead d t r choice pc).1.capture.callbackLeases
      ((evtIoRead d t r choice pc).2.on ReadPc.leases 0) := by
  cases pc with
  | lease =>
    simp only [evtIoRead]
    split
    · exact .same rfl
    · rename_i hgrant
      exact .grant hgrant
  | lifecycle | adaptive gen | tryAdmit gen | forward =>
    simp only [evtIoRead]
    split <;> exact .same rfl
  | poll gen pc | take gen pc =>
    simp only [evtIoRead, call_fst, dequeueCaptureFrame_leases]
    exact .same (call_on (fun _ => rfl) fun value => by cases value <;> rfl)
  | deliver gen f =>
    obtain ⟨_, _, hframe⟩ := completeCapturedFrameToRead_frame d choice r f
    simp only [evtIoRead, hframe]
    refine .same ?_
    split <;> rfl
  | requeue gen f status pc =>
    have hrequeue := (requeueCaptureFrameAndScheduleWait_leases d t f gen pc).beside 1
    simp only [evtIoRead, call_fst]
    obtain ⟨_, hstep, hflow⟩ | ⟨_, hstep, hflow⟩ :=
      call_snd (requeueCaptureFrameAndScheduleWait d t f gen pc) _ _ <;>
    · rw [hflow]
      rwa [hstep] at hrequeue
  | drop => exact .drop
  | _ => exact .same rfl

theorem drainReads_leases (pc : DrainPc) :
    LeaseStep d.capture.callbackLeases pc.leases (drainReads d t choice pc).1.capture.callbackLeases
      ((drainReads d t choice pc).2.on DrainPc.leases 0) := by
  cases pc with
  | lease =>
    simp only [drainReads]
    split
    · exact .same rfl
    · rename_i hgrant
      exact .grant hgrant
  | lifecycle | forward r =>
    simp only [drainReads]
    split <;> exact .same rfl
  | retrieve gen =>
    simp only [drainReads, retrieveNextRequest]
    cases d.readQueue.waiting <;> exact .same rfl
  | take gen r pc =>
    simp only [drainReads, call_fst, dequeueCaptureFrame_leases]
    exact .same (call_on (fun _ => rfl) fun value => by cases value <;> rfl)
  | deliver gen r f =>
    obtain ⟨_, _, hframe⟩ := completeCapturedFrameToRead_frame d choice r f
    simp only [drainReads, hframe]
    refine .same ?_
    split <;> rfl
  | requeue gen r f status pc =>
    have hrequeue := (requeueCaptureFrameAndScheduleWait_leases d t f gen pc).beside 1
    simp only [drainReads, call_fst]
    obtain ⟨_, hstep, hflow⟩ | ⟨_, hstep, hflow⟩ :=
      call_snd (requeueCaptureFrameAndScheduleWait d t f gen pc) _ _ <;>
    · rw [hflow]
      rwa [hstep] at hrequeue
  | again | stop => exact .drop
  | _ => exact .same rfl

theorem evtReadCompletionWorkItem_leases (pc : WorkPc) :
    LeaseStep d.capture.callbackLeases (Thread.worker pc).captureLeases
      (evtReadCompletionWorkItem d t choice pc).1.capture.callbackLeases
      ((evtReadCompletionWorkItem d t choice pc).2.on (fun pc => (Thread.worker pc).captureLeases) 0) := by
  cases pc with
  | wait pc =>
    exact .same (call_on (fun _ => rfl) fun took => by cases took <;> rfl)
  | drain pc =>
    exact call_of (fun (d' : Device) held => LeaseStep _ _ d'.capture.callbackLeases held)
      (drainReads_leases d t choice pc) (fun _ => rfl) fun again => by cases again <;> rfl

theorem capturePacket_leases (passive : Bool) (gen : Word) (f : Frame) (pc : PacketPc) :
    (capturePacket d t passive gen f choice pc).1.capture.callbackLeases = d.capture.callbackLeases := by
  cases pc with
  | lockDirect =>
    simp only [capturePacket]
    split <;> rfl
  | retrieve =>
    simp only [capturePacket, retrieveNextRequest]
    cases d.readQueue.waiting <;> rfl
  | complete r =>
    obtain ⟨_, _, hframe⟩ := completeCapturedFrameToRead_frame d choice r f
    simp only [capturePacket]
    split
    · rw [hframe]
    · rfl
  | store mode pc => exact enqueueExistingCaptureFrame_leases d t f pc
  | _ => rfl

theorem advanceTransmit_leases (passive : Bool) (pc : TxPc) :
    LeaseStep d.capture.callbackLeases pc.leases
      (advanceTransmit d t passive choice pc).1.capture.callbackLeases
      ((advanceTransmit d t passive choice pc).2.on TxPc.leases 0) := by
  cases pc with
  | lease =>
    simp only [advanceTransmit]
    split
    · exact .same rfl
    · rename_i hgrant
      exact .grant hgrant
  | lifecycle | ring gen captured =>
    simp only [advanceTransmit]
    split <;> exact .same rfl
  | packet gen captured f pc =>
    simp only [advanceTransmit, call_fst, capturePacket_leases]
    exact .same (call_on (fun _ => rfl) fun _ => rfl)
  | drop => exact .drop
  | _ => exact .same rfl

theorem advanceReceive_leases (pc : RxPc) :
    LeaseStep d.injection.callbackLeases pc.leases (advanceReceive d t choice pc).1.injection.callbackLeases
      ((advanceReceive d t choice pc).2.on RxPc.leases 0) := by
  cases pc with
  | lease =>
    simp only [advanceReceive]
    split
    · exact .same rfl
    · rename_i hgrant
      exact .grant hgrant
  | place gen f wasFull =>
    simp only [advanceReceive]
    split
    · cases wasFull <;> exact .same rfl
    · exact .same rfl
  | lifecycle | ring gen | dequeue gen | requeueLifecycle gen f | requeueOwner gen f | requeueEnqueue f =>
    simp only [advanceReceive]
    split <;> exact .same rfl
  | claim gen pc => exact .same (call_on (fun _ => rfl) fun _ => rfl)
  | drop => exact .drop
  | _ => exact .same rfl

end

theorem Thread.captureLeases_eq_zero (hk : th.kind ∉ [.read, .worker, .transmit]) : th.captureLeases = 0 := by
  cases th <;> first | rfl | simp [Thread.kind] at hk

theorem Thread.receiveLeases_eq_zero (hk : th.kind ≠ .receive) : th.receiveLeases = 0 := by
  cases th <;> first | rfl | simp [Thread.kind] at hk

theorem stepThread_captureLeases (hk : th.kind ∉ [.cleanup, .d0Entry, .d0Exit])
    (hstep : stepThread d t choice th = some next) :
    LeaseStep d.capture.callbackLeases th.captureLeases next.1.capture.callbackLeases
      next.2.captureLeases := by
  have hframes := stepThread_frames hstep
  have hkind := stepThread_kind hstep
  have hsettle : ∀ {π : Type} (inside : π → Thread) (result : Device × Flow π Unit),
      LeaseStep d.capture.callbackLeases th.captureLeases result.1.capture.callbackLeases
        (result.2.on (fun pc => (inside pc).captureLeases) 0) →
      LeaseStep d.capture.callbackLeases th.captureLeases (th.settle inside result).1.capture.callbackLeases
        (th.settle inside result).2.captureLeases := by
    intro π inside result h
    obtain ⟨_, _, _, _, _, _, _, hframe⟩ := th.settle_frame inside result
    rw [hframe, Thread.settle_eq]
    cases hflow : result.2 <;> rw [hflow] at h <;> exact h
  by_cases hserves : th.kind ∈ [.read, .worker, .transmit]
  · cases th <;> simp only [stepThread] at hstep
    case read r pc =>
      cases hstep
      exact hsettle _ _ (evtIoRead_leases d t choice r pc)
    case worker pc =>
      cases hstep
      exact hsettle _ _ (evtReadCompletionWorkItem_leases d t choice pc)
    case transmit passive pc =>
      cases hstep
      exact hsettle _ _ (advanceTransmit_leases d t choice passive pc)
    all_goals simp [Thread.kind] at hserves
  · rw [hframes.captureLeases, Thread.captureLeases_eq_zero hserves]
    · refine .same ?_
      obtain hidle | hsame := hkind
      · rw [hidle]
        rfl
      · exact Thread.captureLeases_eq_zero (hsame ▸ hserves)
    · simp only [List.mem_cons, List.not_mem_nil, or_false] at *
      tauto

theorem stepThread_receiveLeases (hk : th.kind ∉ [.cleanup, .d0Entry, .d0Exit])
    (hstep : stepThread d t choice th = some next) :
    LeaseStep d.injection.callbackLeases th.receiveLeases next.1.injection.callbackLeases
      next.2.receiveLeases := by
  have hframes := stepThread_frames hstep
  have hkind := stepThread_kind hstep
  by_cases hserves : th.kind = .receive
  · cases th <;> simp only [stepThread] at hstep
    case receive pc =>
      cases hstep
      have hreceive := advanceReceive_leases d t choice pc
      obtain ⟨_, _, _, _, _, _, _, hframe⟩ :=
        (Thread.receive pc).settle_frame .receive (advanceReceive d t choice pc)
      rw [hframe, Thread.settle_eq]
      cases hflow : (advanceReceive d t choice pc).2 <;> rw [hflow] at hreceive <;> exact hreceive
    all_goals simp [Thread.kind] at hserves
  · rw [hframes.injectionLeases, Thread.receiveLeases_eq_zero hserves]
    · refine .same ?_
      obtain hidle | hsame := hkind
      · rw [hidle]
        rfl
      · exact Thread.receiveLeases_eq_zero (hsame ▸ hserves)
    · simp only [List.mem_cons, List.not_mem_nil, or_false] at *
      tauto

/-! ### Both words, and the teardown paths -/

/-- The leases a callback holds in one direction. -/
def Thread.leases (side : Side) (th : Thread) : Nat :=
  match side with
  | .receive => th.receiveLeases
  | .capture => th.captureLeases

def QuiescePc.shuts : QuiescePc → Option Side
  | .shutReceive => some .receive
  | .shutCapture => some .capture
  | .drainReceive | .drainCapture => none

def ReadmitPc.side : ReadmitPc → Side
  | .receive => .receive
  | .capture => .capture

/-- The next step of the callback closes the direction for this scope. -/
def Thread.shuts (side : Side) (c : Closer) : Thread → Prop
  | .cleanup _ (.quiesce _ pc) => c = .owner ∧ pc.shuts = some side
  | .d0Exit (.quiesce pc) => c = .power ∧ pc.shuts = some side
  | _ => False

/-- The next step of the callback readmits the direction for this scope. -/
def Thread.readmits (side : Side) (c : Closer) : Thread → Prop
  | .cleanup _ (.readmitResumed pc) | .cleanup _ (.readmitCallbacks pc) => c = .owner ∧ pc.side = side
  | .d0Entry (.readmitCallbacks pc) => c = .power ∧ pc.side = side
  | _ => False

/-- What a step does to the lease word of a direction. -/
structure WordStep (side : Side) (th : Thread) (w : Word) (th' : Thread) (w' : Word) : Prop where
  count : leaseCount w' + th.leases side = leaseCount w + th'.leases side
  closers : ∀ c, closedBy w' c ↔ (closedBy w c ∨ th.shuts side c) ∧ ¬th.readmits side c
  granted : th.leases side < th'.leases side → ∀ c, ¬closedBy w c

section
variable {side : Side}

theorem WordStep.same (hcount : th'.leases side = th.leases side) (hshuts : ∀ c, ¬th.shuts side c)
    (hreadmits : ∀ c, ¬th.readmits side c) : WordStep side th w th' w where
  count := by rw [hcount]
  closers c := by simp [hshuts c, hreadmits c]
  granted hless := absurd hless (by omega)

end

theorem Thread.leases_eq_zero (hk : th.kind ∉ [.read, .worker, .transmit, .receive]) (side : Side) :
    th.leases side = 0 := by
  simp only [List.mem_cons, List.not_mem_nil, or_false, not_or] at hk
  cases side with
  | receive => exact Thread.receiveLeases_eq_zero hk.2.2.2
  | capture => exact Thread.captureLeases_eq_zero (by simp [hk])

/-- A teardown path neither takes nor drops a lease, whatever word it writes. -/
theorem stepThread_teardown_leases (hk : th.kind ∈ [.cleanup, .d0Entry, .d0Exit])
    (hstep : stepThread d t choice th = some next) (side : Side) : next.2.leases side = th.leases side := by
  have hzero : th.kind ∉ [.read, .worker, .transmit, .receive] := by
    cases hkind : th.kind <;> rw [hkind] at hk <;> first | decide | simp at hk
  rw [Thread.leases_eq_zero hzero]
  exact Thread.leases_eq_zero (stepThread_kind_not_mem hstep (by decide) hzero) side

/-- One word gets a closer; the other direction is left alone. -/
theorem LeaseWords.shut_word (w : LeaseWords) (target side : Side) (closer : Closer) :
    leaseCount ((w.set target (shutLeases (w.word target) closer)).word side) = leaseCount (w.word side) ∧
      ∀ c, closedBy ((w.set target (shutLeases (w.word target) closer)).word side) c ↔
        closedBy (w.word side) c ∨ c = closer ∧ some target = some side := by
  by_cases hside : side = target
  · subst hside
    rw [LeaseWords.word_set_self]
    obtain ⟨hcount, hclosers⟩ := shutLeases_eq (w.word side) closer
    exact ⟨hcount, fun c => by rw [hclosers, and_iff_left rfl]⟩
  · rw [LeaseWords.word_set_of_ne _ _ _ _ hside]
    refine ⟨rfl, fun c => (or_iff_left fun hc => ?_).symm⟩
    exact hside (Option.some.inj hc.2).symm

/-- One word loses a closer; the other direction is left alone. -/
theorem LeaseWords.readmit_word (w : LeaseWords) (target side : Side) (closer : Closer) :
    leaseCount ((w.set target (resumeLeases (w.word target) closer)).word side) = leaseCount (w.word side) ∧
      ∀ c, closedBy ((w.set target (resumeLeases (w.word target) closer)).word side) c ↔
        closedBy (w.word side) c ∧ ¬(c = closer ∧ some target = some side) := by
  by_cases hside : side = target
  · subst hside
    rw [LeaseWords.word_set_self]
    obtain ⟨hcount, hclosers⟩ := resumeLeases_eq (w.word side) closer
    exact ⟨hcount, fun c => by rw [hclosers, and_iff_left rfl]⟩
  · rw [LeaseWords.word_set_of_ne _ _ _ _ hside]
    refine ⟨rfl, fun c => (and_iff_left fun hc => ?_).symm⟩
    exact hside (Option.some.inj hc.2).symm

/-- A callback closes one direction. -/
theorem WordStep.shutting {side : Side} (w : LeaseWords) (target : Side) (hcount : th'.leases side = th.leases side)
    (hshuts : ∀ c, th.shuts side c ↔ c = closer ∧ some target = some side) (hreadmits : ∀ c, ¬th.readmits side c) :
    WordStep side th (w.word side) th' ((w.set target (shutLeases (w.word target) closer)).word side) where
  count := by rw [(w.shut_word target side closer).1, hcount]
  closers c := by rw [(w.shut_word target side closer).2, ← hshuts, and_iff_left (hreadmits c)]
  granted hless := absurd hless (by omega)

/-- A callback readmits one direction. -/
theorem WordStep.readmitting {side : Side} (w : LeaseWords) (target : Side) (hcount : th'.leases side = th.leases side)
    (hshuts : ∀ c, ¬th.shuts side c) (hreadmits : ∀ c, th.readmits side c ↔ c = closer ∧ target = side) :
    WordStep side th (w.word side) th' ((w.set target (resumeLeases (w.word target) closer)).word side) where
  count := by rw [(w.readmit_word target side closer).1, hcount]
  closers c := by
    rw [(w.readmit_word target side closer).2, or_iff_left (hshuts c), hreadmits, Option.some.injEq]
  granted hless := absurd hless (by omega)

section
variable {d d' : Device} {side : Side}

theorem evtFileCleanup_word {h : Handle} {pc : CleanupPc} {flow : Flow CleanupPc Unit}
    (hresult : evtFileCleanup d t h choice pc = some (d', flow))
    (hleases : th'.leases side = (Thread.cleanup h pc).leases side) :
    WordStep side (.cleanup h pc) (d.leases.word side) th' (d'.leases.word side) := by
  cases evtFileCleanup_cases hresult with
  | shutReceive owns => exact .shutting d.leases .receive hleases (fun _ => Iff.rfl) fun _ => id
  | shutCapture owns => exact .shutting d.leases .capture hleases (fun _ => Iff.rfl) fun _ => id
  | drainReceive owns _ | drainCapture owns _ => exact .same hleases (fun _ hc => nomatch hc.2) fun _ => id
  | readmitReceive | readmitReceiveLast =>
    exact .readmitting d.leases .receive hleases (fun _ => id) fun _ => Iff.rfl
  | readmitCapture | readmitCaptureLast =>
    exact .readmitting d.leases .capture hleases (fun _ => id) fun _ => Iff.rfl
  | _ => exact .same hleases (fun _ => id) fun _ => id

theorem evtDeviceD0Entry_word {pc : D0EntryPc} {flow : Flow D0EntryPc Unit}
    (hresult : evtDeviceD0Entry d pc = some (d', flow))
    (hleases : th'.leases side = (Thread.d0Entry pc).leases side) :
    WordStep side (.d0Entry pc) (d.leases.word side) th' (d'.leases.word side) := by
  cases evtDeviceD0Entry_cases hresult with
  | readmitReceive => exact .readmitting d.leases .receive hleases (fun _ => id) fun _ => Iff.rfl
  | readmitCapture => exact .readmitting d.leases .capture hleases (fun _ => id) fun _ => Iff.rfl
  | _ => exact .same hleases (fun _ => id) fun _ => id

theorem evtDeviceD0Exit_word {pc : D0ExitPc} {flow : Flow D0ExitPc Unit}
    (hresult : evtDeviceD0Exit d t choice pc = some (d', flow))
    (hleases : th'.leases side = (Thread.d0Exit pc).leases side) :
    WordStep side (.d0Exit pc) (d.leases.word side) th' (d'.leases.word side) := by
  cases evtDeviceD0Exit_cases hresult with
  | shutReceive => exact .shutting d.leases .receive hleases (fun _ => Iff.rfl) fun _ => id
  | shutCapture => exact .shutting d.leases .capture hleases (fun _ => Iff.rfl) fun _ => id
  | drainReceive _ | drainCapture _ => exact .same hleases (fun _ hc => nomatch hc.2) fun _ => id
  | _ => exact .same hleases (fun _ => id) fun _ => id

end

/-- Every step of a callback. -/
theorem stepThread_word (hstep : stepThread d t choice th = some next) (side : Side)
    (hheld : th.leases side ≤ leaseCount (d.leases.word side)) :
    WordStep side th (d.leases.word side) next.2 (next.1.leases.word side) := by
  by_cases hk : th.kind ∈ [.cleanup, .d0Entry, .d0Exit]
  · have hleases := stepThread_teardown_leases hk hstep side
    have hword : ∀ {π : Type} (inside : π → Thread) (result : Device × Flow π Unit),
        (th.settle inside result).1.leases = result.1.leases := by
      intro π inside result
      obtain ⟨_, _, _, _, _, _, _, hframe⟩ := th.settle_frame inside result
      rw [hframe]
      rfl
    cases th <;> simp [Thread.kind] at hk
    case cleanup h pc =>
      obtain ⟨⟨d', flow⟩, hresult, rfl⟩ := Option.map_eq_some_iff.mp hstep
      rw [hword]
      exact evtFileCleanup_word hresult hleases
    case d0Entry pc =>
      obtain ⟨⟨d', flow⟩, hresult, rfl⟩ := Option.map_eq_some_iff.mp hstep
      rw [hword]
      exact evtDeviceD0Entry_word hresult hleases
    case d0Exit pc =>
      obtain ⟨⟨d', flow⟩, hresult, rfl⟩ := Option.map_eq_some_iff.mp hstep
      rw [hword]
      exact evtDeviceD0Exit_word hresult hleases
  · have hnone : ∀ c, ¬th.shuts side c ∧ ¬th.readmits side c := by
      intro c
      cases th <;> first | exact ⟨id, id⟩ | simp [Thread.kind] at hk
    have hstepLeases : LeaseStep (d.leases.word side) (th.leases side) (next.1.leases.word side)
        (next.2.leases side) := by
      cases side with
      | receive => exact stepThread_receiveLeases hk hstep
      | capture => exact stepThread_captureLeases hk hstep
    obtain ⟨hcount, hclosers, hgranted⟩ := hstepLeases hheld
    exact ⟨hcount, fun c => by simp [hclosers c, (hnone c).1, (hnone c).2], hgranted⟩

/-! ### Runs -/

/-- Both words count the leases that the callbacks hold. -/
def LeasesCounted (s : Driver) : Prop :=
  ∀ side, Tally (fun t => (s.thr t).leases side) (leaseCount (s.dev.leases.word side))

theorem LeasesCounted.step {s s' : Driver} {a : Action} (h : LeasesCounted s) (hstep : stepDriver s a = some s') :
    LeasesCounted s' := by
  intro side
  cases stepDriver_cases hstep with
  | @start t a d th hidle hstart =>
    have hth : th.leases side = (s.thr t).leases side := by
      rw [hidle]
      cases hstart <;> cases side <;> rfl
    have hword : d.leases = s.dev.leases := by
      obtain ⟨_, _, _, _, _, _, _, _, hframe⟩ := hstart.frame
      rw [hframe]
      rfl
    rw [Driver.setThread_dev, hword]
    exact (h side).keep t th hth
  | @framework a d hmove =>
    have hword : d.leases = s.dev.leases := by cases hmove <;> rfl
    change Tally _ (leaseCount (d.leases.word side))
    rw [hword]
    exact h side
  | @packet t length passive gen captured hthr hlength =>
    refine (h side).keep t _ ?_
    rw [hthr]
    cases side <;> rfl
  | @advance t choice next hadvance =>
    exact (h side).step t next.2 (stepThread_word hadvance side ((h side).le t)).count

theorem DriverReach.leasesCounted {ok : Driver → Action → Prop} {s : Driver} (h : DriverReach ok s) :
    LeasesCounted s := by
  refine h.invariant (fun s hinit side => ?_) fun _ _ _ _ hinv _ hstep => hinv.step hstep
  obtain ⟨⟨mtu, -, -, hdev⟩, hidle⟩ := hinit
  have hzero : leaseCount (s.dev.leases.word side) = 0 := by
    have hword : (Device.initial mtu).leases.word side = 0 := by cases side <;> rfl
    rw [hdev, hword]
    decide
  rw [hzero]
  refine Tally.zero fun t => ?_
  rw [hidle t]
  cases side <;> rfl

end WinTap

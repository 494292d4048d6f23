import WinTap.Base.Tally
import WinTap.Proof.Driver.Frames

/-!
# Adaptive mode and parked READs

Enabling adaptive polling is refused while a READ is pending: `pending_reads` counts every READ that waits
in the manual queue and every one that a path has admitted and not yet released. So an enable request
that reads zero has seen that no READ is parked and none of the counted ones is on its way there. What it
does not see is a READ callback that has read the mode and has not been admitted yet. The condition under
which adaptive mode never parks a READ is therefore about that window only.
-/

namespace WinTap

variable {d d' : Device} {t : ThreadId} {choice : Choice} {r : Read} {th : Thread} {next : Device × Thread} {s : Driver}

/-! ### What `pending_reads` counts -/

/-- A READ callback is counted from its admission until it releases the count or forwards its request. -/
def ReadPc.counted : ReadPc → Nat
  | .take .. | .release .. | .forward | .forwardFailed .. | .releaseRequest => 1
  | _ => 0

/-- The worker takes over the count of a request it retrieves. -/
def DrainPc.counted : DrainPc → Nat
  | .take .. | .release .. | .forward .. | .forwardFailed .. | .releaseRequest => 1
  | _ => 0

/-- So does direct delivery. -/
def PacketPc.counted : PacketPc → Nat
  | .releaseRead .. => 1
  | _ => 0

def Thread.counted : Thread → Nat
  | .read _ pc => pc.counted
  | .worker (.drain pc) => pc.counted
  | .transmit _ (.packet _ _ _ pc) => pc.counted
  | _ => 0

/-- The counter moves with the waiting and the counted READs. -/
def KeepsCount (count : Nat) (d : Device) (count' : Nat) (d' : Device) : Prop :=
  d'.readQueue.waiting.length + count' + d.pendingReads
    = d.readQueue.waiting.length + count + d'.pendingReads

theorem KeepsCount.of_eq {count count' : Nat} (hwaiting : d'.readQueue.waiting = d.readQueue.waiting)
    (hpending : d'.pendingReads = d.pendingReads) (hcount : count' = count) : KeepsCount count d count' d' := by
  rw [KeepsCount, hwaiting, hpending, hcount]

theorem KeepsCount.release (hwaiting : d'.readQueue.waiting = d.readQueue.waiting)
    (hpending : d'.pendingReads = releaseRequest d.pendingReads) (hle : 1 ≤ d.pendingReads) : KeepsCount 1 d 0 d' := by
  rw [KeepsCount, hwaiting, hpending, releaseRequest]
  omega

theorem KeepsCount.park (hwaiting : d'.readQueue.waiting = d.readQueue.waiting ++ [r])
    (hpending : d'.pendingReads = d.pendingReads) : KeepsCount 1 d 0 d' := by
  rw [KeepsCount, hwaiting, hpending, List.length_append, List.length_singleton]

theorem KeepsCount.retrieve (hwaiting : d.readQueue.waiting = r :: d'.readQueue.waiting)
    (hpending : d'.pendingReads = d.pendingReads) : KeepsCount 0 d 1 d' := by
  rw [KeepsCount, hwaiting, hpending, List.length_cons]

/-! ### Paths to the manual queue -/

/-- A READ callback that has read the mode and may still forward its request. -/
def ReadPc.forwards : ReadPc → Bool
  | .tryAdmit .. | .take .. | .forward => true
  | _ => false

def DrainPc.forwards : DrainPc → Bool
  | .take .. | .forward .. => true
  | _ => false

/-- A callback that may still forward the READ it holds to the manual queue. -/
def Thread.forwards : Thread → Bool
  | .read _ pc => pc.forwards
  | .worker (.drain pc) => pc.forwards
  | _ => false

/-- An enable request that has found no READ pending and has not set the mode yet. -/
def Thread.enabling : Thread → Bool
  | .enable _ _ .directReadClaims | .enable _ _ .store => true
  | _ => false

/-- How one step of a callback comes to forward a READ, or to park one. -/
structure ModeStep (d : Device) (th : Thread) (next : Device × Thread) : Prop where
  counts : th.counted ≤ d.pendingReads → KeepsCount th.counted d next.2.counted next.1
  forwards : next.2.forwards = true → th.forwards = true ∨ d.readQueue.waiting ≠ [] ∨
    d.adaptiveEnabled = false ∧ ∃ r gen, th = .read r (.adaptive gen)
  waiting : next.1.readQueue.waiting ≠ [] → d.readQueue.waiting ≠ [] ∨ th.forwards = true

/-- A step that moves no READ and changes no count. -/
theorem ModeStep.of_eq (hwaiting : next.1.readQueue.waiting = d.readQueue.waiting)
    (hpending : next.1.pendingReads = d.pendingReads) (hcount : next.2.counted = th.counted)
    (hforwards : next.2.forwards = true → th.forwards = true) : ModeStep d th next where
  counts _ := .of_eq hwaiting hpending hcount
  forwards h := .inl (hforwards h)
  waiting h := .inl (hwaiting ▸ h)

/-- Only these four things of the outcome matter. -/
theorem ModeStep.congr {next next' : Device × Thread} (h : ModeStep d th next)
    (hwaiting : next'.1.readQueue.waiting = next.1.readQueue.waiting)
    (hpending : next'.1.pendingReads = next.1.pendingReads) (hcount : next'.2.counted = next.2.counted)
    (hforwards : next'.2.forwards = next.2.forwards) : ModeStep d th next' where
  counts hle := by
    rw [KeepsCount, hwaiting, hpending, hcount]
    exact h.counts hle
  forwards hf := h.forwards (hforwards ▸ hf)
  waiting hw := h.waiting (hwaiting ▸ hw)

/-- A call that moves no READ, by where its caller goes on. -/
theorem ModeStep.call {π ρ π' ρ' : Type} {step : Device × Flow π ρ} {inside : π → π'} {after : ρ → Flow π' ρ'}
    {thread : π' → Thread}
    (hsame : step.1.readQueue.waiting = d.readQueue.waiting ∧ step.1.pendingReads = d.pendingReads)
    (hinside : ∀ pc, ModeStep d th (d, thread (inside pc)))
    (hafter : ∀ value, ModeStep d th (d, (after value).on thread .idle)) :
    ModeStep d th ((WinTap.call step inside after).1, (WinTap.call step inside after).2.on thread .idle) :=
  call_all (fun th' => ModeStep d th (step.1, th')) (fun pc => (hinside pc).congr hsame.1 hsame.2 rfl rfl)
    fun value => (hafter value).congr hsame.1 hsame.2 rfl rfl

section
variable (d t choice)

theorem dequeueCaptureFrame_waiting (pc : TakePc) :
    (dequeueCaptureFrame d pc).1.readQueue.waiting = d.readQueue.waiting ∧
      (dequeueCaptureFrame d pc).1.pendingReads = d.pendingReads := by
  obtain ⟨_, hframe⟩ := dequeueCaptureFrame_frame d pc
  rw [hframe]
  exact ⟨rfl, rfl⟩

theorem completeCapturedFrameToRead_waiting (r : Read) (f : Frame) :
    (completeCapturedFrameToRead d r f choice).1.readQueue.waiting = d.readQueue.waiting ∧
      (completeCapturedFrameToRead d r f choice).1.pendingReads = d.pendingReads := by
  unfold completeCapturedFrameToRead
  split
  · exact ⟨rfl, rfl⟩
  · split <;> exact ⟨rfl, rfl⟩

theorem evtIoRead_mode (r : Read) (pc : ReadPc) :
    ModeStep d (.read r pc) ((evtIoRead d t r choice pc).1,
      (evtIoRead d t r choice pc).2.on (Thread.read r) .idle) := by
  cases pc with
  | lease | lifecycle =>
    simp only [evtIoRead]
    split <;> exact .of_eq rfl rfl rfl (fun h => by cases h)
  | adaptive gen =>
    simp only [evtIoRead]
    split
    · exact .of_eq rfl rfl rfl (fun h => by cases h)
    · rename_i hmode
      exact ⟨fun _ => .of_eq rfl rfl rfl, fun _ => .inr (.inr ⟨by simpa using hmode, r, gen, rfl⟩), .inl⟩
  | tryAdmit gen =>
    simp only [evtIoRead]
    split
    · exact .of_eq rfl rfl rfl (fun h => by cases h)
    · rename_i count hcount
      obtain rfl := tryAdmit_eq hcount
      refine ⟨fun _ => ?_, fun _ => .inl rfl, .inl⟩
      change d.readQueue.waiting.length + 1 + d.pendingReads
        = d.readQueue.waiting.length + 0 + (d.pendingReads + 1)
      omega
  | poll gen pc =>
    exact .call (dequeueCaptureFrame_waiting d pc) (fun _ => .of_eq rfl rfl rfl (fun h => by cases h))
      fun value => by cases value <;> exact .of_eq rfl rfl rfl (fun h => by cases h)
  | take gen pc =>
    exact .call (dequeueCaptureFrame_waiting d pc) (fun _ => .of_eq rfl rfl rfl fun _ => rfl)
      fun value => by cases value <;> exact .of_eq rfl rfl rfl (fun _ => rfl)
  | requeue gen f status pc =>
    obtain ⟨_, _, _, hframe⟩ := requeueCaptureFrameAndScheduleWait_frame d t f gen pc
    exact .call (by rw [hframe]; exact ⟨rfl, rfl⟩) (fun _ => .of_eq rfl rfl rfl (fun h => by cases h))
      fun _ => .of_eq rfl rfl rfl (fun h => by cases h)
  | release gen f =>
    exact ⟨fun hle => .release rfl rfl hle, (fun h => by cases h), .inl⟩
  | deliver gen f =>
    obtain ⟨hwaiting, hpending⟩ := completeCapturedFrameToRead_waiting d choice r f
    simp only [evtIoRead]
    split <;> exact .of_eq hwaiting hpending rfl (fun h => by cases h)
  | forward =>
    simp only [evtIoRead]
    split
    · exact ⟨fun _ => .park rfl rfl, (fun h => by cases h), fun _ => .inr rfl⟩
    · exact .of_eq rfl rfl rfl (fun h => by cases h)
  | releaseRequest =>
    exact ⟨fun hle => .release rfl rfl hle, (fun h => by cases h), .inl⟩
  | _ => exact .of_eq rfl rfl rfl (fun h => by cases h)

theorem drainReads_mode (pc : DrainPc) :
    ModeStep d (.worker (.drain pc)) ((drainReads d t choice pc).1,
      (drainReads d t choice pc).2.on (fun pc => Thread.worker (.drain pc)) .idle) := by
  cases pc with
  | lease | lifecycle =>
    simp only [drainReads]
    split <;> exact .of_eq rfl rfl rfl (fun h => by cases h)
  | retrieve gen =>
    simp only [drainReads, retrieveNextRequest]
    cases hwaiting : d.readQueue.waiting with
    | nil => exact .of_eq rfl rfl rfl (fun h => by cases h)
    | cons r rest =>
      have hsome : d.readQueue.waiting ≠ [] := by simp [hwaiting]
      exact ⟨fun _ => .retrieve hwaiting rfl, fun _ => .inr (.inl hsome), fun _ => .inl hsome⟩
  | take gen r pc =>
    exact .call (dequeueCaptureFrame_waiting d pc) (fun _ => .of_eq rfl rfl rfl fun _ => rfl)
      fun value => by cases value <;> exact .of_eq rfl rfl rfl (fun _ => rfl)
  | requeue gen r f status pc =>
    obtain ⟨_, _, _, hframe⟩ := requeueCaptureFrameAndScheduleWait_frame d t f gen pc
    exact .call (by rw [hframe]; exact ⟨rfl, rfl⟩) (fun _ => .of_eq rfl rfl rfl (fun h => by cases h))
      fun _ => .of_eq rfl rfl rfl (fun h => by cases h)
  | release gen r f => exact ⟨fun hle => .release rfl rfl hle, (fun h => by cases h), .inl⟩
  | deliver gen r f =>
    obtain ⟨hwaiting, hpending⟩ := completeCapturedFrameToRead_waiting d choice r f
    simp only [drainReads]
    split <;> exact .of_eq hwaiting hpending rfl (fun h => by cases h)
  | forward r =>
    simp only [drainReads]
    split
    · exact ⟨fun _ => .park rfl rfl, (fun h => by cases h), fun _ => .inr rfl⟩
    · exact .of_eq rfl rfl rfl (fun h => by cases h)
  | releaseRequest => exact ⟨fun hle => .release rfl rfl hle, (fun h => by cases h), .inl⟩
  | _ => exact .of_eq rfl rfl rfl (fun h => by cases h)

theorem capturePacket_mode (passive : Bool) (gen : Word) (captured : Bool) (f : Frame) (pc : PacketPc) :
    ModeStep d (.transmit passive (.packet gen captured f pc))
      ((capturePacket d t passive gen f choice pc).1,
        (capturePacket d t passive gen f choice pc).2.on
          (fun pc => Thread.transmit passive (.packet gen captured f pc)) .idle) := by
  cases pc with
  | adaptive | lockDirect | directAdaptive | directLifecycle | directOwner | allocate | lifecycle | owner =>
    simp only [capturePacket]
    split <;> exact .of_eq rfl rfl rfl (fun h => by cases h)
  | retrieve =>
    simp only [capturePacket, retrieveNextRequest]
    cases hwaiting : d.readQueue.waiting with
    | nil => exact .of_eq rfl rfl rfl (fun h => by cases h)
    | cons r rest =>
      have hsome : d.readQueue.waiting ≠ [] := by simp [hwaiting]
      exact ⟨fun _ => .retrieve hwaiting rfl, (fun h => by cases h), fun _ => .inl hsome⟩
  | releaseRead r => exact ⟨fun hle => .release rfl rfl hle, (fun h => by cases h), .inl⟩
  | complete r =>
    obtain ⟨hwaiting, hpending⟩ := completeCapturedFrameToRead_waiting d choice r f
    simp only [capturePacket]
    split
    · exact .of_eq hwaiting hpending rfl (fun h => by cases h)
    · exact .of_eq rfl rfl rfl (fun h => by cases h)
  | unlockDirect delivered => cases delivered <;> exact .of_eq rfl rfl rfl (fun h => by cases h)
  | store adaptive pc =>
    obtain ⟨_, _, _, hframe⟩ := enqueueExistingCaptureFrame_frame d t f pc
    exact .call (by rw [hframe]; exact ⟨rfl, rfl⟩) (fun _ => .of_eq rfl rfl rfl (fun h => by cases h))
      fun _ => .of_eq rfl rfl rfl (fun h => by cases h)
  | _ => exact .of_eq rfl rfl rfl (fun h => by cases h)

theorem advanceTransmit_mode (passive : Bool) (pc : TxPc) :
    ModeStep d (.transmit passive pc) ((advanceTransmit d t passive choice pc).1,
      (advanceTransmit d t passive choice pc).2.on (Thread.transmit passive) .idle) := by
  cases pc with
  | lease | lifecycle | ring =>
    simp only [advanceTransmit]
    split <;> exact .of_eq rfl rfl rfl (fun h => by cases h)
  | packet gen captured f pc =>
    refine (capturePacket_mode d t choice passive gen captured f pc).congr rfl rfl ?_ ?_ <;>
    · simp only [advanceTransmit]
      obtain ⟨_, hstep, hflow⟩ | ⟨_, hstep, hflow⟩ :=
        call_snd (capturePacket d t passive gen f choice pc) (TxPc.packet gen captured f)
          (fun capturedThis => .run (TxPc.ring gen (captured || capturedThis))) <;>
      · rw [hflow, hstep]
        rfl
  | _ => exact .of_eq rfl rfl rfl (fun h => by cases h)

theorem evtReadCompletionWorkItem_mode (pc : WorkPc) :
    ModeStep d (.worker pc) ((evtReadCompletionWorkItem d t choice pc).1,
      (evtReadCompletionWorkItem d t choice pc).2.on Thread.worker .idle) := by
  cases pc with
  | wait pc =>
    exact .call ⟨rfl, rfl⟩ (fun _ => .of_eq rfl rfl rfl (fun h => by cases h))
      fun took => by cases took <;> exact .of_eq rfl rfl rfl (fun h => by cases h)
  | drain pc =>
    refine (drainReads_mode d t choice pc).congr rfl rfl ?_ ?_ <;>
    · simp only [evtReadCompletionWorkItem]
      obtain ⟨_, hstep, hflow⟩ | ⟨goesRound, hstep, hflow⟩ :=
        call_snd (drainReads d t choice pc) WorkPc.drain
          (fun goesRound => if goesRound then .run (.wait (.take .load)) else .ret ()) <;>
        rw [hflow, hstep]
      · rfl
      · cases goesRound <;> rfl

end

theorem settle_mode {π : Type} {inside : π → Thread} {result : Device × Flow π Unit}
    (h : ModeStep d th (result.1, result.2.on inside .idle)) : ModeStep d th (th.settle inside result) := by
  obtain ⟨_, _, _, _, _, _, _, hframe⟩ := th.settle_frame inside result
  refine h.congr ?_ ?_ ?_ ?_
  · rw [hframe]
  · rw [hframe]
  · rw [Thread.settle_eq]
  · rw [Thread.settle_eq]

theorem Thread.not_counted (hk : th.kind ∉ [.read, .worker, .transmit]) : th.counted = 0 ∧ th.forwards = false := by
  cases th <;> first | exact ⟨rfl, rfl⟩ | simp [Thread.kind] at hk

/-- Every step of a callback that neither tears down nor stops the manual queue. -/
theorem stepThread_mode (hk : th.kind ∉ [.cleanup, .d0Exit, .stopRead]) (hstep : stepThread d t choice th = some next) :
    ModeStep d th next := by
  have hframes := stepThread_frames hstep
  have hkind := stepThread_kind hstep
  by_cases hserves : th.kind ∈ [.read, .worker, .transmit]
  · cases th <;> simp only [stepThread] at hstep
    case read r pc =>
      cases hstep
      exact settle_mode (evtIoRead_mode d t choice r pc)
    case worker pc =>
      cases hstep
      exact settle_mode (evtReadCompletionWorkItem_mode d t choice pc)
    case transmit passive pc =>
      cases hstep
      exact settle_mode (advanceTransmit_mode d t choice passive pc)
    all_goals simp [Thread.kind] at hserves
  · have hnext : next.2.counted = 0 ∧ next.2.forwards = false := by
      obtain hidle | hsame := hkind
      · rw [hidle]
        exact ⟨rfl, rfl⟩
      · exact Thread.not_counted (hsame ▸ hserves)
    refine .of_eq (hframes.waiting ?_) (hframes.pendingReads ?_) ?_ fun hf => ?_
    · simp only [List.mem_cons, List.not_mem_nil, or_false] at *
      tauto
    · simp only [List.mem_cons, List.not_mem_nil, or_false] at *
      tauto
    · rw [hnext.1, (Thread.not_counted hserves).1]
    · rw [hnext.2] at hf
      cases hf

/-! ### Enabling -/

/-- The mode is set only by an enable request that has found no READ pending. -/
theorem stepThread_enables (hk : th.kind ∉ [.cleanup, .d0Exit, .stopRead])
    (hstep : stepThread d t choice th = some next) (hset : next.1.adaptiveEnabled = true) :
    d.adaptiveEnabled = true ∨ th.enabling = true := by
  by_cases henable : th.kind = .enable
  · cases th <;> simp only [stepThread] at hstep
    case enable h input pc =>
      obtain ⟨result, hresult, rfl⟩ := Option.map_eq_some_iff.mp hstep
      obtain ⟨_, _, _, _, _, _, _, hframe⟩ := (Thread.enable h input pc).settle_frame _ result
      rw [hframe] at hset
      cases pc with
      | directReadClaims | store => exact .inr rfl
      | _ =>
        simp only [handleEnableAdaptivePolling] at hresult
        repeat' split at hresult
        -- a blocked request takes no step
        all_goals first | (cases hresult; exact .inl hset) | cases hresult
    all_goals simp [Thread.kind] at henable
  · refine .inl ?_
    rwa [(stepThread_frames hstep).adaptiveEnabled] at hset
    simp only [List.mem_cons, List.not_mem_nil, or_false] at *
    tauto

/-- An enable request goes on to set the mode only from a count of zero. -/
theorem stepThread_enabling (hstep : stepThread d t choice th = some next) (hnext : next.2.enabling = true) :
    th.enabling = true ∨ d.pendingReads = 0 ∧ ∃ h input, th = .enable h input .pendingReads := by
  have henable : th.kind = .enable := by
    have hkind : next.2.kind = .enable := by
      cases hth : next.2 <;> rw [hth] at hnext <;> first | rfl | cases hnext
    obtain hidle | hsame := stepThread_kind hstep
    · rw [hidle] at hkind
      cases hkind
    · rw [← hsame, hkind]
  cases th <;> simp only [stepThread] at hstep
  case enable h input pc =>
    obtain ⟨result, hresult, rfl⟩ := Option.map_eq_some_iff.mp hstep
    rw [Thread.settle_eq] at hnext
    cases pc with
    | directReadClaims | store => exact .inl rfl
    | pendingReads =>
      simp only [handleEnableAdaptivePolling] at hresult
      split at hresult
      · cases hresult
        cases hnext
      · exact .inr ⟨not_not.mp ‹_›, h, input, rfl⟩
    | _ =>
      simp only [handleEnableAdaptivePolling] at hresult
      repeat' split at hresult
      all_goals first | (cases hresult; cases hnext) | cases hresult
  all_goals simp [Thread.kind] at henable

/-! ### Runs -/

/-- No READ callback is between its mode check and its admission when an enable request reads a count of
zero, and none reads the mode while that request is about to set it. The teardown paths and the stop
callback of the manual queue take no part. -/
def ModeCheckedAlone (s : Driver) (a : Action) : Prop :=
  a.kind ∉ [.cleanup, .d0Exit, .stopRead] ∧ ∀ t choice, a = .advance t choice →
    ((∃ h input, s.thr t = .enable h input .pendingReads) → s.dev.pendingReads = 0 →
      ∀ i r gen, s.thr i ≠ .read r (.tryAdmit gen)) ∧
    ((∃ r gen, s.thr t = .read r (.adaptive gen)) → s.dev.adaptiveEnabled = false →
      ∀ i, (s.thr i).enabling = false)

/-- `pending_reads` covers every READ that waits or is counted, and once an enable request is past its
check there is none, and none on its way. -/
structure ModeInv (s : Driver) : Prop where
  counted : ∃ n, Tally (fun t => (s.thr t).counted) n ∧
    s.dev.readQueue.waiting.length + n ≤ s.dev.pendingReads
  quiet : s.dev.adaptiveEnabled = true ∨ (∃ t, (s.thr t).enabling = true) →
    s.dev.readQueue.waiting = [] ∧ ∀ t, (s.thr t).forwards = false

/-- A path to the manual queue that is not counted is a READ callback before its admission. -/
theorem Thread.forwards_uncounted (hforwards : th.forwards = true) (hcounted : th.counted = 0) :
    ∃ r gen, th = .read r (.tryAdmit gen) := by
  cases th with
  | read r pc =>
    cases pc with
    | tryAdmit gen => exact ⟨r, gen, rfl⟩
    | take | forward => cases hcounted
    | _ => cases hforwards
  | worker pc =>
    cases pc with
    | wait pc => cases hforwards
    | drain pc =>
      cases pc with
      | take | forward => cases hcounted
      | _ => cases hforwards
  | _ => cases hforwards

namespace ModeInv

variable {s s' : Driver} {a : Action}

theorem init (h : driverSystem.init s) : ModeInv s := by
  obtain ⟨⟨mtu, -, -, hdev⟩, hidle⟩ := h
  refine ⟨⟨0, Tally.zero fun t => ?_, ?_⟩, fun _ => ⟨?_, fun t => ?_⟩⟩
  · rw [hidle t]
    rfl
  · rw [hdev]
    exact Nat.le_refl 0
  · rw [hdev]
    rfl
  · rw [hidle t]
    rfl

/-- No READ moves and no thread changes its part. -/
theorem of_eq (h : ModeInv s) (hwaiting : d.readQueue.waiting.Sublist s.dev.readQueue.waiting)
    (hpending : d.pendingReads = s.dev.pendingReads) (hadaptive : d.adaptiveEnabled = s.dev.adaptiveEnabled)
    (hcounted : th.counted = (s.thr t).counted) (hforwards : th.forwards = (s.thr t).forwards)
    (henabling : th.enabling = (s.thr t).enabling) :
    ModeInv (s.setThread t d th) where
  counted := by
    obtain ⟨n, htally, hle⟩ := h.counted
    refine ⟨n, htally.keep t th hcounted, ?_⟩
    have hlength := hwaiting.length_le
    change d.readQueue.waiting.length + n ≤ d.pendingReads
    omega
  quiet hset := by
    have hbefore : s.dev.adaptiveEnabled = true ∨ ∃ i, (s.thr i).enabling = true := by
      refine hset.imp (fun hset => hadaptive ▸ hset) fun ⟨i, hi⟩ => ⟨i, ?_⟩
      rwa [s.setThread_keep t d th henabling] at hi
    obtain ⟨hnone, hidle⟩ := h.quiet hbefore
    refine ⟨List.sublist_nil.mp (hnone ▸ hwaiting), fun i => ?_⟩
    rw [s.setThread_keep t d th hforwards]
    exact hidle i

/-- A running callback takes a step. -/
theorem advance (h : ModeInv s) (hk : (s.thr t).kind ∉ [.cleanup, .d0Exit, .stopRead])
    (hok : ModeCheckedAlone s (.advance t choice)) (hstep : stepThread s.dev t choice (s.thr t) = some next) :
    ModeInv (s.setThread t next.1 next.2) := by
  have hmode := stepThread_mode hk hstep
  obtain ⟨n, htally, hle⟩ := h.counted
  have hcount : (s.thr t).counted ≤ n := htally.le t
  have hcounts := hmode.counts (by omega)
  -- what the other threads and the queue are like is decided by the state before
  have hquiet : (s.dev.readQueue.waiting = [] ∧ ∀ i, (s.thr i).forwards = false) →
      (¬∃ r gen, s.thr t = .read r (.adaptive gen) ∧ s.dev.adaptiveEnabled = false) →
      next.1.readQueue.waiting = [] ∧ ∀ i, ((s.setThread t next.1 next.2).thr i).forwards = false := by
    rintro ⟨hnone, hidle⟩ hmodeRead
    refine ⟨?_, fun i => ?_⟩
    · by_contra hsome
      obtain hbefore | hforwards := hmode.waiting hsome
      · exact hbefore hnone
      · rw [hidle t] at hforwards
        cases hforwards
    · by_cases hi : i = t
      · subst hi
        rw [Driver.setThread_self, Bool.eq_false_iff]
        intro hforwards
        obtain hbefore | hsome | ⟨hoff, r, gen, hread⟩ := hmode.forwards hforwards
        · rw [hidle i] at hbefore
          cases hbefore
        · exact hsome hnone
        · exact hmodeRead ⟨r, gen, hread, hoff⟩
      · rw [Driver.setThread_of_ne _ _ _ _ hi]
        exact hidle i
  refine ⟨⟨n - (s.thr t).counted + next.2.counted, htally.step t next.2 (by omega), ?_⟩, fun hset => ?_⟩
  · change next.1.readQueue.waiting.length + _ ≤ next.1.pendingReads
    unfold KeepsCount at hcounts
    omega
  · have hbefore : (s.dev.adaptiveEnabled = true ∨ ∃ i, (s.thr i).enabling = true) ∨
        s.dev.pendingReads = 0 ∧ ∃ h input, s.thr t = .enable h input .pendingReads := by
      obtain hset | ⟨i, hi⟩ := hset
      · exact .inl ((stepThread_enables hk hstep hset).imp_right fun henabling => ⟨t, henabling⟩)
      · by_cases hit : i = t
        · subst hit
          rw [Driver.setThread_self] at hi
          exact (stepThread_enabling hstep hi).imp_left fun henabling => .inr ⟨i, henabling⟩
        · rw [Driver.setThread_of_ne _ _ _ _ hit] at hi
          exact .inl (.inr ⟨i, hi⟩)
    obtain hbefore | ⟨hzero, henable⟩ := hbefore
    · refine hquiet (h.quiet hbefore) ?_
      rintro ⟨r, gen, hread, hoff⟩
      have hnobody := (hok.2 t choice rfl).2 ⟨r, gen, hread⟩ hoff
      obtain hon | ⟨i, hi⟩ := hbefore
      · rw [hoff] at hon
        cases hon
      · rw [hnobody i] at hi
        cases hi
    · -- a count of zero: nothing waits, and a path to the queue could only be one not yet admitted
      have hn : n = 0 := by omega
      subst hn
      refine hquiet ⟨List.eq_nil_of_length_eq_zero (by omega), fun i => ?_⟩ ?_
      · rw [Bool.eq_false_iff]
        intro hforwards
        obtain ⟨r, gen, hi⟩ := Thread.forwards_uncounted hforwards (htally.eq_zero i)
        exact (hok.2 t choice rfl).1 henable hzero i r gen hi
      · rintro ⟨r, gen, hread, -⟩
        obtain ⟨_, _, henable⟩ := henable
        rw [henable] at hread
        cases hread

theorem step (h : ModeInv s) (hk : ∀ t, (s.thr t).kind ∉ [.cleanup, .d0Exit, .stopRead])
    (hok : ModeCheckedAlone s a) (hstep : stepDriver s a = some s') : ModeInv s' := by
  cases stepDriver_cases hstep with
  | @start t a d th hidle hstart =>
    cases hstart <;>
    · refine h.of_eq (.refl _) rfl rfl ?_ ?_ ?_ <;>
      · rw [hidle]
        rfl
  | @framework a d hmove =>
    rw [s.setDev_eq 0]
    cases hmove
    case cancelRead r hwaiting => exact h.of_eq List.erase_sublist rfl rfl rfl rfl rfl
    all_goals exact h.of_eq (.refl _) rfl rfl rfl rfl rfl
  | @packet t length passive gen captured hthr hlength =>
    refine h.of_eq (.refl _) rfl rfl ?_ ?_ ?_ <;>
    · rw [hthr]
      rfl
  | advance hadvance => exact h.advance (hk _) hok hadvance

end ModeInv

theorem DriverReach.mode (h : DriverReach ModeCheckedAlone s) : ModeInv s := by
  refine h.invariant (fun _ => ModeInv.init) fun s a s' hs hinv hok hstep => hinv.step ?_ hok hstep
  exact DriverReach.avoids _ hs (by decide) fun _ _ hok => hok.1

/-- In every run in which no READ callback sits in the window between its mode check and its admission
while an enable request decides, adaptive mode has no READ parked and none about to be. -/
theorem adaptive_never_parks {s : Driver} (h : DriverReach ModeCheckedAlone s)
    (hadaptive : s.dev.adaptiveEnabled = true) :
    s.dev.readQueue.waiting = [] ∧ ∀ t, (s.thr t).forwards = false :=
  (DriverReach.mode h).quiet (.inl hadaptive)

/-- An ENABLE request as the switch sends it. -/
def enableBoth : EnableInput where
  inputLength := adaptiveEnableRequestSize
  outputLength := adaptiveEnableResponseSize
  inputStatus := statusSuccess
  actualInputLength := adaptiveEnableRequestSize
  version := adaptivePollingProtocolVersion
  flags := adaptiveInterestSupported
  outputStatus := statusSuccess
  actualOutputLength := adaptiveEnableResponseSize

/-- A READ callback at its mode check, at its admission, and an enable request at its load of `pending_reads`. -/
def Thread.checksMode : Thread → Bool
  | .read _ (.adaptive _) => true
  | _ => false

def Thread.unadmitted : Thread → Bool
  | .read _ (.tryAdmit _) => true
  | _ => false

def Thread.decides : Thread → Bool
  | .enable _ _ .pendingReads => true
  | _ => false

/-- `ModeCheckedAlone` for a schedule that is about some threads only. -/
def ModeCheckedAmong (ts : List ThreadId) (s : Driver) (a : Action) : Prop :=
  a.kind ∉ [.cleanup, .d0Exit, .stopRead] ∧ ∀ t, t ∈ a.thread → t ∈ ts ∧
    ((s.thr t).decides = true → s.dev.pendingReads = 0 → ∀ i ∈ ts, (s.thr i).unadmitted = false) ∧
    ((s.thr t).checksMode = true → s.dev.adaptiveEnabled = false → ∀ i ∈ ts, (s.thr i).enabling = false)

instance (ts : List ThreadId) (s : Driver) (a : Action) : Decidable (ModeCheckedAmong ts s a) :=
  inferInstanceAs (Decidable (_ ∧ ∀ t, t ∈ a.thread → _))

theorem DriverReach.checkedAlone {ts : List ThreadId} (h : DriverReach (ModeCheckedAmong ts) s) :
    DriverReach ModeCheckedAlone s := by
  refine h.exchange fun s a hs hok => ⟨hok.1, fun t choice ha => ?_⟩
  obtain ⟨-, hdecides, hchecks⟩ := hok.2 t (by rw [ha]; rfl)
  have hidle : ∀ i, i ∉ ts → s.thr i = .idle := fun i hi =>
    DriverReach.idle (hs.mono fun _ _ hok t ht => (hok.2 t ht).1) hi
  refine ⟨fun ⟨_, _, henable⟩ hzero i r gen hread => ?_, fun ⟨_, _, hread⟩ hoff i => ?_⟩
  · by_cases hi : i ∈ ts
    · have hnone := hdecides (by rw [henable]; rfl) hzero i hi
      rw [hread] at hnone
      cases hnone
    · rw [hidle i hi] at hread
      cases hread
  · by_cases hi : i ∈ ts
    · exact hchecks (by rw [hread]; rfl) hoff i hi
    · rw [hidle i hi]
      rfl

/-- A READ is parked and served by the worker, adaptive polling is enabled, and another READ is past its mode check. -/
def enabledBetweenReads : List Action :=
  [.create 0 7] ++ steps 0 2 ++ [.read 1 7 1514] ++ steps 1 8 ++ [.transmit 2 false] ++ steps 2 3 ++ [.packet 2 60] ++
    steps 2 11 ++ [.work 3] ++ steps 3 16 ++ [.enable 1 7 enableBoth] ++ steps 1 9 ++ [.read 2 7 1514] ++ steps 2 5

theorem adaptive_never_parks_enabled :
    let s := driverSystem.after .initial enabledBetweenReads
    s.dev.adaptiveEnabled = true ∧ .readParked ⟨0, 7, 1514⟩ ∈ s.dev.log ∧ (s.thr 2).kind = .read ∧
      s.dev.readQueue.waiting = [] ∧ ∀ t, (s.thr t).forwards = false := by
  intro s
  have hon : s.dev.adaptiveEnabled = true := by decide +kernel
  have hreach : DriverReach (ModeCheckedAmong [0, 1, 2, 3]) s :=
    Machine.System.reach_after_keeping (by decide +kernel) (driverReach_initial _)
  exact ⟨hon, by decide +kernel, by decide +kernel, adaptive_never_parks (DriverReach.checkedAlone hreach) hon⟩

/-- A READ callback has found the mode off; before it is admitted an enable request finds no READ pending
and sets the mode; then the READ is parked. -/
def enabledDuringRead : List Action :=
  [.create 0 7] ++ steps 0 2 ++ [.read 1 7 1514] ++ steps 1 4 ++ [.enable 2 7 enableBoth] ++ steps 2 9 ++ steps 1 4

theorem adaptive_parks :
    ∃ s, DriverReach (fun _ a => a.kind ∉ [.cleanup, .d0Exit, .stopRead]) s ∧ s.dev.adaptiveEnabled = true ∧
      s.dev.readQueue.waiting = [⟨0, 7, 1514⟩] := by
  have hacts : ∀ a ∈ enabledDuringRead, a.kind ∉ [.cleanup, .d0Exit, .stopRead] := by decide +kernel
  exact ⟨driverSystem.after .initial enabledDuringRead,
    Machine.System.reach_after_of (fun _ => hacts) (driverReach_initial _), by decide +kernel, by decide +kernel⟩

end WinTap

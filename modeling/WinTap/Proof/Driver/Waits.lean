import WinTap.Proof.Driver.Callbacks
import WinTap.Proof.Wait.Refinement

/-!
# The driver runs the wait protocol

The callbacks that touch the wait record do so inside the routines of the protocol: registration and cancellation
as they are, the worker in its first part, and the teardown and data paths where they cancel the wait or claim it.
`Driver.protocol` forgets everything else. What is left of a run of the driver is a run of `waitSystem`, whose
environment is the rest of the instance, so what holds in every state of the protocol holds in every state of the
driver.
-/

namespace WinTap

open Machine

variable {d : Device} {t : ThreadId} {choice : Choice} {e : Env} {c : Core} {x : WaitThread} {th : Thread}
  {next : Device × Thread} {s : Driver}

/-! ### What the protocol sees of a callback -/

def StorePc.protocol : StorePc → WaitThread
  | .claim pc => .claim adaptiveInterestReadable none pc
  | _ => .idle

def RequeuePc.protocol : RequeuePc → WaitThread
  | .store pc => pc.protocol
  | _ => .idle

def ReadPc.protocol : ReadPc → WaitThread
  | .requeue _ _ _ pc => pc.protocol
  | _ => .idle

def DrainPc.protocol : DrainPc → WaitThread
  | .requeue _ _ _ _ pc => pc.protocol
  | _ => .idle

def WorkPc.protocol : WorkPc → WaitThread
  | .wait pc => .worker pc
  | .drain pc => pc.protocol

def PacketPc.protocol : PacketPc → WaitThread
  | .store _ pc => pc.protocol
  | _ => .idle

def TxPc.protocol : TxPc → WaitThread
  | .packet _ _ _ pc => pc.protocol
  | _ => .idle

def RxPc.protocol : RxPc → WaitThread
  | .claim _ pc => .claim adaptiveInterestWritable none pc
  | _ => .idle

def CleanupPc.protocol : CleanupPc → WaitThread
  | .teardown _ _ pc => .teardown none pc
  | _ => .idle

def D0ExitPc.protocol : D0ExitPc → WaitThread
  | .teardown _ pc => .teardown none pc
  | _ => .idle

def QueueStopPc.protocol : QueueStopPc → WaitThread
  | .teardown pc => .teardown none pc
  | _ => .idle

def StopControlPc.protocol (r : Request) : StopControlPc → WaitThread
  | .teardown pc => .teardown (some r) pc
  | .active => .idle

/-- The routine of the protocol that a callback is in. -/
def Thread.protocol : Thread → WaitThread
  | .read _ pc => pc.protocol
  | .transmit _ pc => pc.protocol
  | .receive pc => pc.protocol
  | .worker pc => pc.protocol
  | .register _ r input pc => .register r input pc
  | .cancel r pc => .cancel r pc
  | .stopControl r pc => pc.protocol r
  | .cleanup _ pc => pc.protocol
  | .d0Exit pc => pc.protocol
  | .queueStop _ pc => pc.protocol
  | .idle | .write .. | .enable .. | .stopRead .. | .create .. | .d0Entry .. | .notification .. => .idle

/-- What the protocol sees of the driver. Of the control queue's lock it sees when a registration holds it. -/
def Driver.protocol (s : Driver) : WaitWorld where
  env := s.dev.env
  core := s.dev.core
  controlLock := s.dev.controlLock.filter fun t => (s.thr t).protocol.dispatching
  thr t := (s.thr t).protocol

/-! ### What a step of a callback is to the protocol -/

/-- A step of a callback outside the protocol, into it, inside it, or out of it. -/
inductive WaitStep (e : Env) (c : Core) (t : ThreadId) (choice : Choice) (x : WaitThread) (c' : Core)
    (x' : WaitThread) : Prop
  | rest (hcore : c' = c) (hthread : x' = x)
  | queue (hcore : c' = { c with workQueued := true }) (hthread : x' = x)
  | teardown (expected : Option Request) (hidle : x = .idle) (hcore : c' = c)
      (hthread : x' = .teardown expected .load)
  | claim (condition : Mask) (expected : Option Request) (hidle : x = .idle) (hcore : c' = c)
      (hthread : x' = .claim condition expected .enabled)
  | advance (hstep : advanceThread e c t choice x = some (c', x'))
  /-- The worker turns to the READs. -/
  | rests (hstep : advanceThread e c t choice x = some (c', .workerRest)) (hthread : x' = .idle)
  /-- The worker goes round again. -/
  | again (hidle : x = .idle) (hcore : c' = c) (hthread : x' = .worker (.take .load))

/-- A step of a called routine, seen from its caller. -/
theorem WaitStep.call {π ρ π' ρ' : Type} {step : Device × Flow π ρ} {inside : π → π'} {after : ρ → Flow π' ρ'}
    {wait : π → WaitThread} {wait' : π' → WaitThread} (h : WaitStep e c t choice x step.1.core (step.2.on wait .idle))
    (hinside : ∀ pc, wait' (inside pc) = wait pc) (hafter : ∀ value, (after value).on wait' .idle = .idle) :
    WaitStep e c t choice x (WinTap.call step inside after).1.core
      ((WinTap.call step inside after).2.on wait' .idle) := by
  obtain ⟨d, flow⟩ := step
  cases flow with
  | run pc =>
    change WaitStep e c t choice x d.core (wait' (inside pc))
    rwa [hinside pc]
  | ret value =>
    change WaitStep e c t choice x d.core ((after value).on wait' .idle)
    rwa [hafter value]

section
variable (d t choice)

theorem claimWait_protocol {ρ : Type} {π' : Type} (condition : Mask) (pc : ClaimPc) {inside : ClaimPc → π'}
    {after : Bool → Flow π' ρ} {wait : π' → WaitThread}
    (hinside : ∀ pc, wait (inside pc) = .claim condition none pc)
    (hafter : ∀ value, (after value).on wait .idle = .idle) :
    WaitStep d.env d.core t choice (.claim condition none pc)
      (call (onCore d (claimWaitForPassiveCompletion d.env d.core t condition none pc)) inside after).1.core
      ((call (onCore d (claimWaitForPassiveCompletion d.env d.core t condition none pc)) inside after).2.on
        wait .idle) := by
  have hclaim : WaitStep d.env d.core t choice (.claim condition none pc)
      (onCore d (claimWaitForPassiveCompletion d.env d.core t condition none pc)).1.core
      ((onCore d (claimWaitForPassiveCompletion d.env d.core t condition none pc)).2.on
        (WaitThread.claim condition none) .idle) := by
    refine .advance ?_
    simp only [advanceThread, resume, onCore_fst, onCore_snd]
    cases (claimWaitForPassiveCompletion d.env d.core t condition none pc).2 <;> rfl
  exact hclaim.call hinside hafter

theorem teardown_protocol {ρ : Type} {π' : Type} (expected : Option Request) (pc : TeardownPc)
    {inside : TeardownPc → π'} {after : Bool → Flow π' ρ} {wait : π' → WaitThread}
    (hinside : ∀ pc, wait (inside pc) = .teardown expected pc)
    (hafter : ∀ value, (after value).on wait .idle = .idle) :
    WaitStep d.env d.core t choice (.teardown expected pc)
      (call (onCore d (cancelWaitRequestForTeardown d.core expected choice pc)) inside after).1.core
      ((call (onCore d (cancelWaitRequestForTeardown d.core expected choice pc)) inside after).2.on
        wait .idle) := by
  have hteardown : WaitStep d.env d.core t choice (.teardown expected pc)
      (onCore d (cancelWaitRequestForTeardown d.core expected choice pc)).1.core
      ((onCore d (cancelWaitRequestForTeardown d.core expected choice pc)).2.on
        (WaitThread.teardown expected) .idle) := by
    refine .advance ?_
    simp only [advanceThread, resume, onCore_fst, onCore_snd]
    cases (cancelWaitRequestForTeardown d.core expected choice pc).2 <;> rfl
  exact hteardown.call hinside hafter

theorem enqueueExistingCaptureFrame_protocol (f : Frame) (pc : StorePc) :
    WaitStep d.env d.core t choice pc.protocol (enqueueExistingCaptureFrame d t f pc).1.core
      ((enqueueExistingCaptureFrame d t f pc).2.on StorePc.protocol .idle) := by
  cases pc with
  | enqueue =>
    simp only [enqueueExistingCaptureFrame]
    split <;> exact .rest rfl rfl
  | generation wasEmpty =>
    cases wasEmpty
    · exact .rest rfl rfl
    · exact .claim _ _ rfl rfl rfl
  | claim pc => exact claimWait_protocol d t choice adaptiveInterestReadable pc (fun _ => rfl) fun _ => rfl

theorem requeueCaptureFrameAndScheduleWait_protocol (f : Frame) (gen : Word) (pc : RequeuePc) :
    WaitStep d.env d.core t choice pc.protocol (requeueCaptureFrameAndScheduleWait d t f gen pc).1.core
      ((requeueCaptureFrameAndScheduleWait d t f gen pc).2.on RequeuePc.protocol .idle) := by
  cases pc with
  | lease | lifecycle | owner =>
    simp only [requeueCaptureFrameAndScheduleWait]
    split <;> exact .rest rfl rfl
  | store pc => exact (enqueueExistingCaptureFrame_protocol d t choice f pc).call (fun _ => rfl) fun _ => rfl
  | drop => exact .rest rfl rfl

theorem dequeueCaptureFrame_protocol (pc : TakePc) :
    WaitStep d.env d.core t choice .idle (dequeueCaptureFrame d pc).1.core
      ((dequeueCaptureFrame d pc).2.on (fun _ => .idle) .idle) := by
  obtain ⟨capture, hframe⟩ := dequeueCaptureFrame_frame d pc
  refine .rest (by rw [hframe]) ?_
  cases (dequeueCaptureFrame d pc).2 <;> rfl

theorem completeCapturedFrameToRead_core (r : Read) (f : Frame) :
    (completeCapturedFrameToRead d r f choice).1.core = d.core := by
  obtain ⟨readQueue, log, hframe⟩ := completeCapturedFrameToRead_frame d choice r f
  rw [hframe]

theorem evtIoRead_protocol (r : Read) (pc : ReadPc) :
    WaitStep d.env d.core t choice pc.protocol (evtIoRead d t r choice pc).1.core
      ((evtIoRead d t r choice pc).2.on ReadPc.protocol .idle) := by
  cases pc with
  | requeue gen f status pc =>
    exact (requeueCaptureFrameAndScheduleWait_protocol d t choice f gen pc).call (fun _ => rfl) fun _ => rfl
  | poll gen pc | take gen pc =>
    exact (dequeueCaptureFrame_protocol d t choice pc).call (fun _ => rfl) fun value => by cases value <;> rfl
  | deliver gen f =>
    refine .rest (completeCapturedFrameToRead_core d choice r f) ?_
    simp only [evtIoRead]
    split <;> rfl
  | lease | lifecycle | adaptive gen | tryAdmit gen | forward =>
    simp only [evtIoRead]
    split <;> exact .rest rfl rfl
  | _ => exact .rest rfl rfl

theorem drainReads_protocol (pc : DrainPc) :
    WaitStep d.env d.core t choice pc.protocol (drainReads d t choice pc).1.core
      ((drainReads d t choice pc).2.on DrainPc.protocol .idle) := by
  cases pc with
  | requeue gen r f status pc =>
    exact (requeueCaptureFrameAndScheduleWait_protocol d t choice f gen pc).call (fun _ => rfl) fun _ => rfl
  | take gen r pc =>
    exact (dequeueCaptureFrame_protocol d t choice pc).call (fun _ => rfl) fun value => by cases value <;> rfl
  | deliver gen r f =>
    refine .rest (completeCapturedFrameToRead_core d choice r f) ?_
    simp only [drainReads]
    split <;> rfl
  | retrieve gen =>
    simp only [drainReads, retrieveNextRequest]
    cases d.readQueue.waiting <;> exact .rest rfl rfl
  | lease | lifecycle | forward r =>
    simp only [drainReads]
    split <;> exact .rest rfl rfl
  | _ => exact .rest rfl rfl

/-- The READ part of the worker goes round only after it has served a READ. -/
theorem drainReads_ret_true {pc : DrainPc} (h : (drainReads d t choice pc).2 = .ret true) : pc = .again := by
  cases pc with
  | again => rfl
  | lease | lifecycle | forward r =>
    simp only [drainReads] at h
    split at h <;> cases h
  | retrieve gen =>
    simp only [drainReads, retrieveNextRequest] at h
    cases hwaiting : d.readQueue.waiting <;> simp [hwaiting] at h
  | deliver gen r f =>
    simp only [drainReads] at h
    split at h <;> cases h
  | take gen r pc =>
    simp only [drainReads] at h
    obtain ⟨_, _, hflow⟩ | ⟨value, _, hflow⟩ := call_snd (dequeueCaptureFrame d pc) _ _ <;> rw [hflow] at h
    · cases h
    · cases value <;> cases h
  | requeue gen r f status pc =>
    simp only [drainReads] at h
    obtain ⟨_, _, hflow⟩ | ⟨value, _, hflow⟩ :=
      call_snd (requeueCaptureFrameAndScheduleWait d t f gen pc) _ _ <;> rw [hflow] at h <;> cases h
  | _ => cases h

theorem evtReadCompletionWorkItem_protocol (pc : WorkPc) :
    WaitStep d.env d.core t choice pc.protocol (evtReadCompletionWorkItem d t choice pc).1.core
      ((evtReadCompletionWorkItem d t choice pc).2.on WorkPc.protocol .idle) := by
  cases pc with
  | wait pc =>
    simp only [evtReadCompletionWorkItem]
    cases hflow : (workerRound d.env d.core choice pc).2 with
    | run pc' =>
      refine .advance ?_
      simp [advanceThread, resume, WorkPc.protocol, call, hflow]
    | ret took =>
      cases took
      · refine .rests ?_ ?_
        · simp [advanceThread, resume, WorkPc.protocol, hflow]
        · simp [call, hflow, WorkPc.protocol, DrainPc.protocol]
      · refine .advance ?_
        simp [advanceThread, resume, WorkPc.protocol, call, hflow]
  | drain pc =>
    by_cases hagain : pc = .again
    · subst hagain
      exact .again rfl rfl rfl
    · have hstep := drainReads_protocol d t choice pc
      simp only [evtReadCompletionWorkItem]
      cases hflow : (drainReads d t choice pc).2 with
      | run pc' =>
        rw [hflow] at hstep
        simp only [call, hflow]
        exact hstep
      | ret goesRound =>
        cases goesRound
        · rw [hflow] at hstep
          simp only [call, hflow]
          exact hstep
        · exact absurd (drainReads_ret_true d t choice hflow) hagain

theorem capturePacket_protocol (passive : Bool) (gen : Word) (f : Frame) (pc : PacketPc) :
    WaitStep d.env d.core t choice pc.protocol (capturePacket d t passive gen f choice pc).1.core
      ((capturePacket d t passive gen f choice pc).2.on PacketPc.protocol .idle) := by
  cases pc with
  | store adaptive pc => exact (enqueueExistingCaptureFrame_protocol d t choice f pc).call (fun _ => rfl) fun _ => rfl
  | retrieve =>
    simp only [capturePacket, retrieveNextRequest]
    cases d.readQueue.waiting <;> exact .rest rfl rfl
  | complete r =>
    have hcore := completeCapturedFrameToRead_core d choice r f
    simp only [capturePacket]
    split
    · exact .rest hcore rfl
    · exact .rest rfl rfl
  | adaptive | lockDirect | directAdaptive | directLifecycle | directOwner | allocate | lifecycle | owner
  | unlockDirect =>
    simp only [capturePacket]
    split <;> exact .rest rfl rfl
  | _ => exact .rest rfl rfl

theorem advanceTransmit_protocol (passive : Bool) (pc : TxPc) :
    WaitStep d.env d.core t choice pc.protocol (advanceTransmit d t passive choice pc).1.core
      ((advanceTransmit d t passive choice pc).2.on TxPc.protocol .idle) := by
  cases pc with
  | packet gen captured f pc =>
    exact (capturePacket_protocol d t choice passive gen f pc).call (fun _ => rfl) fun _ => rfl
  | lease | lifecycle | ring gen captured =>
    simp only [advanceTransmit]
    split <;> exact .rest rfl rfl
  | queueWork => exact .queue rfl rfl
  | _ => exact .rest rfl rfl

theorem advanceReceive_protocol (pc : RxPc) :
    WaitStep d.env d.core t choice pc.protocol (advanceReceive d t choice pc).1.core
      ((advanceReceive d t choice pc).2.on RxPc.protocol .idle) := by
  cases pc with
  | claim gen pc => exact claimWait_protocol d t choice adaptiveInterestWritable pc (fun _ => rfl) fun _ => rfl
  | place gen f wasFull =>
    simp only [advanceReceive]
    split
    · cases wasFull
      · exact .rest rfl rfl
      · exact .claim _ _ rfl rfl rfl
    · exact .rest rfl rfl
  | lease | lifecycle | ring gen | dequeue gen | requeueLifecycle gen f | requeueOwner gen f | requeueEnqueue f =>
    simp only [advanceReceive]
    split <;> exact .rest rfl rfl
  | _ => exact .rest rfl rfl

theorem stopControl_protocol (r : Request) (pc : StopControlPc) :
    WaitStep d.env d.core t choice (pc.protocol r) (stopControl d r choice pc).1.core
      ((stopControl d r choice pc).2.on (StopControlPc.protocol r) .idle) := by
  cases pc with
  | active =>
    simp only [stopControl]
    split
    · exact .teardown _ rfl rfl rfl
    · exact .rest rfl rfl
  | teardown pc => exact teardown_protocol d t choice (some r) pc (fun _ => rfl) fun _ => rfl

theorem evtFileCleanup_protocol (h : Handle) (pc : CleanupPc) {result : Device × Flow CleanupPc Unit}
    (hresult : evtFileCleanup d t h choice pc = some result) :
    WaitStep d.env d.core t choice pc.protocol result.1.core (result.2.on CleanupPc.protocol .idle) := by
  cases pc with
  | teardown owns adaptive pc =>
    cases hresult
    exact teardown_protocol d t choice none pc (fun _ => rfl) fun _ => rfl
  | _ =>
    obtain ⟨d', flow⟩ := result
    cases evtFileCleanup_cases hresult <;> first | exact .rest rfl rfl | exact .teardown _ rfl rfl rfl

theorem evtDeviceD0Exit_protocol (pc : D0ExitPc) {result : Device × Flow D0ExitPc Unit}
    (hresult : evtDeviceD0Exit d t choice pc = some result) :
    WaitStep d.env d.core t choice pc.protocol result.1.core (result.2.on D0ExitPc.protocol .idle) := by
  cases pc with
  | teardown adaptive pc =>
    cases hresult
    exact teardown_protocol d t choice none pc (fun _ => rfl) fun _ => rfl
  | _ =>
    obtain ⟨d', flow⟩ := result
    cases evtDeviceD0Exit_cases hresult <;> first | exact .rest rfl rfl | exact .teardown _ rfl rfl rfl

theorem evtPacketQueueStop_protocol (isTransmit : Bool) (pc : QueueStopPc)
    {result : Device × Flow QueueStopPc Unit} (hresult : evtPacketQueueStop d isTransmit choice pc = some result) :
    WaitStep d.env d.core t choice pc.protocol result.1.core (result.2.on QueueStopPc.protocol .idle) := by
  cases pc with
  | teardown pc =>
    cases hresult
    exact teardown_protocol d t choice none pc (fun _ => rfl) fun _ => rfl
  | _ =>
    obtain ⟨d', flow⟩ := result
    cases evtPacketQueueStop_cases hresult <;> first | exact .rest rfl rfl | exact .teardown _ rfl rfl rfl

theorem registerWait_core (h : Handle) (r : Request) (input : WaitInput) (pc : RegisterPc) :
    (registerWait d t h r input choice pc).1.core = (handleWaitForChange d.env d.core t r input choice pc).1 ∧
      (registerWait d t h r input choice pc).2 = (handleWaitForChange d.env d.core t r input choice pc).2 := by
  unfold registerWait
  dsimp only
  split <;> exact ⟨rfl, rfl⟩

end

/-! ### Threads -/

theorem Thread.finish_core (d : Device) (th : Thread) : (th.finish d).core = d.core := by
  cases th
  case queueStop isTransmit pc => cases isTransmit <;> rfl
  all_goals rfl

theorem WaitStep.settle {π : Type} {result : Device × Flow π Unit} {w : π → WaitThread} {inside : π → Thread}
    (th : Thread) (h : WaitStep e c t choice x result.1.core (result.2.on w .idle))
    (hinside : ∀ pc, (inside pc).protocol = w pc) :
    WaitStep e c t choice x (th.settle inside result).1.core (th.settle inside result).2.protocol := by
  obtain ⟨d, flow⟩ := result
  cases flow with
  | run pc =>
    change WaitStep e c t choice x d.core (inside pc).protocol
    rwa [hinside pc]
  | ret value =>
    change WaitStep e c t choice x (th.finish d).core .idle
    rwa [th.finish_core]

theorem Thread.protocol_eq_idle
    (hkind : th.kind ∈ [.idle, .write, .enable, .stopRead, .create, .d0Entry, .notification]) :
    th.protocol = .idle := by
  cases th
  case idle | write | enable | stopRead | create | d0Entry | notification => rfl
  all_goals simp [Thread.kind] at hkind

theorem stepThread_protocol (hstep : stepThread d t choice th = some next) :
    WaitStep d.env d.core t choice th.protocol next.1.core next.2.protocol := by
  by_cases hkind : th.kind ∈ [.idle, .write, .enable, .stopRead, .create, .d0Entry, .notification]
  · have hnext : next.2.protocol = .idle := by
      obtain hend | hsame := stepThread_kind hstep
      · rw [hend]
        rfl
      · exact Thread.protocol_eq_idle (hsame ▸ hkind)
    refine .rest ((stepThread_frames hstep).core ?_) (hnext.trans (Thread.protocol_eq_idle hkind).symm)
    intro hmem
    cases hk : th.kind <;> rw [hk] at hmem hkind <;> simp at hmem hkind
  cases th with
  | read r pc =>
    cases hstep
    exact (evtIoRead_protocol d t choice r pc).settle _ fun _ => rfl
  | transmit passive pc =>
    cases hstep
    exact (advanceTransmit_protocol d t choice passive pc).settle _ fun _ => rfl
  | receive pc =>
    cases hstep
    exact (advanceReceive_protocol d t choice pc).settle _ fun _ => rfl
  | worker pc =>
    cases hstep
    exact (evtReadCompletionWorkItem_protocol d t choice pc).settle _ fun _ => rfl
  | register h r input pc =>
    cases hstep
    refine WaitStep.settle (w := .register r input) _ (.advance ?_) fun _ => rfl
    obtain ⟨hcore, hflow⟩ := registerWait_core d t choice h r input pc
    rw [hcore, hflow]
    simp only [advanceThread, resume, Thread.protocol]
    cases (handleWaitForChange d.env d.core t r input choice pc).2 <;> rfl
  | cancel r pc =>
    cases hstep
    refine WaitStep.settle (w := .cancel r) _ (.advance ?_) fun _ => rfl
    simp only [advanceThread, resume, Thread.protocol, onCore_fst, onCore_snd]
    cases (cancelWaitFromWdf d.core r pc).2 <;> rfl
  | stopControl r pc =>
    cases hstep
    exact (stopControl_protocol d t choice r pc).settle _ fun _ => rfl
  | cleanup h pc =>
    obtain ⟨result, hresult, rfl⟩ := Option.map_eq_some_iff.mp hstep
    exact (evtFileCleanup_protocol d t choice h pc hresult).settle _ fun _ => rfl
  | d0Exit pc =>
    obtain ⟨result, hresult, rfl⟩ := Option.map_eq_some_iff.mp hstep
    exact (evtDeviceD0Exit_protocol d t choice pc hresult).settle _ fun _ => rfl
  | queueStop isTransmit pc =>
    obtain ⟨result, hresult, rfl⟩ := Option.map_eq_some_iff.mp hstep
    exact (evtPacketQueueStop_protocol d t choice isTransmit pc hresult).settle _ fun _ => rfl
  | _ => simp [Thread.kind] at hkind

/-! ### Runs -/

/-- What a callback does in one step, the parties of the protocol do in a few. -/
theorem WaitStep.path {s : WaitWorld} {c' : Core} {x' : WaitThread}
    (h : WaitStep s.env s.core t choice (s.thr t) c' x') :
    Path waitSystem (fun w _ => w.env = s.env) s (s.advance t (c', x')) := by
  have hone : ∀ {a : WaitAction} {s' : WaitWorld}, stepWait s a = some s' →
      Path waitSystem (fun w _ => w.env = s.env) s s' := fun hstep => .step .refl rfl hstep
  cases h with
  | rest hcore hthread =>
    have hsame : s.advance t (c', x') = s := by
      simp [WaitWorld.advance, WaitWorld.setThread, hcore, hthread]
    rw [hsame]
    exact .refl
  | queue hcore hthread =>
    refine hone (a := .queueWork) ?_
    simp [stepWait, WaitWorld.advance, WaitWorld.setThread, hcore, hthread]
  | teardown expected hidle hcore hthread =>
    refine hone (a := .teardown t expected) ?_
    simp [stepWait, WaitWorld.advance, WaitWorld.setThread, hidle, hcore, hthread, WaitThread.dispatching]
  | claim condition expected hidle hcore hthread =>
    refine hone (a := .claim t condition expected) ?_
    simp [stepWait, WaitWorld.advance, WaitWorld.setThread, hidle, hcore, hthread, WaitThread.dispatching]
  | advance hstep =>
    refine hone (a := .advance t choice) ?_
    rw [stepWait, hstep]
    rfl
  | rests hstep hthread =>
    have hrest : stepWait s (.advance t choice) = some (s.advance t (c', .workerRest)) := by
      rw [stepWait, hstep]
      rfl
    refine .step (hone hrest) (a := .advance t none) rfl ?_
    simp [waitSystem, stepWait, advanceThread, WaitWorld.advance, WaitWorld.setThread, hthread, WaitThread.dispatching]
  | again hidle hcore hthread =>
    -- The work item runs once more on this thread, whether or not it is queued for another.
    by_cases hqueued : s.core.workQueued = true
    · have hwork : stepWait s (.work t) = some { (s.setThread t (.worker (.take .load))) with
          core := { s.core with workQueued := false } } := by
        simp [stepWait, hidle, hqueued]
      refine .step (hone hwork) (a := .queueWork) rfl ?_
      simp [waitSystem, stepWait, WaitWorld.advance, WaitWorld.setThread, hidle, hcore, hthread,
        WaitThread.dispatching, ← hqueued]
    · have hqueue : stepWait s .queueWork = some { s with core := { s.core with workQueued := true } } := rfl
      refine .step (hone hqueue) (a := .work t) rfl ?_
      rw [Bool.not_eq_true] at hqueued
      simp [waitSystem, stepWait, WaitWorld.advance, WaitWorld.setThread, hidle, hcore, hthread,
        WaitThread.dispatching, ← hqueued]

theorem Thread.protocol_dispatching (th : Thread) :
    th.protocol.dispatching = decide (th.kind = .register) := by
  have hstore : ∀ pc : StorePc, pc.protocol.dispatching = false := fun pc => by cases pc <;> rfl
  have hrequeue : ∀ pc : RequeuePc, pc.protocol.dispatching = false := fun pc => by
    cases pc with
    | store pc => exact hstore pc
    | _ => rfl
  cases th with
  | read r pc =>
    cases pc with
    | requeue _ _ _ pc => exact hrequeue pc
    | _ => rfl
  | transmit passive pc =>
    cases pc with
    | packet _ _ _ pc =>
      cases pc with
      | store _ pc => exact hstore pc
      | _ => rfl
    | _ => rfl
  | worker pc =>
    cases pc with
    | wait pc => rfl
    | drain pc =>
      cases pc with
      | requeue _ _ _ _ pc => exact hrequeue pc
      | _ => rfl
  | receive pc | stopControl _ pc | cleanup _ pc | d0Exit pc | queueStop _ pc => cases pc <;> rfl
  | _ => rfl

namespace Driver

theorem protocol_lock (hbefore : (s.thr t).protocol.dispatching = false) (hafter : th.protocol.dispatching = false)
    (hlock : d.controlLock = s.dev.controlLock ∨ s.dev.controlLock ∈ [none, some t] ∧ d.controlLock ∈ [none, some t]) :
    (s.setThread t d th).protocol.controlLock = s.protocol.controlLock := by
  have hheld : ∀ u, ((s.setThread t d th).thr u).protocol.dispatching = (s.thr u).protocol.dispatching :=
    s.setThread_keep t d th (f := fun th => th.protocol.dispatching) (hafter.trans hbefore.symm)
  change d.controlLock.filter _ = s.dev.controlLock.filter _
  obtain hsame | ⟨hold, hnew⟩ := hlock
  · rw [hsame]
    exact congrArg (Option.filter · _) (funext hheld)
  · have hnone : ∀ {lock : Option ThreadId}, lock ∈ [none, some t] →
        lock.filter (fun u => (s.thr u).protocol.dispatching) = none := by
      intro lock hmem
      obtain rfl | rfl : lock = none ∨ lock = some t := by simpa using hmem
      · rfl
      · simp [Option.filter, hbefore]
    rw [funext hheld, hnone hold, hnone hnew]

theorem protocol_setThread {w : WaitWorld} (hcore : w.core = d.core)
    (hthr : w.thr = Function.update s.protocol.thr t th.protocol)
    (hlock : (s.setThread t d th).protocol.controlLock = w.controlLock) :
    stepWait w (.environment d.env) = some (s.setThread t d th).protocol := by
  have hthreads : (s.setThread t d th).protocol.thr = w.thr := by
    rw [hthr]
    exact s.setThread_map t d th Thread.protocol
  rw [stepWait, ← hthreads, ← hlock, hcore]
  rfl

theorem protocol_path_of_outside (hbefore : (s.thr t).protocol = .idle) (hafter : th.protocol = .idle)
    (hcore : d.core = s.dev.core)
    (hlock : d.controlLock = s.dev.controlLock ∨ s.dev.controlLock = none ∧ d.controlLock = some t) :
    Path waitSystem (fun w _ => w.env = s.dev.env) s.protocol (s.setThread t d th).protocol := by
  refine .step .refl (a := .environment d.env) rfl (protocol_setThread hcore.symm ?_ (protocol_lock ?_ ?_ ?_))
  · rw [hafter, ← hbefore]
    exact (Function.update_eq_self t s.protocol.thr).symm
  · rw [hbefore]
    rfl
  · rw [hafter]
    rfl
  · refine hlock.imp_right fun hfree => ?_
    simp [hfree.1, hfree.2]

/-- A registration that returns frees the lock for the next. -/
theorem protocol_lock_advance (hserial : Serialized s) (hstep : stepThread s.dev t choice (s.thr t) = some next) :
    (s.setThread t next.1 next.2).protocol.controlLock
      = (s.protocol.advance t (next.1.core, next.2.protocol)).controlLock := by
  have hslot := (stepThread_slots hstep).control
  have hdispatching : ∀ th : Thread, th.protocol.dispatching = true → th.onControl = true := by
    intro th hth
    rw [th.protocol_dispatching, decide_eq_true_eq] at hth
    cases th <;> first | rfl | cases hth
  change _ = if (s.thr t).protocol.dispatching && !next.2.protocol.dispatching then none else s.protocol.controlLock
  cases hbefore : (s.thr t).protocol.dispatching with
  | false =>
    have hafter : next.2.protocol.dispatching = false := by
      rw [Thread.protocol_dispatching, decide_eq_false_iff_not] at hbefore ⊢
      exact stepThread_kind_ne hstep (by decide) hbefore
    refine protocol_lock hbefore hafter (hslot.imp (·.2) fun ⟨_, hfree, hheld⟩ => ?_)
    simp [hserial.control t hheld, hfree]
  | true =>
    have hmine := hdispatching _ hbefore
    have hheld := hserial.control t hmine
    obtain ⟨hon, hsame⟩ | ⟨hend, hfree, -⟩ := hslot
    · have hafter : next.2.protocol.dispatching = true := by
        rw [Thread.protocol_dispatching, decide_eq_true_eq] at hbefore ⊢
        obtain hend | hkind := stepThread_kind hstep
        · rw [hend, hmine] at hon
          cases hon
        · rwa [hkind]
      have hkeep : ∀ u, ((s.setThread t next.1 next.2).thr u).protocol.dispatching
          = (s.thr u).protocol.dispatching :=
        s.setThread_keep t next.1 next.2 (f := fun th => th.protocol.dispatching) (hafter.trans hbefore.symm)
      simp [Driver.protocol, hsame, hafter, hkeep]
    · have hafter : next.2.protocol.dispatching = false :=
        Bool.eq_false_iff.mpr fun hth => Bool.eq_false_iff.mp hend (hdispatching _ hth)
      simp [Driver.protocol, hfree, hafter]

end Driver

/-- A step of the driver is a run of the protocol, in the environment that the step starts in. -/
theorem stepDriver_protocol {s s' : Driver} {a : Action} (hserial : Serialized s)
    (hstep : stepDriver s a = some s') :
    Path waitSystem (fun w _ => w.env = s.dev.env) s.protocol s'.protocol := by
  cases stepDriver_cases hstep with
  | @start t a d th hidle hstart =>
    have hbefore : (s.thr t).protocol = .idle := by
      rw [hidle]
      rfl
    cases hstart
    case register h r input hphase hlock hfresh =>
      have hfree : s.protocol.controlLock = none := by simp [Driver.protocol, hlock]
      have hregister : waitSystem.step s.protocol (.register t r input) =
          some { (s.protocol.setThread t (.register r input .validate)) with
            controlLock := some t, core := dispatchRequest s.protocol.core r input.interest } :=
        if_pos ⟨hbefore, hfree, hfresh⟩
      refine .step (.step .refl rfl hregister) (a := .environment _) rfl (Driver.protocol_setThread rfl rfl ?_)
      simp [Driver.protocol, Thread.protocol, WaitThread.dispatching]
    case work hqueued =>
      have hwork : waitSystem.step s.protocol (.work t) =
          some { (s.protocol.setThread t (.worker (.take .load))) with
            core := { s.dev.core with workQueued := false } } := if_pos ⟨hbefore, hqueued⟩
      refine .step (.step .refl rfl hwork) (a := .environment _) rfl (Driver.protocol_setThread rfl rfl ?_)
      exact Driver.protocol_lock (by rw [hbefore]; rfl) rfl (.inl rfl)
    case cancel r howed =>
      have hcancel : waitSystem.step s.protocol (.cancel t r) =
          some { (s.protocol.setThread t (.cancel r .active)) with
            core := setCancel s.dev.core r .called } := if_pos ⟨hbefore, howed⟩
      refine .step (.step .refl rfl hcancel) (a := .environment _) rfl (Driver.protocol_setThread rfl rfl ?_)
      exact Driver.protocol_lock (by rw [hbefore]; rfl) rfl (.inl rfl)
    case enable hlock | stopControl hlock =>
      exact Driver.protocol_path_of_outside hbefore rfl rfl (.inr ⟨hlock, rfl⟩)
    all_goals exact Driver.protocol_path_of_outside hbefore rfl rfl (.inl rfl)
  | @framework a d hmove =>
    cases hmove
    case cancelRequest r hmarked =>
      refine .step .refl (a := .cancelRequest r) rfl ?_
      exact if_pos hmarked
    all_goals exact .step .refl (a := .environment _) rfl rfl
  | @packet t length passive gen captured hthr hlength =>
    refine Driver.protocol_path_of_outside ?_ rfl rfl (.inl rfl)
    rw [hthr]
    rfl
  | @advance t choice next hadvance =>
    have hpath := WaitStep.path (s := s.protocol) (stepThread_protocol hadvance)
    exact .step hpath (a := .environment next.1.env) rfl
      (Driver.protocol_setThread rfl rfl (Driver.protocol_lock_advance hserial hadvance))

/-- Whatever the wait protocol keeps to, the driver keeps to. -/
theorem DriverReach.protocol {ok : Driver → Action → Prop} (h : DriverReach ok s) : WaitReach s.protocol := by
  refine Reach.simulate Driver.protocol ?_ ?_ h
  · rintro s ⟨⟨mtu, -, -, hdev⟩, hidle⟩
    refine ⟨?_, ?_, fun t => ?_⟩
    · simp only [Driver.protocol, hdev]
      rfl
    · simp only [Driver.protocol, hdev]
      rfl
    · simp only [Driver.protocol, hidle t]
      rfl
  · intro s a s' hreach hwait _ hstep
    exact (stepDriver_protocol (DriverReach.serialized hreach) hstep).reach (fun _ _ _ => trivial) hwait

end WinTap

import WinTap.Proof.Switch.Close
import WinTap.Switch.Medium

/-!
# What a step of the process does to the ring

A step that pops nothing submits the queue, or builds an entry that carries no frame: a read, or a cancellation. A
completion that is popped may be followed by one entry for its slot: the same operation again, the write that passes a
frame on, or the next read.
-/

namespace WinTap.SwitchRuntime

open SwitchCore Machine

variable {ring : IoRing} {e : Entry} {empty failed : Pc} {s' : Process} {answer : PopAnswer} {built : HResult}
  {operation : ActiveOperation}

/-! ### Steps that pop nothing -/

/-- Entries are built, or the queue is submitted. -/
inductive Grows (ring : IoRing) : List Entry → IoRing → Prop
  | keep : Grows ring [] ring
  | submit : Grows ring [] ring.submit
  | build (e : Entry) : Grows ring [e] (ring.build sOk e)

/-- An entry that carries no frame: a read of the endpoint that its slot belongs to, or a cancellation. -/
def Config.Plain (c : Config) : Entry → Prop
  | .read handle buffer length _ => handle = (c.endpointForSlot buffer).handle ∧ length = c.frameMaximum
  | .write _ _ _ _ => False
  | .cancel _ _ _ => True

/-- What happens to the ring when no frame is passed on. -/
def RingStep (c : Config) (ring ring' : IoRing) : Prop := ∃ added, Grows ring added ring' ∧ ∀ e ∈ added, c.Plain e

variable {c : Config} {r r' : Runtime} {s s' : Process} {i : Nat}

theorem RingStep.keep : RingStep c ring ring := ⟨[], .keep, by simp⟩

theorem RingStep.submit : RingStep c ring ring.submit := ⟨[], .submit, by simp⟩

theorem RingStep.build (he : c.Plain e) : RingStep c ring (ring.build sOk e) :=
  ⟨[e], .build e, by simpa using he⟩

theorem build_failed {status : HResult} (hstatus : status ≠ sOk) (e : Entry) :
    ring.build status e = ring := if_neg hstatus

theorem postRead_ring (r : Runtime) (i : Nat) (status : HResult) :
    RingStep c r.ring (r.postRead c i status).2.ring := by
  unfold Runtime.postRead Runtime.withPool
  split
  · rename_i hcalled
    cases congrArg Prod.snd hcalled
    exact .keep
  rename_i completion r₁ hcalled
  cases congrArg Prod.snd hcalled
  split
  · exact .keep
  rename_i userData hencode
  unfold checkHr
  by_cases hstatus : status = sOk
  · subst hstatus
    exact .build ⟨rfl, rfl⟩
  · rw [if_neg hstatus]
    change RingStep c r.ring (r.ring.build status _)
    rw [build_failed hstatus]
    exact .keep

theorem completeAndPost_ring (r : Runtime) (message : String) (result : Except SlotError Unit × BufferPool) (i : Nat)
    (status : HResult) : RingStep c r.ring (r.completeAndPost c message result i status).2.ring := by
  unfold Runtime.completeAndPost
  split
  · rename_i hcalled
    cases congrArg Prod.snd hcalled
    exact .keep
  · rename_i hcalled
    cases congrArg Prod.snd hcalled
    exact postRead_ring (r.setPool result.2) i status

theorem submitPendingOperations_ring (r : Runtime) (status : HResult) :
    RingStep c r.ring (r.submitPendingOperations status).2.ring := by
  unfold Runtime.submitPendingOperations
  split
  · exact .keep
  · exact .submit

theorem waitForCompletion_ring (r : Runtime) (status : HResult) (taken : Bool) :
    RingStep c r.ring (r.waitForCompletion status taken).2.ring := by
  unfold Runtime.waitForCompletion
  split
  · cases taken with
    | true => exact .submit
    | false => exact .keep
  · split
    · exact .keep
    · exact .submit

theorem retireUnqueuedOperation_ring (r : Runtime) (i : Nat) : (r.retireUnqueuedOperation i).2.ring = r.ring := by
  unfold Runtime.retireUnqueuedOperation Runtime.withPool
  split
  · rfl
  split
  · rfl
  split
  · rename_i hcalled
    cases congrArg Prod.snd hcalled
    rfl
  · rename_i hcalled
    cases congrArg Prod.snd hcalled
    rfl

/-- `start` is not done. -/
def Pc.starting : Pc → Bool
  | .post _ | .submitFirst | .enter => true
  | _ => false

/-- A step that pops nothing. -/
structure QuietStep (c : Config) (s s' : Process) : Prop where
  ring : RingStep c s.runtime.ring s'.runtime.ring
  switch : s'.switch = s.switch ∨
    s.pc = .enter ∧ ∃ fresh, Switch.fromEndpoints [c.first.id, c.second.id] = .ok fresh ∧ s'.switch = some fresh
  starting : s'.pc.starting = true → s.pc.starting = true ∧ s'.switch = s.switch

/-- A call returns, somewhere past the start. -/
theorem QuietStep.call {α : Type} {called : Called α} {next : α → Pc} (hring : RingStep c s.runtime.ring called.2.ring)
    (hfailed : failed.starting = false) (hnext : ∀ a, (next a).starting = true → s.pc.starting = true) :
    QuietStep c s (s.call called failed next) := by
  obtain ⟨result, r'⟩ := called
  cases result with
  | ok a => exact ⟨hring, .inl rfl, fun hstarting => ⟨hnext a hstarting, rfl⟩⟩
  | error e => exact ⟨hring, .inl rfl, fun hstarting => absurd (hfailed.symm.trans hstarting) Bool.false_ne_true⟩

/-- The ring is left alone. -/
theorem QuietStep.same (hring : s'.runtime.ring = s.runtime.ring) (hswitch : s'.switch = s.switch)
    (hpc : s'.pc.starting = true → s.pc.starting = true) : QuietStep c s s' :=
  ⟨hring ▸ .keep, .inl hswitch, fun hstarting => ⟨hpc hstarting, hswitch⟩⟩

/-- And the start is over. -/
theorem QuietStep.past (hring : s'.runtime.ring = s.runtime.ring) (hswitch : s'.switch = s.switch)
    (hpc : s'.pc.starting = false) : QuietStep c s s' :=
  .same hring hswitch fun hstarting => absurd (hpc.symm.trans hstarting) Bool.false_ne_true

theorem QuietStep.callPast {α : Type} {called : Called α} {next : α → Pc}
    (hring : RingStep c s.runtime.ring called.2.ring) (hfailed : failed.starting = false)
    (hnext : ∀ a, (next a).starting = false) : QuietStep c s (s.call called failed next) :=
  .call hring hfailed fun a hstarting => absurd ((hnext a).symm.trans hstarting) Bool.false_ne_true

theorem popAndProcess_quiet {next : Option Bool → Pc} (hquiet : (Answer.pop answer built).popsEntry = false)
    (hempty : empty.starting = false) (hstep : popAndProcess c s answer built empty next = some s') :
    QuietStep c s s' := by
  cases answer with
  | empty =>
    cases hstep
    exact .past rfl rfl hempty
  | failed status =>
    cases hstep
    exact .past rfl rfl rfl
  | popped index resultCode information contents => cases hquiet

theorem popAndReap_quiet {empty next : Pc} (hquiet : (Answer.pop answer built).popsEntry = false)
    (hempty : empty.starting = false) (hstep : popAndReap c s answer empty next = some s') : QuietStep c s s' := by
  cases answer with
  | empty =>
    cases hstep
    exact .past rfl rfl hempty
  | failed status =>
    cases hstep
    exact .past rfl rfl rfl
  | popped index resultCode information contents => cases hquiet

variable {answer : Answer}

theorem stepStart_quiet (hstep : stepStart c s answer = some s') : QuietStep c s s' := by
  unfold stepStart at hstep
  dsimp only at hstep
  split at hstep
  · rename_i slot status hat
    split at hstep <;> cases hstep
    · exact .same rfl rfl fun _ => hat ▸ rfl
    · exact .call (postRead_ring s.runtime slot status) rfl fun _ _ => hat ▸ rfl
  · rename_i status hat
    cases hstep
    exact .call (submitPendingOperations_ring s.runtime status) rfl fun _ _ => hat ▸ rfl
  · rename_i hat
    split at hstep <;> cases hstep
    · exact .past rfl rfl rfl
    · rename_i fresh hfresh
      refine ⟨.keep, .inr ⟨hat, fresh, hfresh, rfl⟩, fun hstarting => ?_⟩
      change (if _ then Pc.adaptive else Pc.legacy).starting = true at hstarting
      split at hstarting <;> cases hstarting
  · cases hstep

theorem stepLegacy_quiet (hquiet : answer.popsEntry = false) (hstep : stepLegacy c s answer = some s') :
    QuietStep c s s' := by
  unfold stepLegacy at hstep
  dsimp only at hstep
  split at hstep
  · cases hstep
    exact .past rfl rfl rfl
  · exact popAndProcess_quiet hquiet rfl hstep
  · cases hstep
    exact .callPast (waitForCompletion_ring s.runtime _ _) rfl fun _ => rfl
  · exact popAndProcess_quiet hquiet rfl hstep
  · cases hstep
    exact .callPast (submitPendingOperations_ring s.runtime _) rfl fun _ => rfl
  · cases hstep

theorem stepAdaptive_quiet (hquiet : answer.popsEntry = false) (hstep : stepAdaptive c s answer = some s') :
    QuietStep c s s' := by
  unfold stepAdaptive at hstep
  dsimp only at hstep
  split at hstep
  · cases hstep
    exact .past rfl rfl rfl
  · cases hstep
    exact .past rfl rfl rfl
  · refine popAndProcess_quiet hquiet ?_ hstep
    split <;> rfl
  · cases hstep
    refine .callPast (submitPendingOperations_ring s.runtime _) rfl fun _ => ?_
    split <;> rfl
  · cases hstep
    refine .past rfl rfl ?_
    change (if _ then Pc.armFirst else Pc.adaptive).starting = false
    split <;> rfl
  · rename_i slot status hat
    split at hstep
    · cases hstep
      exact .past rfl rfl rfl
    split at hstep <;> cases hstep
    · exact .past rfl rfl rfl
    · exact .callPast (postRead_ring s.runtime slot status) rfl fun _ => rfl
  · cases hstep
    exact .callPast (submitPendingOperations_ring s.runtime _) rfl fun _ => rfl
  · cases hstep

theorem stepWaiting_quiet (hstep : stepWaiting c s answer = some s') : QuietStep c s s' := by
  unfold stepWaiting at hstep
  dsimp only at hstep
  split at hstep <;> cases hstep
  · exact .callPast .keep rfl fun _ => rfl
  · refine .callPast .keep rfl fun _ => ?_
    split <;> rfl
  · exact .same rfl rfl id
  all_goals exact .past rfl rfl rfl

theorem stepShutdown_quiet (hquiet : answer.popsEntry = false) (hstep : stepShutdown c s answer = some s') :
    QuietStep c s s' := by
  unfold stepShutdown at hstep
  dsimp only at hstep
  split at hstep
  · cases hstep
    exact .past rfl rfl rfl
  · rename_i slot hat
    split at hstep <;> cases hstep
    · exact .past rfl rfl rfl
    · refine .callPast ?_ rfl fun _ => rfl
      rw [retireUnqueuedOperation_ring]
      exact .keep
  · cases hstep
    exact .callPast (submitPendingOperations_ring s.runtime _) rfl fun _ => rfl
  · split at hstep
    · exact popAndReap_quiet hquiet rfl hstep
    · cases hstep
      exact .past rfl rfl rfl
  · cases hstep
    exact .callPast (waitForCompletion_ring s.runtime _ _) rfl fun _ => rfl
  · cases hstep

theorem stepCancelling_quiet (hquiet : answer.popsEntry = false) (hstep : stepCancelling c s answer = some s') :
    QuietStep c s s' := by
  unfold stepCancelling at hstep
  dsimp only at hstep
  split at hstep
  · split at hstep <;> cases hstep
    · exact .past rfl rfl rfl
    · exact .callPast .keep rfl fun _ => rfl
  · split at hstep
    · cases hstep
      refine .past rfl rfl ?_
      change (if _ then Pc.submitCancellations else Pc.reap).starting = false
      split <;> rfl
    split at hstep
    · cases hstep
      exact .past rfl rfl rfl
    split at hstep
    · cases hstep
      exact .past rfl rfl rfl
    split at hstep <;> cases hstep
    · exact .past rfl rfl rfl
    · exact ⟨.build trivial, .inl rfl, fun hstarting => by cases hstarting⟩
  · split at hstep <;> cases hstep
    · exact .past rfl rfl rfl
    · exact ⟨.submit, .inl rfl, fun hstarting => by cases hstarting⟩
  · exact popAndReap_quiet hquiet rfl hstep
  · cases hstep
    exact .callPast (waitForCompletion_ring s.runtime _ _) rfl fun _ => rfl
  · cases hstep
    refine .past rfl rfl ?_
    change (if _ then Pc.aborted else Pc.closed).starting = false
    split <;> rfl
  · cases hstep

theorem stepProcess_quiet (hquiet : answer.popsEntry = false) (hstep : stepProcess c s answer = some s') :
    QuietStep c s s' := by
  unfold stepProcess at hstep
  split at hstep
  all_goals first
    | exact stepStart_quiet hstep
    | exact stepLegacy_quiet hquiet hstep
    | exact stepAdaptive_quiet hquiet hstep
    | exact stepWaiting_quiet hstep
    | exact stepShutdown_quiet hquiet hstep
    | exact stepCancelling_quiet hquiet hstep
    | cases hstep

/-! ### Completions -/

/-- The call that a completed read makes of the switch. -/
def Config.callOf (c : Config) (i information : Nat) (contents : Nat → UInt8) : Call :=
  ⟨(c.endpointForSlot i).id, bytesOf information contents⟩

/-- How the completion of an operation is processed: what is built after it was popped, and the switch it leaves. -/
inductive Handled (c : Config) (i : Nat) (operation : ActiveOperation) (switch : Switch) (popped : Completion)
    (ring : IoRing) (failed : Prop) : IoRing → Switch → Prop
  /-- The same entry is built again. -/
  | again (hcode : popped.resultCode ≠ sOk) :
    Handled c i operation switch popped ring failed (ring.build sOk (operation.entry i)) switch
  | refused (hcode : popped.resultCode ≠ sOk) (hwrite : operation.isWrite = true → failed) :
    Handled c i operation switch popped ring failed ring switch
  | written (hcode : popped.resultCode = sOk) (hwrite : operation.isWrite = true) {ring' : IoRing}
      (hring : RingStep c ring ring') : Handled c i operation switch popped ring failed ring' switch
  | oversized (hread : operation.isWrite = false) (hlarge : c.frameMaximum < popped.information) {ring' : IoRing}
      (hring : RingStep c ring ring') : Handled c i operation switch popped ring failed ring' switch
  | dropped (hcode : popped.resultCode = sOk) (hread : operation.isWrite = false)
      (hfits : popped.information ≤ c.frameMaximum)
      (hnone : c.delivery switch (c.callOf i popped.information popped.contents) = none) {ring' : IoRing}
      (hring : RingStep c ring ring') :
    Handled c i operation switch popped ring failed ring'
      (switch.call (c.callOf i popped.information popped.contents)).1
  | passed (hcode : popped.resultCode = sOk) (hread : operation.isWrite = false)
      (hfits : popped.information ≤ c.frameMaximum) {destination : EndpointId}
      (hsome : c.delivery switch (c.callOf i popped.information popped.contents) =
        some (c.handleOf destination, bytesOf popped.information popped.contents)) {ring' : IoRing}
      (hring : (∃ userData, ring' = ring.build sOk (.write (c.handleOf destination) i popped.information userData)) ∨
        ring' = ring ∧ failed) :
    Handled c i operation switch popped ring failed ring'
      (switch.call (c.callOf i popped.information popped.contents)).1

/-- A call has returned an error. -/
def Failed {α : Type} (result : Except RuntimeError α) : Prop := ∃ e, result = .error e

theorem postWrite_ring (r : Runtime) (completion : SlotCompletion) (destination : EndpointId) (length : Nat)
    (status : HResult) :
    (∃ userData, (r.postWrite c completion destination length status).2.ring =
      r.ring.build sOk (.write (c.handleOf destination) completion.slot length userData)) ∨
    (r.postWrite c completion destination length status).2.ring = r.ring ∧
      Failed (r.postWrite c completion destination length status).1 := by
  unfold Runtime.postWrite Runtime.withPool
  dsimp only
  split
  · rename_i e r₁ hcalled
    cases congrArg Prod.snd hcalled
    exact .inr ⟨rfl, e, rfl⟩
  rename_i r₁ hcalled
  cases congrArg Prod.snd hcalled
  split
  · rename_i e hencode
    exact .inr ⟨rfl, e, rfl⟩
  rename_i userData hencode
  unfold checkHr
  by_cases hstatus : status = sOk
  · subst hstatus
    exact .inl ⟨userData, rfl⟩
  · rw [if_neg hstatus]
    exact .inr ⟨build_failed hstatus _, _, rfl⟩

theorem retryBusyOperation_ring (hactive : r.active i = some operation) (status : HResult) :
    (r.retryBusyOperation i status).2.ring = r.ring.build sOk (operation.entry i) ∨
    (r.retryBusyOperation i status).2.ring = r.ring ∧ Failed (r.retryBusyOperation i status).1 := by
  unfold Runtime.retryBusyOperation Runtime.withPool
  rw [hactive]
  dsimp only
  split
  · exact .inr ⟨rfl, _, rfl⟩
  split
  · split
    · rename_i e r₁ hcalled
      cases congrArg Prod.snd hcalled
      exact .inr ⟨rfl, e, rfl⟩
    · rename_i r₁ hcalled
      cases congrArg Prod.snd hcalled
      exact .inr ⟨rfl, _, rfl⟩
  · unfold checkHr
    by_cases hstatus : status = sOk
    · subst hstatus
      exact .inl rfl
    · rw [if_neg hstatus]
      exact .inr ⟨build_failed hstatus _, _, rfl⟩

variable {switch : Switch} {popped : Completion}

theorem Config.delivery_recipient {call : Call} {destination : EndpointId} {rest : List EndpointId}
    (hresult : (switch.call call).2 = .ok (destination :: rest)) :
    c.delivery switch call = some (c.handleOf destination, call.frame) := by
  rw [Config.delivery, hresult]

theorem Config.delivery_nobody {call : Call} (hresult : (switch.call call).2 = .ok []) :
    c.delivery switch call = none := by
  rw [Config.delivery, hresult]

theorem Config.delivery_error {call : Call} {error : ForwardingError}
    (hresult : (switch.call call).2 = .error error) :
    c.delivery switch call = none := by
  rw [Config.delivery, hresult]

theorem dispatchRead_handled {generation : Nat} {pool : BufferPool}
    (hbegin : r.pool.beginDispatch ⟨i, generation⟩ = (.ok (), pool)) (hread : operation.isWrite = false)
    (hcode : popped.resultCode = sOk) (status : HResult) :
    Handled c i operation switch popped r.ring (Failed (r.dispatchRead c switch ⟨i, generation⟩ popped status).1.1)
      (r.dispatchRead c switch ⟨i, generation⟩ popped status).1.2.ring
      (r.dispatchRead c switch ⟨i, generation⟩ popped status).2 := by
  unfold Runtime.dispatchRead
  simp only [hbegin, Runtime.withPool, Except.mapError]
  by_cases hfits : popped.information ≤ c.frameMaximum
  swap
  · rw [if_neg hfits]
    exact .oversized hread (Nat.lt_of_not_le hfits) (completeAndPost_ring (r.setPool pool) _ _ i status)
  rw [if_pos hfits]
  split
  · rename_i hresult
    exact .dropped hcode hread hfits (Config.delivery_error hresult)
      (completeAndPost_ring (r.setPool pool) _ _ i status)
  · rename_i error hinvalid hresult
    exact .dropped hcode hread hfits (Config.delivery_error hresult) .keep
  · rename_i destination rest hresult
    exact .passed hcode hread hfits (Config.delivery_recipient hresult)
      (postWrite_ring (r.setPool pool) ⟨i, generation⟩ destination popped.information status)
  · rename_i hresult
    exact .dropped hcode hread hfits (Config.delivery_nobody hresult)
      (completeAndPost_ring (r.setPool pool) _ _ i status)

theorem Handled.mono {ring ring' : IoRing} {switch' : Switch} {failed failed' : Prop} (hmono : failed → failed')
    (h : Handled c i operation switch popped ring failed ring' switch') :
    Handled c i operation switch popped ring failed' ring' switch' := by
  cases h with
  | again hcode => exact .again hcode
  | refused hcode hwrite => exact .refused hcode fun htrue => hmono (hwrite htrue)
  | written hcode hwrite hring => exact .written hcode hwrite hring
  | oversized hread hlarge hring => exact .oversized hread hlarge hring
  | dropped hcode hread hfits hnone hring => exact .dropped hcode hread hfits hnone hring
  | passed hcode hread hfits hsome hring =>
    exact .passed hcode hread hfits hsome (hring.imp_right (And.imp_right hmono))

theorem Failed.map {α β : Type} {result : Except RuntimeError α} (h : Failed result) (f : α → β) :
    Failed (result.map f) := by
  obtain ⟨e, rfl⟩ := h
  exact ⟨e, rfl⟩

theorem processCompletion_handled (hi : i < c.totalDepth) {slot : BufferSlot} (h : Popped r i operation slot)
    (huserData : popped.userData = operation.userData) (status : HResult) :
    Handled c i operation switch popped r.ring (Failed (r.processCompletion c switch popped status).1.1)
      (r.processCompletion c switch popped status).1.2.ring (r.processCompletion c switch popped status).2 := by
  have hcancel : (r.setActive i none).pool.cancel ⟨i, slot.generation⟩ =
      (.ok (), r.pool.setSlot i ⟨slot.generation, .free⟩) := h.corresponds.completion ▸ h.cancel
  unfold Runtime.processCompletion
  simp only [huserData, h.validate hi]
  split
  · rename_i hbusy
    have hcode : popped.resultCode ≠ sOk := fun hok => by
      rw [hok] at hbusy
      revert hbusy
      decide
    obtain hring | ⟨hring, hfailed⟩ := retryBusyOperation_ring h.active status
    · rw [hring]
      exact .again hcode
    · rw [hring]
      exact .refused hcode fun _ => hfailed.map _
  split
  · rename_i hempty
    simp only [Bool.and_eq_true, Bool.not_eq_true'] at hempty
    have hcode : popped.resultCode ≠ sOk := fun hok => by
      rw [hok] at hempty
      exact absurd hempty.2 (by decide)
    exact .refused hcode fun hwrite => absurd (hempty.1.2.symm.trans hwrite) Bool.false_ne_true
  split
  · rename_i hcode
    simp only [hcancel, Runtime.withPool, Except.mapError]
    exact .refused hcode fun _ => ⟨_, rfl⟩
  rename_i hcode
  split
  · rename_i hwrite
    exact .written (not_not.mp hcode) hwrite (completeAndPost_ring (r.setActive i none) _ _ i status)
  · rename_i hread
    have hpending : slot.state = .readPending := by rw [h.corresponds.state, if_neg hread]
    have hbegin : (r.setActive i none).pool.beginDispatch ⟨i, slot.generation⟩ =
        (.ok (), r.pool.setSlot i ⟨slot.generation, .dispatching⟩) := transition_eq h.pool (by rw [hpending]; rfl)
    exact (dispatchRead_handled hbegin (Bool.eq_false_iff.mpr hread) (not_not.mp hcode) status).mono fun hfailed =>
      hfailed.map _

theorem processShutdownCompletion_ring (r : Runtime) (userData : UserData) (resultCode : HResult) :
    (r.processShutdownCompletion c userData resultCode).2.ring = r.ring := by
  unfold Runtime.processShutdownCompletion Runtime.withPool
  split
  · dsimp only
    split
    · rfl
    split
    · rfl
    split <;> rfl
  split
  · rfl
  split
  · rename_i hcalled
    cases congrArg Prod.snd hcalled
    rfl
  · rename_i hcalled
    cases congrArg Prod.snd hcalled
    rfl

/-- A step that pops the completion of an entry: in a run loop, or in shutdown. -/
inductive PopStep (c : Config) (s s' : Process) (index : Nat) (resultCode : HResult) (information : Nat)
    (contents : Nat → UInt8) (built : HResult) (e : Entry) : Prop
  | processed {switch : Switch} {called : Called (Option Bool) × Switch} (hbefore : s.pc.stopping = false)
      (hswitch : s.switch = some switch)
      (hcalled : called = (s.runtime.remove index).processCompletion c switch
        ⟨e.userData, resultCode, information, contents⟩ built)
      (hruntime : s'.runtime = called.1.2) (hafter : s'.switch = some called.2)
      (hstopping : s'.pc.stopping = false → ¬Failed called.1.1) (hstarting : s'.pc.starting = false)
  | reaped (hring : s'.runtime.ring = s.runtime.ring.remove index) (hswitch : s'.switch = s.switch)
      (hstopping : s'.pc.stopping = true)

variable {index information : Nat} {resultCode built : HResult} {contents : Nat → UInt8}

theorem Process.call_stopping {α : Type} {called : Called α} {next : α → Pc} (hfailed : failed.stopping = true)
    (hrunning : (s.call called failed next).pc.stopping = false) : ¬Failed called.1 := by
  rintro ⟨error, herror⟩
  obtain ⟨result, r'⟩ := called
  cases herror
  exact absurd (hfailed.symm.trans hrunning) (by decide)

theorem Process.call_starting {α : Type} {called : Called α} {next : α → Pc} (hfailed : failed.starting = false)
    (hnext : ∀ a, (next a).starting = false) : (s.call called failed next).pc.starting = false := by
  obtain ⟨result, r'⟩ := called
  cases result with
  | ok a => exact hnext a
  | error e => exact hfailed

theorem popAndProcess_pops {next : Option Bool → Pc} (hbefore : s.pc.stopping = false)
    (he : s.runtime.ring.submitted[index]? = some e) (hnext : ∀ a, (next a).starting = false)
    (hstep : popAndProcess c s (.popped index resultCode information contents) built empty next = some s') :
    PopStep c s s' index resultCode information contents built e := by
  unfold popAndProcess at hstep
  simp only [he] at hstep
  split at hstep
  swap
  · cases hstep
  rename_i e' switch hentry hswitch
  cases hentry
  cases hstep
  exact .processed hbefore hswitch rfl (Process.call_runtime ..) rfl (Process.call_stopping rfl)
    (Process.call_starting rfl hnext)

theorem popAndReap_pops {empty next : Pc} (he : s.runtime.ring.submitted[index]? = some e)
    (hnext : next.stopping = true)
    (hstep : popAndReap c s (.popped index resultCode information contents) empty next = some s') :
    PopStep c s s' index resultCode information contents built e := by
  unfold popAndReap at hstep
  have hring := processShutdownCompletion_ring (c := c) (s.runtime.remove index) e.userData resultCode
  simp only [he] at hstep
  split at hstep
  · rename_i error r' hcalled
    rw [hcalled] at hring
    cases hstep
    exact .reaped hring rfl rfl
  · rename_i error r' hcalled
    rw [hcalled] at hring
    cases hstep
    exact .reaped hring rfl hnext

theorem stepProcess_pops (hpops : s.popsNext c = true) (he : s.runtime.ring.submitted[index]? = some e)
    (hstep : stepProcess c s (.pop (.popped index resultCode information contents) built) = some s') :
    PopStep c s s' index resultCode information contents built e := by
  unfold Process.popsNext at hpops
  split at hpops
  · rename_i hat
    simp only [stepProcess, stepLegacy, hat] at hstep
    exact popAndProcess_pops (by rw [hat]; rfl) he (fun _ => rfl) hstep
  · rename_i hat
    simp only [stepProcess, stepLegacy, hat] at hstep
    exact popAndProcess_pops (by rw [hat]; rfl) he (fun _ => rfl) hstep
  · rename_i hat
    simp only [stepProcess, stepAdaptive, hat] at hstep
    exact popAndProcess_pops (by rw [hat]; rfl) he (fun _ => rfl) hstep
  · rename_i hat
    simp only [stepProcess, stepCancelling, hat] at hstep
    exact popAndReap_pops he rfl hstep
  · rename_i hat
    simp only [stepProcess, stepShutdown, hat, if_pos hpops] at hstep
    exact popAndReap_pops he rfl hstep
  · cases hpops

end WinTap.SwitchRuntime

import WinTap.Proof.Switch.Sleep
import WinTap.Switch.WaitEvents

/-!
# Who closes the event of a wait

As long as `submit_adaptive_wait` finds an endpoint without a wait whenever it creates an event, the events are in the
endpoints until these are dropped, and are closed then. An event that is created for an endpoint with a wait is in no
endpoint and is never closed.
-/

namespace WinTap.SwitchRuntime

open SwitchCore Machine

variable {answer : Answer}
variable {c : Config}

/-! ### The waits of the endpoints -/

section
variable {r r' : Runtime}

theorem waits_of_withPool {α : Type} {message : String} {result : Except SlotError α × BufferPool}
    {answer : Except RuntimeError α} (h : r.withPool message result = (answer, r')) : r'.waits = r.waits :=
  (congrArg (fun called : Called α => called.2.waits) h).symm

theorem postRead_waits (slot : Nat) (status : HResult) : (r.postRead c slot status).2.waits = r.waits := by
  unfold Runtime.postRead
  split
  · rename_i hpool
    exact waits_of_withPool hpool
  rename_i hpool
  have hwaits := waits_of_withPool hpool
  split
  · exact hwaits
  · dsimp only
    split <;> exact hwaits

theorem submitPendingOperations_waits (status : HResult) :
    (r.submitPendingOperations status).2.waits = r.waits := by
  unfold Runtime.submitPendingOperations
  split <;> rfl

theorem waitForCompletion_waits (status : HResult) (taken : Bool) :
    (r.waitForCompletion status taken).2.waits = r.waits := by
  unfold Runtime.waitForCompletion
  split
  · cases taken <;> rfl
  · split <;> rfl

theorem retryBusyOperation_waits (slot : Nat) (status : HResult) :
    (r.retryBusyOperation slot status).2.waits = r.waits := by
  unfold Runtime.retryBusyOperation
  split
  · rfl
  split
  · rfl
  split
  · split
    all_goals
      rename_i hpool
      have hwaits := waits_of_withPool hpool
      exact hwaits
  · dsimp only
    split <;> rfl

theorem completeAndPost_waits (message : String) (result : Except SlotError Unit × BufferPool) (slot : Nat)
    (status : HResult) : (r.completeAndPost c message result slot status).2.waits = r.waits := by
  unfold Runtime.completeAndPost
  split
  · rename_i hpool
    exact waits_of_withPool hpool
  · rename_i hpool
    rw [postRead_waits, waits_of_withPool hpool]

theorem postWrite_waits (completion : SlotCompletion) (destination : EndpointId) (length : Nat) (status : HResult) :
    (r.postWrite c completion destination length status).2.waits = r.waits := by
  unfold Runtime.postWrite
  dsimp only
  split
  · rename_i hpool
    exact waits_of_withPool hpool
  rename_i hpool
  have hwaits := waits_of_withPool hpool
  split
  · exact hwaits
  · split <;> exact hwaits

theorem dispatchRead_waits (switch : Switch) (completion : SlotCompletion) (popped : Completion) (status : HResult) :
    (r.dispatchRead c switch completion popped status).1.2.waits = r.waits := by
  unfold Runtime.dispatchRead
  split
  · rename_i hpool
    exact waits_of_withPool hpool
  rename_i hpool
  have hwaits := waits_of_withPool hpool
  split
  · dsimp only
    split
    · rw [completeAndPost_waits, hwaits]
    · exact hwaits
    · rw [postWrite_waits, hwaits]
    · rw [completeAndPost_waits, hwaits]
  · rw [completeAndPost_waits, hwaits]

theorem processCompletion_waits (switch : Switch) (popped : Completion) (status : HResult) :
    (r.processCompletion c switch popped status).1.2.waits = r.waits := by
  unfold Runtime.processCompletion
  split
  · rfl
  split
  · exact retryBusyOperation_waits ..
  dsimp only
  split
  · rfl
  split
  · split
    all_goals
      rename_i hpool
      have hwaits := waits_of_withPool hpool
      exact hwaits
  split
  · exact completeAndPost_waits ..
  · exact dispatchRead_waits ..

theorem retireUnqueuedOperation_waits (slot : Nat) : (r.retireUnqueuedOperation slot).2.waits = r.waits := by
  unfold Runtime.retireUnqueuedOperation
  split
  · rfl
  split
  · rfl
  · split
    all_goals
      rename_i hpool
      have hwaits := waits_of_withPool hpool
      exact hwaits

theorem processShutdownCompletion_waits (userData : UserData) (resultCode : HResult) :
    (r.processShutdownCompletion c userData resultCode).2.waits = r.waits := by
  unfold Runtime.processShutdownCompletion
  split
  · dsimp only
    split
    · rfl
    split
    · rfl
    split <;> rfl
  · split
    · rfl
    · split
      all_goals
        rename_i hpool
        have hwaits := waits_of_withPool hpool
        exact hwaits

end

/-- Which endpoints have a wait. -/
def Runtime.hasWaits (r : Runtime) : Bool × Bool := (r.waits.1.isSome, r.waits.2.isSome)

theorem hasWaits_endWait (r : Runtime) (first : Bool) : (r.endWait first).hasWaits = r.hasWaits := by
  cases first <;> simp [Runtime.endWait, Runtime.hasWaits]

section
variable {s s' : Process}

theorem hasWaits_call {α : Type} {called : Called α} {failed : Pc} {next : α → Pc}
    (hcalled : called.2.waits = s.runtime.waits) :
    (s.call called failed next).runtime.hasWaits = s.runtime.hasWaits := by
  rw [s.call_runtime, Runtime.hasWaits, hcalled]
  rfl

theorem popAndProcess_hasWaits {answer : PopAnswer} {built : HResult} {empty : Pc} {next : Option Bool → Pc}
    (hstep : popAndProcess c s answer built empty next = some s') : s'.runtime.hasWaits = s.runtime.hasWaits := by
  unfold popAndProcess at hstep
  cases answer with
  | empty | failed status =>
    cases hstep
    rfl
  | popped index resultCode information contents =>
    dsimp only at hstep
    split at hstep <;> cases hstep
    exact hasWaits_call (processCompletion_waits ..)

theorem popAndReap_hasWaits {answer : PopAnswer} {empty next : Pc}
    (hstep : popAndReap c s answer empty next = some s') : s'.runtime.hasWaits = s.runtime.hasWaits := by
  unfold popAndReap at hstep
  cases answer with
  | empty | failed status =>
    cases hstep
    rfl
  | popped index resultCode information contents =>
    dsimp only at hstep
    split at hstep
    swap
    · cases hstep
    rename_i entry _
    have hwaits := processShutdownCompletion_waits (c := c) (r := s.runtime.remove index) entry.userData resultCode
    split at hstep
    all_goals
      rename_i hcalled
      rw [hcalled] at hwaits
      cases hstep
      exact congrArg (fun waits => (waits.1.isSome, waits.2.isSome)) hwaits

theorem stepStart_hasWaits (hstep : stepStart c s answer = some s') : s'.runtime.hasWaits = s.runtime.hasWaits := by
  unfold stepStart at hstep
  dsimp only at hstep
  split at hstep
  · split at hstep <;> cases hstep
    · rfl
    · exact hasWaits_call (postRead_waits ..)
  · cases hstep
    exact hasWaits_call (submitPendingOperations_waits ..)
  · split at hstep <;> cases hstep <;> rfl
  · cases hstep

theorem stepLegacy_hasWaits (hstep : stepLegacy c s answer = some s') : s'.runtime.hasWaits = s.runtime.hasWaits := by
  unfold stepLegacy at hstep
  dsimp only at hstep
  split at hstep
  · cases hstep
    rfl
  · exact popAndProcess_hasWaits hstep
  · cases hstep
    exact hasWaits_call (waitForCompletion_waits ..)
  · exact popAndProcess_hasWaits hstep
  · cases hstep
    exact hasWaits_call (submitPendingOperations_waits ..)
  · cases hstep

theorem stepAdaptive_hasWaits (hstep : stepAdaptive c s answer = some s') :
    s'.runtime.hasWaits = s.runtime.hasWaits := by
  unfold stepAdaptive at hstep
  dsimp only at hstep
  split at hstep
  · cases hstep
    rfl
  · cases hstep
    rfl
  · exact popAndProcess_hasWaits hstep
  · cases hstep
    exact hasWaits_call (submitPendingOperations_waits ..)
  · cases hstep
    rfl
  · split at hstep
    · cases hstep
      rfl
    split at hstep <;> cases hstep
    · rfl
    · exact hasWaits_call (postRead_waits ..)
  · cases hstep
    exact hasWaits_call (submitPendingOperations_waits ..)
  · cases hstep

theorem stepShutdown_hasWaits (hstep : stepShutdown c s answer = some s') :
    s'.runtime.hasWaits = s.runtime.hasWaits := by
  unfold stepShutdown at hstep
  dsimp only at hstep
  split at hstep
  · cases hstep
    exact (hasWaits_endWait _ _).trans (hasWaits_endWait _ _)
  · split at hstep <;> cases hstep
    · rfl
    · exact hasWaits_call (retireUnqueuedOperation_waits ..)
  · cases hstep
    exact hasWaits_call (submitPendingOperations_waits ..)
  · split at hstep
    · exact popAndReap_hasWaits hstep
    · cases hstep
      rfl
  · cases hstep
    exact hasWaits_call (waitForCompletion_waits ..)
  · cases hstep

theorem stepCancelling_hasWaits (hstep : stepCancelling c s answer = some s') :
    s'.runtime.hasWaits = s.runtime.hasWaits := by
  unfold stepCancelling at hstep
  dsimp only at hstep
  split at hstep
  · split at hstep <;> cases hstep
    · rfl
    · exact hasWaits_call rfl
  · split at hstep
    · cases hstep
      rfl
    split at hstep
    · cases hstep
      rfl
    split at hstep
    · cases hstep
      rfl
    split at hstep <;> cases hstep <;> rfl
  · split at hstep <;> cases hstep <;> rfl
  · exact popAndReap_hasWaits hstep
  · cases hstep
    exact hasWaits_call (waitForCompletion_waits ..)
  · cases hstep
    rfl
  · cases hstep

/-- Only `submit_adaptive_wait` gives an endpoint a wait. -/
theorem stepProcess_hasWaits (hfirst : s.pc ≠ .armFirst) (hsecond : ∀ ready, s.pc ≠ .armSecond ready)
    (hstep : stepProcess c s answer = some s') : s'.runtime.hasWaits = s.runtime.hasWaits := by
  unfold stepProcess at hstep
  split at hstep
  iterate 3 exact stepStart_hasWaits hstep
  iterate 4 exact stepLegacy_hasWaits hstep
  iterate 6 exact stepAdaptive_hasWaits hstep
  · exact absurd ‹_› hfirst
  · exact absurd ‹_› (hsecond _)
  · unfold stepWaiting at hstep
    dsimp only at hstep
    split at hstep
    · exact absurd ‹_› hfirst
    · exact absurd ‹_› (hsecond _)
    all_goals cases hstep
    all_goals first | rfl | exact hasWaits_endWait _ _
  iterate 5 exact stepShutdown_hasWaits hstep
  iterate 6 exact stepCancelling_hasWaits hstep
  all_goals cases hstep

end

/-! ### Ownership of the events -/

/-- `submit_adaptive_wait` creates an event only for an endpoint that has no wait. -/
def ArmsNew (s : EventWorld) (answer : Answer) : Prop :=
  match s.process.pc, answer with
  | .armFirst, .wait (.createFailed _) | .armSecond _, .wait (.createFailed _) => True
  | .armFirst, .wait _ => s.process.runtime.waits.1.isSome = false
  | .armSecond _, .wait _ => s.process.runtime.waits.2.isSome = false
  | _, _ => True

instance (s : EventWorld) (answer : Answer) : Decidable (ArmsNew s answer) := by
  unfold ArmsNew
  split <;> infer_instance

/-- Every event is in one endpoint, or was closed once. -/
def WaitEvents.Owned (e : WaitEvents) : Prop := (e.stored ++ e.closed).Perm (List.range e.created)

/-- As long as the runtime is there, the endpoints with a wait are the ones with an event. -/
structure EventsOk (s : EventWorld) : Prop where
  mirrors : s.process.pc ≠ .closed → (s.events.first.isSome, s.events.second.isSome) = s.process.runtime.hasWaits
  owned : s.events.Owned

namespace WaitEvents

variable {e : WaitEvents}

theorem Owned.insertFirst (h : e.Owned) (hfirst : e.first.isSome = false) :
    Owned { e with created := e.created + 1, first := getOrInsert e.first e.created } := by
  obtain ⟨created, _ | event, second, closed⟩ := e
  · have hperm : (created :: (second.toList ++ closed)).Perm (List.range (created + 1)) := by
      rw [List.range_succ]
      exact (h.cons created).trans (List.perm_append_singleton _ _).symm
    exact hperm
  · cases hfirst

theorem Owned.insertSecond (h : e.Owned) (hsecond : e.second.isSome = false) :
    Owned { e with created := e.created + 1, second := getOrInsert e.second e.created } := by
  obtain ⟨created, first, _ | event, closed⟩ := e
  · have hperm : (first.toList ++ [created] ++ closed).Perm (List.range (created + 1)) := by
      rw [List.append_assoc, List.range_succ]
      refine List.perm_middle.trans ?_
      have hrest : (first.toList ++ closed).Perm (List.range created) := by
        unfold Owned stored at h
        rwa [Option.toList_none, List.append_nil] at h
      exact (hrest.cons created).trans (List.perm_append_singleton _ _).symm
    exact hperm
  · cases hsecond

theorem Owned.dropEndpoints (h : e.Owned) : e.dropEndpoints.Owned := by
  have hperm : (e.closed ++ e.stored).Perm (List.range e.created) := List.perm_append_comm.trans h
  exact hperm

theorem Owned.opened_le (h : e.Owned) : e.created - e.closed.length ≤ endpointCount := by
  have hlength := h.length_eq
  rw [List.length_append, List.length_range, stored, List.length_append] at hlength
  have hfirst : e.first.toList.length ≤ 1 := by cases e.first <;> simp
  have hsecond : e.second.toList.length ≤ 1 := by cases e.second <;> simp
  rw [endpointCount]
  omega

/-- Elsewhere the events stay as they are. -/
theorem next_eq {pc pc' : Pc} (hfirst : pc ≠ .armFirst) (hsecond : ∀ ready, pc ≠ .armSecond ready)
    (hreturned : pc ≠ .returned) : e.next pc answer pc' = e := by
  unfold next
  split
  · exact absurd rfl hfirst
  · exact absurd rfl (hsecond _)
  · exact absurd rfl hfirst
  · exact absurd rfl (hsecond _)
  · exact absurd rfl hreturned
  · rfl

end WaitEvents

section
variable {s s' : Process}

/-- The endpoints with a wait after `submit_adaptive_wait`. -/
def WaitAnswer.arms : WaitAnswer → Bool
  | .createFailed _ => false
  | _ => true

theorem submitAdaptiveWait_isSome (wait : Option AdaptiveWait) (interest : Nat) (answer : WaitAnswer) :
    (submitAdaptiveWait wait interest answer).2.isSome = (answer.arms || wait.isSome) := by
  cases answer with
  | createFailed message => rfl
  | cancelFailed message | requestFailed message | ready | pended =>
    simp only [submitAdaptiveWait]
    split <;> rfl

theorem stepProcess_armFirst (hpc : s.pc = .armFirst) (hstep : stepProcess c s answer = some s') :
    ∃ a, answer = .wait a ∧
      s'.runtime.hasWaits = (a.arms || s.runtime.waits.1.isSome, s.runtime.waits.2.isSome) := by
  simp only [stepProcess, stepWaiting, hpc] at hstep
  cases answer with
  | wait a =>
    cases hstep
    exact ⟨a, rfl, by rw [s.call_runtime, Runtime.hasWaits, submitAdaptiveWait_isSome]⟩
  | _ => cases hstep

theorem stepProcess_armSecond {ready : Bool} (hpc : s.pc = .armSecond ready)
    (hstep : stepProcess c s answer = some s') :
    ∃ a, answer = .wait a ∧
      s'.runtime.hasWaits = (s.runtime.waits.1.isSome, a.arms || s.runtime.waits.2.isSome) := by
  simp only [stepProcess, stepWaiting, hpc] at hstep
  cases answer with
  | wait a =>
    cases hstep
    exact ⟨a, rfl, by rw [s.call_runtime, Runtime.hasWaits, submitAdaptiveWait_isSome]⟩
  | _ => cases hstep

end

section
variable {s s' : EventWorld}

theorem EventsOk.step (h : EventsOk s) (hok : ArmsNew s answer) (hstep : stepEventWorld c s answer = some s') :
    EventsOk s' := by
  obtain ⟨process, hprocess, rfl⟩ := Option.map_eq_some_iff.mp hstep
  have hopen : s.process.pc ≠ .closed := by
    intro hpc
    simp only [stepProcess, hpc] at hprocess
    cases hprocess
  have hmirrors := h.mirrors hopen
  have hmirrors₁ : s.events.first.isSome = s.process.runtime.waits.1.isSome := congrArg Prod.fst hmirrors
  have hmirrors₂ : s.events.second.isSome = s.process.runtime.waits.2.isSome := congrArg Prod.snd hmirrors
  by_cases hfirst : s.process.pc = .armFirst
  · obtain ⟨a, rfl, hwaits⟩ := stepProcess_armFirst hfirst hprocess
    cases a with
    | createFailed message =>
      simp only [hfirst, WaitEvents.next]
      exact ⟨fun _ => hmirrors.trans hwaits.symm, h.owned⟩
    | cancelFailed message | requestFailed message | ready | pended =>
      simp only [ArmsNew, hfirst] at hok
      have hnone : s.events.first.isSome = false := hmirrors₁.trans hok
      simp only [hfirst, WaitEvents.next]
      refine ⟨fun _ => ?_, h.owned.insertFirst hnone⟩
      rw [hwaits]
      exact Prod.ext rfl hmirrors₂
  by_cases hsecond : ∃ ready, s.process.pc = .armSecond ready
  · obtain ⟨ready, hsecond⟩ := hsecond
    obtain ⟨a, rfl, hwaits⟩ := stepProcess_armSecond hsecond hprocess
    cases a with
    | createFailed message =>
      simp only [hsecond, WaitEvents.next]
      exact ⟨fun _ => hmirrors.trans hwaits.symm, h.owned⟩
    | cancelFailed message | requestFailed message | ready | pended =>
      simp only [ArmsNew, hsecond] at hok
      have hnone : s.events.second.isSome = false := hmirrors₂.trans hok
      simp only [hsecond, WaitEvents.next]
      refine ⟨fun _ => ?_, h.owned.insertSecond hnone⟩
      rw [hwaits]
      exact Prod.ext hmirrors₁ rfl
  have hwaits := stepProcess_hasWaits hfirst (fun ready hready => hsecond ⟨ready, hready⟩) hprocess
  by_cases hreturned : s.process.pc = .returned
  · simp only [hreturned, WaitEvents.next]
    split
    · rename_i hclosed
      exact ⟨fun hopen' => absurd hclosed hopen', h.owned.dropEndpoints⟩
    · exact ⟨fun _ => hmirrors.trans hwaits.symm, h.owned⟩
  · rw [WaitEvents.next_eq hfirst (fun ready hready => hsecond ⟨ready, hready⟩) hreturned]
    exact ⟨fun _ => hmirrors.trans hwaits.symm, h.owned⟩

end

theorem EventReach.eventsOk {s : EventWorld} (h : EventReach c ArmsNew s) : EventsOk s := by
  refine h.invariant (fun s hinit => ?_) fun s answer s' _ hinv hok hstep => hinv.step hok hstep
  cases hinit
  exact ⟨fun _ => rfl, List.Perm.refl _⟩

/-- An event that is created for an endpoint with a wait is in no endpoint. -/
theorem EventsOk.leaks {s s' : EventWorld} (h : EventsOk s) (harms : ¬ArmsNew s answer)
    (hstep : stepEventWorld c s answer = some s') : ¬s'.events.Owned := by
  obtain ⟨process, hprocess, rfl⟩ := Option.map_eq_some_iff.mp hstep
  have hlength := h.owned.length_eq
  rw [List.length_append, List.length_range, WaitEvents.stored, List.length_append] at hlength
  intro howned
  have hlength' := howned.length_eq
  rw [List.length_append, List.length_range, WaitEvents.stored, List.length_append] at hlength'
  by_cases hfirst : s.process.pc = .armFirst
  · obtain ⟨a, rfl, -⟩ := stepProcess_armFirst hfirst hprocess
    have hmirrors := congrArg Prod.fst (h.mirrors (by rw [hfirst]; exact nofun))
    cases a with
    | createFailed message =>
      simp only [ArmsNew, hfirst] at harms
      exact harms trivial
    | cancelFailed message | requestFailed message | ready | pended =>
      simp only [ArmsNew, hfirst, Bool.not_eq_false] at harms
      obtain ⟨event, hevent⟩ := Option.isSome_iff_exists.mp (hmirrors.trans harms)
      simp only [hfirst, WaitEvents.next, WaitEvents.getOrInsert, hevent, Option.getD_some] at hlength' hlength
      omega
  by_cases hsecond : ∃ ready, s.process.pc = .armSecond ready
  · obtain ⟨ready, hsecond⟩ := hsecond
    obtain ⟨a, rfl, -⟩ := stepProcess_armSecond hsecond hprocess
    have hmirrors := congrArg Prod.snd (h.mirrors (by rw [hsecond]; exact nofun))
    cases a with
    | createFailed message =>
      simp only [ArmsNew, hsecond] at harms
      exact harms trivial
    | cancelFailed message | requestFailed message | ready | pended =>
      simp only [ArmsNew, hsecond, Bool.not_eq_false] at harms
      obtain ⟨event, hevent⟩ := Option.isSome_iff_exists.mp (hmirrors.trans harms)
      simp only [hsecond, WaitEvents.next, WaitEvents.getOrInsert, hevent, Option.getD_some] at hlength' hlength
      omega
  · refine harms ?_
    unfold ArmsNew
    split
    · trivial
    · trivial
    · exact absurd ‹_› hfirst
    · exact absurd ⟨_, ‹_›⟩ hsecond
    · trivial

/-- As long as an event is created only for an endpoint that has no wait, every event is in one endpoint or was closed
once, and no more events are open than there are endpoints. A step that creates one for an endpoint with a wait ends
that. -/
theorem wait_events_owned (c : Config) :
    (∀ s, EventReach c ArmsNew s →
      s.events.Owned ∧ s.events.created - s.events.closed.length ≤ endpointCount) ∧
    ∀ s answer s', EventReach c ArmsNew s → ¬ArmsNew s answer → (eventSystem c).step s answer = some s' →
      ¬s'.events.Owned := by
  refine ⟨fun s hreach => ?_, fun s answer s' hreach harms hstep => ?_⟩
  · have howned := (EventReach.eventsOk hreach).owned
    exact ⟨howned, howned.opened_le⟩
  · exact (EventReach.eventsOk hreach).leaks harms hstep

def startEvents (c : Config) : EventWorld := ⟨startProcess c, ⟨0, none, none, []⟩⟩

/-- Both endpoints wait once, and the process shuts down and drops them. -/
def waitsOnce : List Answer := sleepsEarly ++ [.wake .stopped, .stopRequested] ++ shutsDown ++ [.advance, .advance]

theorem wait_events_owned_once :
    let s := (eventSystem (smallConfig true)).after (startEvents (smallConfig true)) waitsOnce
    s.events.created = 2 ∧ s.events.closed = [0, 1] ∧ s.events.Owned := by
  intro s
  have hreach : EventReach (smallConfig true) ArmsNew s := System.reach_after_keeping (by decide +kernel) (.init rfl)
  exact ⟨by decide +kernel, by decide +kernel, ((wait_events_owned (smallConfig true)).1 s hreach).1⟩

/-- The wait of the first endpoint ends, and the process goes back to waiting. -/
def waitsAgain : List Answer :=
  sleepsEarly ++ [.wake (.signaled true), .built sOk, .built sOk, .built sOk, .submitted sOk, .advance,
    .pop .empty sOk, .elapsed true, .wait .pended]

/-- The third event is in no endpoint and was not closed, so that three events are open. -/
theorem second_wait_leaks_event :
    ∃ s, EventReach (smallConfig true) Free s ∧ s.events.created = 3 ∧ 2 ∉ s.events.stored ∧ 2 ∉ s.events.closed ∧
      endpointCount < s.events.created - s.events.closed.length :=
  ⟨(eventSystem (smallConfig true)).after (startEvents (smallConfig true)) waitsAgain,
    System.reach_after (.init rfl) _, by decide +kernel⟩

end WinTap.SwitchRuntime

import WinTap.Proof.Switch.Slots

/-!
# Closing the ring abandons no operation

`Runtime::drop` closes the ring only where the flag or the table of active operations says that nothing is in flight.
The table knows every operation that was built, so both can be trusted. Once `shutdown` has begun, a slot only loses its
operation by being freed, so that the slots it began with are free when it is done.
-/

namespace WinTap.SwitchRuntime

open SwitchCore Machine

variable {failed : Pc} {status : HResult} {answer : Answer}
variable {c : Config} {r r' : Runtime} {s s' : Process}

/-- `shutdown` has begun. -/
def Pc.stopping : Pc → Bool
  | .shutdown | .retire _ | .submitRemaining | .drain | .drainWait | .cancelling | .queueCancellations _ _ _
  | .submitCancellations | .reap | .reapWait | .returned | .closed | .aborted => true
  | _ => false

theorem Released.refl (r : Runtime) : Released r r := fun _ => .inl ⟨rfl, rfl⟩

/-- Operations are marked, and the pool is left alone. -/
theorem Released.of_map {f : ActiveOperation → ActiveOperation} (hactive : ∀ i, r'.active i = (r.active i).map f)
    (hpool : r'.pool = r.pool) : Released r r' := fun i => .inl ⟨by rw [hactive, Option.isSome_map], by rw [hpool]⟩

/-- The flag is cleared only where no slot has an operation. -/
def ClearsLate (r r' : Runtime) : Prop :=
  r'.operationsMayBeInFlight = false → r.operationsMayBeInFlight = false ∨ ∀ i, r'.active i = none

theorem ClearsLate.of_eq (h : r'.operationsMayBeInFlight = r.operationsMayBeInFlight) : ClearsLate r r' :=
  fun hfalse => .inl (h ▸ hfalse)

/-- A step of shutdown. -/
structure StopsOn (s s' : Process) : Prop where
  stopping : s'.pc.stopping = true
  released : Released s.runtime s'.runtime
  clears : ClearsLate s.runtime s'.runtime

theorem StopsOn.call {α : Type} {called : Called α} {next : α → Pc} (hreleased : Released s.runtime called.2)
    (hclears : ClearsLate s.runtime called.2) (hfailed : failed.stopping = true)
    (hnext : ∀ a, (next a).stopping = true) : StopsOn s (s.call called failed next) := by
  obtain ⟨result, r'⟩ := called
  cases result with
  | ok a => exact ⟨hnext a, hreleased, hclears⟩
  | error e => exact ⟨hfailed, hreleased, hclears⟩

/-- Only the place in the program changes. -/
theorem StopsOn.same {e : List RuntimeError} {pc : Pc} (hpc : pc.stopping = true) :
    StopsOn s { s with pc := pc, errors := e } := ⟨hpc, .refl _, .of_eq rfl⟩

theorem StopsOn.submit {next : Unit → Pc} (hfailed : failed.stopping = true) (hnext : ∀ a, (next a).stopping = true) :
    StopsOn s (s.call (s.runtime.submitPendingOperations status) failed next) := by
  unfold Runtime.submitPendingOperations
  split
  · exact .call (.refl _) (.of_eq rfl) hfailed hnext
  · exact .call (.of_map (fun _ => rfl) rfl) nofun hfailed hnext

theorem StopsOn.wait {next : Bool → Pc} {taken : Bool} (hfailed : failed.stopping = true)
    (hnext : ∀ a, (next a).stopping = true) :
    StopsOn s (s.call (s.runtime.waitForCompletion status taken) failed next) := by
  unfold Runtime.waitForCompletion
  split
  · cases taken <;> exact .call (.refl _) (.of_eq rfl) hfailed hnext
  · split <;> exact .call (.refl _) (.of_eq rfl) hfailed hnext

theorem popAndReap_stopsOn (hinv : ProcessInv c s) {answer : PopAnswer} {empty next : Pc}
    (hstep : popAndReap c s answer empty next = some s') (hempty : empty.stopping = true)
    (hnext : next.stopping = true) : StopsOn s s' := by
  unfold popAndReap at hstep
  cases answer with
  | empty =>
    cases hstep
    exact .same hempty
  | failed status =>
    cases hstep
    exact .same rfl
  | popped index resultCode information contents =>
    dsimp only at hstep
    split at hstep
    swap
    · cases hstep
    rename_i e he
    obtain ⟨error, r', hresult, -, -, hreleases⟩ := processShutdownCompletion_spec hinv.runtime he resultCode
    rw [hresult] at hstep
    cases hstep
    exact ⟨hnext, hreleases.slots, .of_eq hreleases.inFlight⟩

theorem stepShutdown_stopsOn (hinv : ProcessInv c s) (hstep : stepShutdown c s answer = some s') : StopsOn s s' := by
  unfold stepShutdown at hstep
  dsimp only at hstep
  split at hstep
  · cases hstep
    exact ⟨rfl, .refl _, .of_eq rfl⟩
  · rename_i slot hat
    split at hstep <;> cases hstep
    · exact ⟨rfl, .of_map (fun _ => rfl) rfl, .of_eq rfl⟩
    · rename_i hlt
      obtain ⟨r', hretired, -, hreleases, -⟩ :=
        retireUnqueuedOperation_spec hinv.runtime (by omega : slot < c.totalDepth)
      rw [hretired]
      exact .call hreleases.slots (.of_eq hreleases.inFlight) rfl fun _ => rfl
  · cases hstep
    exact .submit rfl fun _ => rfl
  · split at hstep
    · exact popAndReap_stopsOn hinv hstep rfl rfl
    · cases hstep
      exact .same rfl
  · cases hstep
    exact .wait rfl fun _ => rfl
  · cases hstep

theorem stepCancelling_stopsOn (hinv : ProcessInv c s) (hstep : stepCancelling c s answer = some s') :
    StopsOn s s' := by
  unfold stepCancelling at hstep
  dsimp only at hstep
  split at hstep
  · split at hstep <;> cases hstep
    · exact .same rfl
    · rename_i hdone
      rw [Bool.not_eq_true, Bool.or_eq_false_iff] at hdone
      refine .call (.refl _) (fun _ => .inr fun i => ?_) rfl fun _ => rfl
      exact (hinv.runtime.entries_of_not_anyActive hdone.1 i).1
  · rename_i queued status hat
    split at hstep
    · cases hstep
      cases queued <;> exact .same rfl
    split at hstep
    · cases hstep
      exact .same rfl
    split at hstep
    · cases hstep
      exact .same rfl
    split at hstep <;> cases hstep
    · exact .same rfl
    · exact ⟨rfl, .refl _, .of_eq rfl⟩
  · split at hstep <;> cases hstep
    · exact .same rfl
    · exact ⟨rfl, .refl _, .of_eq rfl⟩
  · exact popAndReap_stopsOn hinv hstep rfl rfl
  · cases hstep
    exact .wait rfl fun _ => rfl
  · cases hstep
    refine .same ?_
    split <;> rfl
  · cases hstep

/-- Once shutdown has begun it goes on. -/
theorem stepProcess_stopsOn (hinv : ProcessInv c s) (hstopping : s.pc.stopping = true)
    (hstep : stepProcess c s answer = some s') : StopsOn s s' := by
  unfold stepProcess at hstep
  split at hstep
  all_goals first
    | exact stepShutdown_stopsOn hinv hstep
    | exact stepCancelling_stopsOn hinv hstep
    | (rename_i hat; rw [hat] at hstopping; cases hstopping; done)
    | cases hstep

/-- A slot that had an operation has it still, or is free. -/
def HeldOrFree (r₁ r : Runtime) : Prop :=
  ∀ i, r₁.active i ≠ none → r.active i ≠ none ∨ ∃ slot, r.pool.slots[i]? = some slot ∧ slot.state = .free

theorem HeldOrFree.step {r₁ : Runtime} (h : HeldOrFree r₁ r) (hreleased : Released r r') : HeldOrFree r₁ r' := by
  intro i hi
  obtain ⟨hactive, hpool⟩ | ⟨-, hfree⟩ := hreleased i
  · obtain hheld | ⟨slot, hslot, hfree⟩ := h i hi
    · rw [← Option.isSome_iff_ne_none] at hheld ⊢
      exact .inl (hactive ▸ hheld)
    · exact .inr ⟨slot, hpool.trans hslot, hfree⟩
  · exact .inr hfree

/-- Along shutdown the slots that it began with are held or free. -/
theorem stopping_path {s₁ : Process} (hreach : SwitchReach c Free s₁) (hbegins : s₁.pc.stopping = true)
    (hpath : Path (switchSystem c) Free s₁ s) : s.pc.stopping = true ∧ HeldOrFree s₁.runtime s.runtime := by
  refine hpath.invariant (P := fun s => s.pc.stopping = true ∧ HeldOrFree s₁.runtime s.runtime)
    ⟨hbegins, fun i hi => .inl hi⟩ fun s answer s' hs hinv _ hstep => ?_
  have hstops := stepProcess_stopsOn (SwitchReach.inv (hs.reach (fun _ _ _ => trivial) hreach)) hinv.1 hstep
  exact ⟨hstops.stopping, hinv.2.step hstops.released⟩

/-- Where the drop of the runtime closes the ring, no operation is submitted whose completion was not popped. Where
shutdown clears the flag, neither an operation nor a cancellation is submitted, and every slot that had an operation
when shutdown began is free. -/
theorem close_abandons_nothing (c : Config) :
    (∀ s, SwitchReach c Free s → s.pc = .closed → ∀ e ∈ s.runtime.ring.submitted, ∀ i, e.operatesOn i = false) ∧
    ∀ s₁ s₂ answer s₃, SwitchReach c Free s₁ → s₁.pc = .shutdown → Path (switchSystem c) Free s₁ s₂ →
      (switchSystem c).step s₂ answer = some s₃ → s₂.runtime.operationsMayBeInFlight = true →
      s₃.runtime.operationsMayBeInFlight = false →
      s₃.runtime.ring.submitted = [] ∧
        ∀ i, s₁.runtime.active i ≠ none → ∃ slot, s₃.runtime.pool.slots[i]? = some slot ∧ slot.state = .free := by
  refine ⟨fun s hreach hclosed => ?_, fun s₁ s₂ answer s₃ hreach hbegins hpath hstep hbefore hafter => ?_⟩
  · have hpc := (SwitchReach.inv hreach).pc
    rwa [hclosed] at hpc
  · have hreach₂ : SwitchReach c Free s₂ := hpath.reach (fun _ _ _ => trivial) hreach
    have hinv₃ := SwitchReach.inv (.step hreach₂ trivial hstep)
    obtain ⟨hstopping, hheld⟩ := stopping_path hreach (hbegins ▸ rfl) hpath
    have hstops := stepProcess_stopsOn (SwitchReach.inv hreach₂) hstopping hstep
    refine ⟨hinv₃.flagged hafter, fun i hi => ?_⟩
    obtain hfalse | hnone := hstops.clears hafter
    · rw [hbefore] at hfalse
      cases hfalse
    · exact (hheld.step hstops.released i hi).resolve_left fun hactive => hactive (hnone i)

/-- Two reads are cancelled one after the other, after they and their cancellations were submitted. -/
def shutsDown : List Answer :=
  [.cancelled none, .advance, .advance, .advance, .submitted sOk, .pop .empty sOk, .advance, .built sOk, .built sOk,
    .built sOk, .submitted sOk] ++
  (List.replicate 3 [.pop (.popped 0 sOk 0 fun _ => 0) sOk, .advance, .built sOk, .built sOk, .built sOk]).flatten ++
  [.pop (.popped 0 sOk 0 fun _ => 0) sOk]

theorem close_abandons_nothing_cancelled :
    let M := switchSystem (smallConfig false)
    let s₁ := M.after (startProcess (smallConfig false)) (startsUp ++ [.stopRequested])
    let s₂ := M.after s₁ shutsDown
    let s₃ := M.after s₂ [.advance]
    s₁.runtime.ring.submitted.length = 2 ∧ s₃.runtime.ring.submitted = [] ∧
      (∃ slot, s₃.runtime.pool.slots[0]? = some slot ∧ slot.state = .free) ∧
      ∀ e ∈ (M.after s₃ [.advance]).runtime.ring.submitted, ∀ i, e.operatesOn i = false := by
  intro M s₁ s₂ s₃
  have hreach : SwitchReach (smallConfig false) Free s₁ := System.reach_after (.init rfl) _
  have hpath : Path M Free s₁ s₂ := System.path_after s₁ shutsDown
  have hstep : M.step s₂ .advance = some s₃ := System.step_after (by decide +kernel)
  have hclosed : SwitchReach (smallConfig false) Free (M.after s₃ [.advance]) :=
    System.reach_after (.step (hpath.reach (fun _ _ _ => trivial) hreach) trivial hstep) _
  obtain ⟨hsubmitted, hfree⟩ := (close_abandons_nothing (smallConfig false)).2 s₁ s₂ .advance s₃ hreach
    (by decide +kernel) hpath hstep (by decide +kernel) (by decide +kernel)
  refine ⟨by decide +kernel, hsubmitted, hfree 0 ?_, ?_⟩
  · exact Option.isSome_iff_ne_none.mp (by decide +kernel)
  · exact (close_abandons_nothing (smallConfig false)).1 _ hclosed (by decide +kernel)

end WinTap.SwitchRuntime

import WinTap.Proof.Switch.Runtime

/-!
# The slots of the switch never alias operations

Every slot of the runtime is in order in every state of the process, whatever the ring and the driver answer. A step
works on one slot through one of the routines, or it moves entries through the ring without touching the slots.
-/

namespace WinTap.SwitchRuntime

open SwitchCore Machine

variable {i index : Nat} {strict strict' : Prop} {operation : ActiveOperation} {f : ActiveOperation → ActiveOperation}
  {slot : BufferSlot} {e : Entry} {p : Entry → Bool} {c : Config} {r r' : Runtime} {pc : Pc} {status : HResult}
  {s s' : Process} {answer : PopAnswer}

/-! ### The runtime as a whole -/

/-- How the cancellation that is on its way for a slot is recorded. -/
inductive CancelOk (i : Nat) : Option UserData → List Entry → Prop
  | none : CancelOk i none []
  | some {operation : UserData} {handle : Handle} {generation : Nat}
      (hencode : encodeCompletion i generation = .ok operation) :
    CancelOk i (some operation) [.cancel handle operation (cancelCompletionMarker ||| operation)]

theorem CancelOk.perm {cancellation : Option UserData} {entries entries' : List Entry}
    (h : CancelOk i cancellation entries) (hperm : entries'.Perm entries) : CancelOk i cancellation entries' := by
  cases h with
  | none => exact List.perm_nil.mp hperm ▸ .none
  | some hencode => exact List.perm_singleton.mp hperm ▸ .some hencode

structure RuntimeInv (c : Config) (strict : Prop) (r : Runtime) : Prop where
  length : r.pool.slots.length = c.totalDepth
  slots : ∀ i < c.totalDepth, r.SlotInv strict i
  beyond : ∀ i, c.totalDepth ≤ i → r.active i = none ∧ r.cancellations i = none ∧ r.entries i = []
  cancels : ∀ i, CancelOk i (r.cancellations i) (r.cancelEntries i)

namespace RuntimeInv

theorem start (c : Config) (strict : Prop) : RuntimeInv c strict (startRuntime c) where
  length := List.length_replicate
  slots i hi := by
    refine ⟨⟨0, .free⟩, ?_, .idle fun _ => rfl⟩
    change (List.replicate c.totalDepth (⟨0, .free⟩ : BufferSlot))[i]? = _
    rw [List.getElem?_replicate, if_pos hi]
  beyond _ _ := ⟨rfl, rfl, rfl⟩
  cancels _ := .none

theorem mono (h : RuntimeInv c strict r) (hmono : strict' → strict) : RuntimeInv c strict' r where
  length := h.length
  slots i hi := by
    obtain ⟨slot, hpool, hslot⟩ := h.slots i hi
    exact ⟨slot, hpool, hslot.mono hmono⟩
  beyond := h.beyond
  cancels := h.cancels

/-- One slot is worked on. -/
theorem onlySlot (h : RuntimeInv c strict r) (hi : i < c.totalDepth) (honly : r.OnlySlot i r')
    (hslot : r'.SlotInv strict i) : RuntimeInv c strict r' where
  length := honly.length.trans h.length
  slots j hj := by
    by_cases hji : j = i
    · exact hji ▸ hslot
    · obtain ⟨slot, hpool, hok⟩ := h.slots j hj
      refine ⟨slot, (honly.pool j hji).trans hpool, ?_⟩
      rw [honly.active j hji]
      exact hok.perm (honly.entries j hji)
  beyond j hj := by
    have hji : j ≠ i := by omega
    obtain ⟨hactive, hcancellation, hentries⟩ := h.beyond j hj
    refine ⟨(honly.active j hji).trans hactive, by rw [honly.cancellations, hcancellation], ?_⟩
    exact List.perm_nil.mp (hentries ▸ honly.entries j hji)
  cancels j := by
    rw [honly.cancellations]
    exact (h.cancels j).perm (honly.cancelEntries j)

theorem slotInv_mono (h : r.SlotInv strict i) (hmono : strict' → strict) : r.SlotInv strict' i := by
  obtain ⟨slot, hpool, hok⟩ := h
  exact ⟨slot, hpool, hok.mono hmono⟩

/-- The fields of an operation that its slot depends on. -/
structure Alike (operation operation' : ActiveOperation) : Prop where
  completion : operation'.completion = operation.completion
  handle : operation'.handle = operation.handle
  userData : operation'.userData = operation.userData
  isWrite : operation'.isWrite = operation.isWrite
  length : operation'.length = operation.length
  queued : operation'.queued = operation.queued

theorem Alike.entry {operation operation' : ActiveOperation} (h : Alike operation operation') (i : Nat) :
    operation'.entry i = operation.entry i := by
  rw [ActiveOperation.entry, ActiveOperation.entry, h.handle, h.userData, h.isWrite, h.length]

theorem Alike.slotOk (hf : ∀ operation, Alike operation (f operation)) {operation : Option ActiveOperation}
    {entries : List Entry} (h : SlotOk strict i slot operation entries) :
    SlotOk strict i slot (operation.map f) entries := by
  cases h with
  | idle hfree => exact .idle hfree
  | @built operation hmatches hqueued =>
    rw [← (hf operation).entry i]
    exact .built (hmatches.congr (hf _).completion (hf _).userData (hf _).isWrite) ((hf _).queued.trans hqueued)
  | unbuilt hmatches hloose =>
    exact .unbuilt (hmatches.congr (hf _).completion (hf _).userData (hf _).isWrite) hloose

/-- Entries move through the ring, and the operations are marked. -/
theorem relabel (h : RuntimeInv c strict r) (hf : ∀ operation, Alike operation (f operation)) (hpool : r'.pool = r.pool)
    (hactive : ∀ i, r'.active i = (r.active i).map f) (hcancellations : r'.cancellations = r.cancellations)
    (hperm : r'.ring.outstanding.Perm r.ring.outstanding) : RuntimeInv c strict r' where
  length := by rw [hpool, h.length]
  slots i hi := by
    obtain ⟨slot, hslot, hok⟩ := h.slots i hi
    refine ⟨slot, by rw [hpool, hslot], ?_⟩
    rw [hactive]
    exact (Alike.slotOk hf hok).perm (hperm.filter _)
  beyond i hi := by
    obtain ⟨hnone, hcancellation, hentries⟩ := h.beyond i hi
    refine ⟨by rw [hactive, hnone]; rfl, by rw [hcancellations, hcancellation], ?_⟩
    have hfilter := hperm.filter (Entry.operatesOn i)
    exact List.perm_nil.mp (hfilter.trans (.of_eq hentries))
  cancels i := by
    rw [hcancellations]
    exact (h.cancels i).perm (hperm.filter _)

theorem submit (h : RuntimeInv c strict r) : RuntimeInv c strict { r with ring := r.ring.submit } :=
  h.relabel (f := id) (fun _ => ⟨rfl, rfl, rfl, rfl, rfl, rfl⟩) rfl (fun _ => (congrFun Option.map_id _).symm) rfl
    r.ring.outstanding_submit

theorem markSubmitted_alike (operation : ActiveOperation) : Alike operation operation.markSubmitted := by
  unfold ActiveOperation.markSubmitted
  split <;> exact ⟨rfl, rfl, rfl, rfl, rfl, rfl⟩

theorem markDrain_alike (operation : ActiveOperation) : Alike operation operation.markDrain := by
  unfold ActiveOperation.markDrain
  split <;> exact ⟨rfl, rfl, rfl, rfl, rfl, rfl⟩

theorem markDrains (h : RuntimeInv c strict r) : RuntimeInv c strict r.markDrains :=
  h.relabel markDrain_alike rfl (fun _ => rfl) rfl (.refl _)

/-- An entry that was popped is of a slot, as the tables say. -/
inductive PoppedEntry (c : Config) (r : Runtime) (index : Nat) (e : Entry) : Prop
  | operation {i : Nat} {operation : ActiveOperation} {slot : BufferSlot} (hi : i < c.totalDepth)
      (honly : r.OnlySlot i (r.remove index)) (hpopped : Popped (r.remove index) i operation slot)
      (huserData : e.userData = operation.userData)
  | cancellation {i generation : Nat} {operation : UserData} (hi : i < c.totalDepth)
      (hcancellation : r.cancellations i = some operation)
      (hencode : encodeCompletion i generation = .ok operation)
      (huserData : e.userData = cancelCompletionMarker ||| operation)
      (hentries : ∀ j, ((r.remove index).entries j).Perm (r.entries j))
      (hcancels : ∀ j ≠ i, ((r.remove index).cancelEntries j).Perm (r.cancelEntries j))
      (hnone : (r.remove index).cancelEntries i = [])

theorem filter_remove_of_not (he : r.ring.submitted[index]? = some e) (hp : p e = false) :
    (((r.remove index).ring.outstanding).filter p).Perm (r.ring.outstanding.filter p) := by
  have hfilter := (IoRing.outstanding_remove he).filter p
  rw [List.filter_cons_of_neg (by rw [hp]; exact Bool.false_ne_true)] at hfilter
  exact hfilter.symm

/-- The only entry of a kind is popped. -/
theorem filter_remove_of_pos {e e' : Entry} (he : r.ring.submitted[index]? = some e) (hp : p e = true)
    (honly : r.ring.outstanding.filter p = [e']) : e = e' ∧ (r.remove index).ring.outstanding.filter p = [] := by
  have hfilter := (IoRing.outstanding_remove he).filter p
  rw [List.filter_cons_of_pos hp, honly] at hfilter
  have hlist := List.perm_singleton.mp hfilter.symm
  rw [List.cons.injEq] at hlist
  exact hlist

theorem popped (h : RuntimeInv c strict r) (he : r.ring.submitted[index]? = some e) : PoppedEntry c r index e := by
  have hmem : e ∈ r.ring.outstanding := List.mem_append_right _ (List.mem_of_getElem? he)
  obtain ⟨i, hi⟩ | ⟨i, hi⟩ := e.of_slot
  · have hentry : e ∈ r.entries i := List.mem_filter.mpr ⟨hmem, hi⟩
    have hlt : i < c.totalDepth := by
      by_contra hge
      rw [(h.beyond i (by omega)).2.2] at hentry
      cases hentry
    obtain ⟨slot, hpool, hok⟩ := h.slots i hlt
    generalize hentries : r.entries i = entries at hok hentry
    generalize hactive : r.active i = active at hok
    cases hok with
    | idle hfree => cases hentry
    | unbuilt hmatches hloose => cases hentry
    | @built operation hmatches hqueued =>
      obtain ⟨rfl, hnone⟩ := filter_remove_of_pos he hi hentries
      refine .operation hlt { Runtime.OnlySlot.refl i r with
        entries := fun j hj => ?_
        cancelEntries := fun j => ?_
        submitted := fun e' he' => List.mem_of_mem_eraseIdx he' } ⟨hactive, hpool, hmatches, hnone⟩
        (operation.entry_userData i)
      · exact filter_remove_of_not he (Bool.eq_false_iff.mpr fun htrue => hj (Entry.operatesOn_unique htrue hi))
      · exact filter_remove_of_not he (operation.entry_cancels i j)
  · have hcancels := h.cancels i
    have hentry : e ∈ r.cancelEntries i := List.mem_filter.mpr ⟨hmem, hi⟩
    have hlt : i < c.totalDepth := by
      by_contra hge
      rw [(h.beyond i (by omega)).2.1] at hcancels
      generalize r.cancelEntries i = entries at hcancels hentry
      cases hcancels
      cases hentry
    generalize hentries : r.cancelEntries i = entries at hcancels hentry
    generalize hcancellation : r.cancellations i = cancellation at hcancels
    cases hcancels with
    | none => cases hentry
    | some hencode =>
      obtain ⟨rfl, hnone⟩ := filter_remove_of_pos he hi hentries
      refine .cancellation hlt hcancellation hencode rfl (fun j => ?_) (fun j hj => ?_) hnone
      · exact filter_remove_of_not he rfl
      · exact filter_remove_of_not he (Bool.eq_false_iff.mpr fun htrue => hj (Entry.cancels_unique htrue hi))

end RuntimeInv

/-! ### Shutdown -/

/-- Without active operations no entry reads or writes. -/
theorem RuntimeInv.entries_of_not_anyActive (h : RuntimeInv c strict r) (hnone : r.anyActive c = false) (i : Nat) :
    r.active i = none ∧ r.entries i = [] := by
  by_cases hi : i < c.totalDepth
  · have hactive : r.active i = none := by
      rw [Runtime.anyActive, List.any_eq_false] at hnone
      exact Option.not_isSome_iff_eq_none.mp (hnone i (List.mem_range.mpr hi))
    obtain ⟨slot, hpool, hok⟩ := h.slots i hi
    refine ⟨hactive, ?_⟩
    rw [hactive] at hok
    generalize r.entries i = entries at hok
    cases hok
    rfl
  · have hbeyond := h.beyond i (by omega)
    exact ⟨hbeyond.1, hbeyond.2.2⟩

/-- Without operations and cancellations nothing is outstanding. -/
theorem RuntimeInv.outstanding_eq_nil (h : RuntimeInv c strict r) (hactive : r.anyActive c = false)
    (hcancellation : r.anyCancellation c = false) : r.ring.outstanding = [] := by
  refine List.eq_nil_iff_forall_not_mem.mpr fun e he => ?_
  obtain ⟨i, hi⟩ | ⟨i, hi⟩ := e.of_slot
  · have hentry : e ∈ r.entries i := List.mem_filter.mpr ⟨he, hi⟩
    rw [(h.entries_of_not_anyActive hactive i).2] at hentry
    cases hentry
  · have hentry : e ∈ r.cancelEntries i := List.mem_filter.mpr ⟨he, hi⟩
    have hnone : r.cancellations i = none := by
      by_cases hlt : i < c.totalDepth
      · rw [Runtime.anyCancellation, List.any_eq_false] at hcancellation
        exact Option.not_isSome_iff_eq_none.mp (hcancellation i (List.mem_range.mpr hlt))
      · exact (h.beyond i (by omega)).2.1
    have hcancels := h.cancels i
    rw [hnone] at hcancels
    generalize r.cancelEntries i = entries at hcancels hentry
    cases hcancels
    cases hentry

/-- What shutdown does to the slots: a slot is left alone, or its operation is gone and the slot is free. -/
def Released (r r' : Runtime) : Prop :=
  ∀ i, (r'.active i).isSome = (r.active i).isSome ∧ r'.pool.slots[i]? = r.pool.slots[i]? ∨
    r'.active i = none ∧ ∃ slot, r'.pool.slots[i]? = some slot ∧ slot.state = .free

structure Releases (r r' : Runtime) : Prop where
  slots : Released r r'
  inFlight : r'.operationsMayBeInFlight = r.operationsMayBeInFlight
  submitted : ∀ e ∈ r'.ring.submitted, e ∈ r.ring.submitted

theorem Releases.refl (r : Runtime) : Releases r r := ⟨fun _ => .inl ⟨rfl, rfl⟩, rfl, fun _ => id⟩

/-- The operation of a slot is given up. -/
theorem Runtime.OnlySlot.releases (honly : r.OnlySlot i r') (h : Holding r' i slot) (hfree : slot.state = .free) :
    Releases r r' where
  slots j := by
    by_cases hji : j = i
    · exact .inr ⟨hji ▸ h.active, slot, hji ▸ h.pool, hfree⟩
    · exact .inl ⟨by rw [honly.active j hji], honly.pool j hji⟩
  inFlight := honly.inFlight
  submitted := honly.submitted

/-- The slot of an operation without an entry is freed. -/
theorem Popped.release (h : Popped r i operation slot) :
    Holding ((r.setPool (r.pool.setSlot i ⟨slot.generation, .free⟩)).setActive i none) i ⟨slot.generation, .free⟩ :=
  ⟨Runtime.setActive_self .., BufferPool.setSlot_self _ h.pool, h.entries⟩

theorem retireUnqueuedOperation_spec (h : RuntimeInv c strict r) (hi : i < c.totalDepth) :
    ∃ r', r.retireUnqueuedOperation i = (.ok (), r') ∧ RuntimeInv c strict r' ∧ Releases r r' ∧
      r'.cancellations = r.cancellations := by
  unfold Runtime.retireUnqueuedOperation
  split
  · exact ⟨r, rfl, h, .refl r, rfl⟩
  rename_i operation hactive
  split
  · exact ⟨r, rfl, h, .refl r, rfl⟩
  rename_i hqueued
  obtain ⟨slot, hpool, hok⟩ := h.slots i hi
  rw [hactive] at hok
  have hpopped : Popped r i operation slot := by
    generalize hentries : r.entries i = entries at hok
    cases hok with
    | built hmatches htrue => exact absurd htrue hqueued
    | unbuilt hmatches hloose => exact ⟨hactive, hpool, hmatches, hentries⟩
  simp only [hpopped.cancel, Runtime.withPool, Except.mapError]
  have honly := (Runtime.OnlySlot.setPool r i ⟨slot.generation, .free⟩).trans (.setActive _ i none)
  exact ⟨_, rfl, h.onlySlot hi honly (hpopped.release.slotInv fun _ => rfl), honly.releases hpopped.release rfl, rfl⟩

theorem processShutdownCompletion_spec (h : RuntimeInv c strict r) (he : r.ring.submitted[index]? = some e)
    (resultCode : HResult) :
    ∃ error r', (r.remove index).processShutdownCompletion c e.userData resultCode = (.ok error, r') ∧
      RuntimeInv c strict r' ∧ (∀ e, error = some e → e.Tolerable) ∧ Releases r r' := by
  cases h.popped he with
  | @operation i operation slot hi honly hpopped huserData =>
    have hmarker : e.userData &&& cancelCompletionMarker = 0 := by
      rw [huserData]
      exact and_marker_of_lt (encodeCompletion_lt hpopped.corresponds.userData)
    have hcancel : (r.remove index).pool.cancel ⟨i, slot.generation⟩ =
        (.ok (), (r.remove index).pool.setSlot i ⟨slot.generation, .free⟩) :=
      hpopped.corresponds.completion ▸ hpopped.cancel
    unfold Runtime.processShutdownCompletion
    rw [if_neg (not_not.mpr hmarker), huserData, hpopped.validate hi]
    simp only [hcancel, Runtime.withPool, Except.mapError]
    have hreleased := (honly.trans (.setPool _ i ⟨slot.generation, .free⟩)).trans (.setActive _ i none)
    exact ⟨none, _, rfl, h.onlySlot hi hreleased (hpopped.release.slotInv fun _ => rfl), by rintro _ ⟨⟩,
      hreleased.releases hpopped.release rfl⟩
  | @cancellation i generation operation hi hcancellation hencode huserData hentries hcancels hnone =>
    have hlt := encodeCompletion_lt hencode
    have hrecorded : (r.remove index).cancellations i = some operation := hcancellation
    unfold Runtime.processShutdownCompletion
    simp only [huserData, marker_or_and_rest hlt, decodeCompletion_encode hencode]
    rw [if_pos (marker_or_and_marker operation), if_neg (Nat.not_le.mpr hi), if_neg (not_not.mpr hrecorded)]
    refine ⟨_, _, rfl, ⟨h.length, fun j hj => ?_, fun j hj => ?_, fun j => ?_⟩, fun error herror => ?_, ?_⟩
    · obtain ⟨slot, hpool, hok⟩ := h.slots j hj
      exact ⟨slot, hpool, hok.perm (hentries j)⟩
    · obtain ⟨hactive, hcancellation', hentries'⟩ := h.beyond j hj
      refine ⟨hactive, ?_, List.perm_nil.mp ((hentries j).trans (.of_eq hentries'))⟩
      exact (Runtime.setCancellation_of_ne _ (by omega) none).trans hcancellation'
    · by_cases hji : j = i
      · subst hji
        rw [Runtime.setCancellation_self]
        exact hnone ▸ .none
      · rw [Runtime.setCancellation_of_ne _ hji]
        exact (h.cancels j).perm (hcancels j hji)
    · split at herror <;> cases herror
      rintro _ _ ⟨⟩
    · exact ⟨fun _ => .inl ⟨rfl, rfl⟩, rfl, fun e' he' => List.mem_of_mem_eraseIdx he'⟩

/-- A cancellation is queued for an operation that has none on its way. -/
theorem queueCancellation_spec (h : RuntimeInv c strict r) (hi : i < c.totalDepth)
    (hwants : r.wantsCancellation i = some operation) : RuntimeInv c strict (r.queueCancellation i operation) := by
  unfold Runtime.wantsCancellation at hwants
  split at hwants
  · cases hwants
  rename_i active hactive
  split at hwants
  · cases hwants
  rename_i hchecks
  cases hwants
  have hnone : r.cancellations i = none := by
    rw [Bool.or_eq_true, not_or] at hchecks
    exact Option.not_isSome_iff_eq_none.mp hchecks.2
  obtain ⟨slot, hpool, hok⟩ := h.slots i hi
  have hmatches : Matches i operation slot := by
    rw [hactive] at hok
    generalize r.entries i = entries at hok
    cases hok <;> assumption
  have hslot : operation.userData &&& slotMask = i := by
    have hdecode := decodeCompletion_encode hmatches.userData
    unfold decodeCompletion at hdecode
    split at hdecode
    · cases hdecode
    dsimp only at hdecode
    split at hdecode
    · cases hdecode
    · exact congrArg Prod.fst (Except.ok.inj hdecode)
  have hbuilt := r.ring.outstanding_build (.cancel operation.handle operation.userData
    (cancelCompletionMarker ||| operation.userData))
  -- the new entry reads and writes nothing, and is the only one that cancels an operation of the slot
  have hentries : ∀ j, ((r.queueCancellation i operation).entries j).Perm (r.entries j) := fun j =>
    hbuilt.filter (Entry.operatesOn j)
  refine ⟨h.length, fun j hj => ?_, fun j hj => ?_, fun j => ?_⟩
  · obtain ⟨slot, hpool, hok⟩ := h.slots j hj
    exact ⟨slot, hpool, hok.perm (hentries j)⟩
  · obtain ⟨hactive, hcancellation, hentries'⟩ := h.beyond j hj
    refine ⟨hactive, ?_, List.perm_nil.mp ((hentries j).trans (.of_eq hentries'))⟩
    exact (Runtime.setCancellation_of_ne _ (by omega) _).trans hcancellation
  · have hfilter := hbuilt.filter (Entry.cancels j)
    by_cases hji : j = i
    · subst hji
      have hcancelled : Entry.cancels j (.cancel operation.handle operation.userData
          (cancelCompletionMarker ||| operation.userData)) = true := decide_eq_true hslot
      rw [List.filter_cons_of_pos hcancelled] at hfilter
      have hcancels := h.cancels j
      rw [hnone] at hcancels
      rw [Runtime.queueCancellation, Runtime.setCancellation_self]
      have hempty : r.ring.outstanding.filter (Entry.cancels j) = [] := by
        change r.cancelEntries j = []
        generalize r.cancelEntries j = entries at hcancels
        cases hcancels
        rfl
      rw [hempty] at hfilter
      exact (CancelOk.some hmatches.userData).perm hfilter
    · rw [List.filter_cons_of_neg fun htrue => hji ((of_decide_eq_true htrue).symm.trans hslot)] at hfilter
      rw [Runtime.queueCancellation, Runtime.setCancellation_of_ne _ hji]
      exact (h.cancels j).perm hfilter

/-! ### The process -/

/-- No routine has failed, and nothing has been cancelled. -/
def Running (errors : List RuntimeError) (r : Runtime) : Prop := errors = [] ∧ ∀ i, r.cancellations i = none

theorem Running.congr {errors : List RuntimeError} (h : Running errors r) (hsame : r'.cancellations = r.cancellations) :
    Running errors r' := ⟨h.1, hsame ▸ h.2⟩

/-- What is known where the process is. -/
def PcOk (errors : List RuntimeError) (r : Runtime) : Pc → Prop
  | .post slot => Running errors r ∧ ∀ i, slot ≤ i → r.active i = none
  | .submitFirst => Running errors r
  | .legacy | .legacyWait | .legacyBatch | .legacySubmit | .adaptivePop true _ | .adaptiveSubmit _ | .postIdle _
  | .submitIdle => Running errors r ∧ r.operationsMayBeInFlight = true
  | .enter | .adaptive | .adaptivePop false _ | .adaptiveIdle | .armFirst | .armSecond _ | .asleep =>
    Running errors r ∧ r.operationsMayBeInFlight = true ∧ r.ring.queue = []
  | .drain | .drainWait | .cancelling | .queueCancellations _ _ _ | .submitCancellations | .reap | .reapWait =>
    r.operationsMayBeInFlight = true
  | .shutdown | .retire _ | .submitRemaining | .returned | .aborted => True
  | .closed => ∀ e ∈ r.ring.submitted, ∀ i, e.operatesOn i = false

/-- Nothing is submitted without the flag that says so. -/
def Flagged (r : Runtime) : Prop := r.operationsMayBeInFlight = false → r.ring.submitted = []

structure ProcessInv (c : Config) (s : Process) : Prop where
  runtime : RuntimeInv c (s.errors = []) s.runtime
  flagged : Flagged s.runtime
  pc : PcOk s.errors s.runtime s.pc
  tolerable : ∀ e ∈ s.errors, e.Tolerable
  reported : ∀ e, s.cancellationError = some e → e.Tolerable

theorem Flagged.of_subset (h : Flagged r) (hinFlight : r'.operationsMayBeInFlight = r.operationsMayBeInFlight)
    (hsubmitted : ∀ e ∈ r'.ring.submitted, e ∈ r.ring.submitted) : Flagged r' := by
  intro hfalse
  refine List.eq_nil_iff_forall_not_mem.mpr fun e he => ?_
  have hmem := hsubmitted e he
  rw [h (hinFlight ▸ hfalse)] at hmem
  cases hmem

theorem Flagged.of_true (h : r.operationsMayBeInFlight = true) : Flagged r := fun hfalse => by
  rw [h] at hfalse
  cases hfalse

theorem Process.call_runtime {α : Type} (s : Process) (called : Called α) (failed : Pc) (next : α → Pc) :
    (s.call called failed next).runtime = called.2 := by
  obtain ⟨result, r⟩ := called
  cases result <;> rfl

namespace ProcessInv

variable {α : Type} {called : Called α} {failed : Pc} {next : α → Pc}

theorem goto (h : ProcessInv c s) (hruntime : RuntimeInv c (s.errors = []) r') (hflagged : Flagged r')
    (hpc : PcOk s.errors r' pc) : ProcessInv c (s.goto pc r') :=
  ⟨hruntime, hflagged, hpc, h.tolerable, h.reported⟩

theorem throw (h : ProcessInv c s) {e : RuntimeError} (hruntime : RuntimeInv c False r') (hflagged : Flagged r')
    (htolerable : e.Tolerable) (hpc : ∀ errors, PcOk errors r' pc) :
    ProcessInv c (s.throw e r' pc) where
  runtime := hruntime.mono fun hnil => List.append_ne_nil_of_right_ne_nil _ (List.cons_ne_nil e []) hnil
  flagged := hflagged
  pc := hpc _
  tolerable e' he' := by
    obtain hearlier | hlast := List.mem_append.mp he'
    · exact h.tolerable e' hearlier
    · exact List.mem_singleton.mp hlast ▸ htolerable
  reported := h.reported

/-- The calls of a process return. -/
theorem call (h : ProcessInv c s)
    (hok : ∀ a r', called = (.ok a, r') →
      RuntimeInv c (s.errors = []) r' ∧ Flagged r' ∧ PcOk s.errors r' (next a))
    (herror : ∀ e r', called = (.error e, r') → RuntimeInv c False r' ∧ Flagged r' ∧ e.Tolerable)
    (hfailed : ∀ errors r', PcOk errors r' failed) : ProcessInv c (s.call called failed next) := by
  obtain ⟨result, r'⟩ := called
  cases result with
  | ok a =>
    obtain ⟨hruntime, hflagged, hpc⟩ := hok a r' rfl
    exact h.goto hruntime hflagged hpc
  | error e =>
    obtain ⟨hruntime, hflagged, htolerable⟩ := herror e r' rfl
    exact h.throw hruntime hflagged htolerable fun errors => hfailed errors r'

/-- A routine has worked on a slot. -/
theorem call_outcome (h : ProcessInv c s) (hi : i < c.totalDepth) (houtcome : Outcome i s.runtime called)
    (hnext : ∀ a r', s.runtime.OnlySlot i r' → PcOk s.errors r' (next a))
    (hfailed : ∀ errors r', PcOk errors r' failed) : ProcessInv c (s.call called failed next) := by
  have hflagged : ∀ r', s.runtime.OnlySlot i r' → Flagged r' := fun r' honly =>
    h.flagged.of_subset honly.inFlight honly.submitted
  cases houtcome with
  | ok honly hslot =>
    exact h.goto (h.runtime.onlySlot hi honly (RuntimeInv.slotInv_mono hslot fun _ => trivial)) (hflagged _ honly)
      (hnext _ _ honly)
  | error honly hslot htolerable =>
    exact h.throw ((h.runtime.mono False.elim).onlySlot hi honly hslot) (hflagged _ honly) htolerable
      fun errors => hfailed errors _

theorem submit (h : ProcessInv c s) {next : Unit → Pc}
    (hnext : ∀ r', r'.operationsMayBeInFlight = true → r'.ring.queue = [] →
      r'.cancellations = s.runtime.cancellations → PcOk s.errors r' (next ()))
    (hfailed : ∀ errors r', PcOk errors r' failed) :
    ProcessInv c (s.call (s.runtime.submitPendingOperations status) failed next) := by
  unfold Runtime.submitPendingOperations checkHr
  by_cases hstatus : status = sOk
  · rw [if_pos hstatus]
    refine h.goto ?_ (.of_true rfl) (hnext _ rfl rfl rfl)
    exact h.runtime.relabel RuntimeInv.markSubmitted_alike rfl (fun _ => rfl) rfl s.runtime.ring.outstanding_submit
  · rw [if_neg hstatus]
    exact h.throw (h.runtime.mono False.elim) h.flagged nofun fun errors => hfailed errors _

theorem wait (h : ProcessInv c s) (hinFlight : s.runtime.operationsMayBeInFlight = true) {taken : Bool}
    {next : Bool → Pc} (hnext : ∀ b r', r'.operationsMayBeInFlight = true → r'.cancellations = s.runtime.cancellations →
      PcOk s.errors r' (next b)) (hfailed : ∀ errors r', PcOk errors r' failed) :
    ProcessInv c (s.call (s.runtime.waitForCompletion status taken) failed next) := by
  unfold Runtime.waitForCompletion checkHr
  split
  · cases taken with
    | true => exact h.goto h.runtime.submit (.of_true hinFlight) (hnext _ _ hinFlight rfl)
    | false => exact h.goto h.runtime h.flagged (hnext _ _ hinFlight rfl)
  · by_cases hstatus : status = sOk
    · rw [if_pos hstatus]
      exact h.goto h.runtime.submit (.of_true hinFlight) (hnext _ _ hinFlight rfl)
    · rw [if_neg hstatus]
      exact h.throw (h.runtime.mono False.elim) h.flagged nofun fun errors => hfailed errors _

/-- The pop of a run loop. -/
theorem popAndProcess (h : ProcessInv c s) (hrunning : Running s.errors s.runtime) {built : HResult} {empty : Pc}
    {next : Option Bool → Pc} (hstep : popAndProcess c s answer built empty next = some s')
    (hempty : PcOk s.errors s.runtime empty)
    (hnext : ∀ processed r', r'.operationsMayBeInFlight = s.runtime.operationsMayBeInFlight →
      r'.cancellations = s.runtime.cancellations → PcOk s.errors r' (next processed)) : ProcessInv c s' := by
  unfold WinTap.SwitchRuntime.popAndProcess at hstep
  cases answer with
  | empty =>
    cases hstep
    exact h.goto h.runtime h.flagged hempty
  | failed status =>
    cases hstep
    exact h.throw (h.runtime.mono False.elim) h.flagged nofun fun _ => trivial
  | popped index resultCode information contents =>
    dsimp only at hstep
    split at hstep
    swap
    · cases hstep
    rename_i e switch he hswitch
    cases hstep
    cases h.runtime.popped he with
    | cancellation hi hcancellation =>
      rw [hrunning.2] at hcancellation
      cases hcancellation
    | operation hi honly hpopped huserData =>
      have houtcome := (processCompletion_outcome hi hpopped switch
        ⟨e.userData, resultCode, information, contents⟩ huserData built).after honly
      have hcalled : ProcessInv c (s.call _ .shutdown next) := h.call_outcome hi houtcome
        (fun processed r' honly' => hnext processed r' honly'.inFlight honly'.cancellations) fun _ _ => trivial
      exact ⟨hcalled.runtime, hcalled.flagged, hcalled.pc, hcalled.tolerable, hcalled.reported⟩

/-- The pop of shutdown. -/
theorem popAndReap (h : ProcessInv c s) (hinFlight : s.runtime.operationsMayBeInFlight = true) {empty next : Pc}
    (hstep : popAndReap c s answer empty next = some s') (hempty : PcOk s.errors s.runtime empty)
    (hnext : ∀ r', r'.operationsMayBeInFlight = true → PcOk s.errors r' next) : ProcessInv c s' := by
  unfold WinTap.SwitchRuntime.popAndReap at hstep
  cases answer with
  | empty =>
    cases hstep
    exact h.goto h.runtime h.flagged hempty
  | failed status =>
    cases hstep
    exact h.throw (h.runtime.mono False.elim) h.flagged nofun fun _ => trivial
  | popped index resultCode information contents =>
    dsimp only at hstep
    split at hstep
    swap
    · cases hstep
    rename_i e he
    obtain ⟨error, r', hresult, hruntime, htolerable, hreleases⟩ :=
      processShutdownCompletion_spec h.runtime he resultCode
    rw [hresult] at hstep
    cases hstep
    have hinFlight' : r'.operationsMayBeInFlight = true := hreleases.inFlight.trans hinFlight
    refine ⟨hruntime, .of_true hinFlight', hnext r' hinFlight', h.tolerable, fun e' he' => ?_⟩
    cases hcancelled : s.cancellationError with
    | none =>
      refine htolerable e' ?_
      rw [← he']
      simp only [hcancelled, Option.none_or]
    | some earlier =>
      refine h.reported e' ?_
      rw [← he']
      simp only [hcancelled, Option.some_or]

theorem start (c : Config) : ProcessInv c (startProcess c) where
  runtime := .start c _
  flagged _ := rfl
  pc := ⟨⟨rfl, fun _ => rfl⟩, fun _ _ => rfl⟩
  tolerable := nofun
  reported := nofun

/-- A slot without an operation can be read into, as long as nothing has failed. -/
theorem postRead (h : ProcessInv c s) (herrors : s.errors = []) (hi : i < c.totalDepth)
    (hactive : s.runtime.active i = none) (status : HResult) :
    Outcome i s.runtime (s.runtime.postRead c i status) := by
  obtain ⟨slot, hpool, hok⟩ := h.runtime.slots i hi
  rw [hactive] at hok
  generalize hentries : s.runtime.entries i = entries at hok
  cases hok with
  | idle hfree =>
    obtain ⟨generation, state⟩ := slot
    cases hfree herrors
    exact postRead_outcome hi ⟨hactive, hpool, hentries⟩ status

variable {answer : Answer}

theorem stepStart (h : ProcessInv c s) (hstep : stepStart c s answer = some s') : ProcessInv c s' := by
  have hpc := h.pc
  unfold WinTap.SwitchRuntime.stepStart at hstep
  dsimp only at hstep
  split at hstep
  · rename_i slot status hat
    rw [hat] at hpc
    obtain ⟨hrunning, hunposted⟩ := hpc
    split at hstep <;> cases hstep
    · exact h.goto h.runtime h.flagged hrunning
    · rename_i hlt
      refine h.call_outcome (by omega) (h.postRead hrunning.1 (by omega) (hunposted slot (Nat.le_refl _)) status) ?_
        fun _ _ => trivial
      intro _ r' honly
      refine ⟨hrunning.congr honly.cancellations, fun i hi => ?_⟩
      rw [honly.active i (by omega)]
      exact hunposted i (by omega)
  · rename_i hat
    rw [hat] at hpc
    cases hstep
    refine h.submit ?_ fun _ _ => trivial
    intro r' hinFlight hqueue hcancellations
    exact ⟨hpc.congr hcancellations, hinFlight, hqueue⟩
  · rename_i hat
    rw [hat] at hpc
    split at hstep <;> cases hstep
    · exact h.throw (h.runtime.mono False.elim) h.flagged nofun fun _ => trivial
    · refine ⟨h.runtime, h.flagged, ?_, h.tolerable, h.reported⟩
      change PcOk _ _ (if _ then _ else _)
      split
      · exact hpc
      · exact ⟨hpc.1, hpc.2.1⟩
  · cases hstep

theorem stepLegacy (h : ProcessInv c s) (hstep : stepLegacy c s answer = some s') : ProcessInv c s' := by
  have hpc := h.pc
  unfold WinTap.SwitchRuntime.stepLegacy at hstep
  dsimp only at hstep
  split at hstep
  · cases hstep
    exact h.goto h.runtime h.flagged trivial
  · rename_i hat
    rw [hat] at hpc
    refine h.popAndProcess hpc.1 hstep hpc fun _ r' hinFlight hcancellations => ?_
    exact ⟨hpc.1.congr hcancellations, hinFlight.trans hpc.2⟩
  · rename_i hat
    rw [hat] at hpc
    cases hstep
    refine h.wait hpc.2 (fun _ r' hinFlight hcancellations => ?_) fun _ _ => trivial
    exact ⟨hpc.1.congr hcancellations, hinFlight⟩
  · rename_i hat
    rw [hat] at hpc
    refine h.popAndProcess hpc.1 hstep hpc fun _ r' hinFlight hcancellations => ?_
    exact ⟨hpc.1.congr hcancellations, hinFlight.trans hpc.2⟩
  · rename_i hat
    rw [hat] at hpc
    cases hstep
    refine h.submit (fun r' hinFlight _ hcancellations => ?_) fun _ _ => trivial
    exact ⟨hpc.1.congr hcancellations, hinFlight⟩
  · cases hstep

theorem stepAdaptive (h : ProcessInv c s) (hstep : stepAdaptive c s answer = some s') : ProcessInv c s' := by
  have hpc := h.pc
  unfold WinTap.SwitchRuntime.stepAdaptive at hstep
  dsimp only at hstep
  split at hstep
  · cases hstep
    exact h.goto h.runtime h.flagged trivial
  · rename_i hat
    rw [hat] at hpc
    cases hstep
    exact h.goto h.runtime h.flagged hpc
  · rename_i sawCompletion madeProgress _ _ hat
    rw [hat] at hpc
    -- a pass without a completion has built nothing
    have hrunning : Running s.errors s.runtime ∧ s.runtime.operationsMayBeInFlight = true := by
      cases sawCompletion
      · exact ⟨hpc.1, hpc.2.1⟩
      · exact hpc
    refine h.popAndProcess hrunning.1 hstep ?_ fun _ r' hinFlight hcancellations => ?_
    · cases sawCompletion <;> exact hpc
    · exact ⟨hrunning.1.congr hcancellations, hinFlight.trans hrunning.2⟩
  · rename_i madeProgress _ hat
    rw [hat] at hpc
    cases hstep
    refine h.submit (fun r' hinFlight hqueue hcancellations => ?_) fun _ _ => trivial
    have hsettled : Running s.errors r' ∧ r'.operationsMayBeInFlight = true ∧ r'.ring.queue = [] :=
      ⟨hpc.1.congr hcancellations, hinFlight, hqueue⟩
    cases madeProgress <;> exact hsettled
  · rename_i expired hat
    rw [hat] at hpc
    cases hstep
    refine h.goto h.runtime h.flagged ?_
    cases expired <;> exact hpc
  · rename_i slot status hat
    rw [hat] at hpc
    split at hstep
    · cases hstep
      exact h.goto h.runtime h.flagged hpc
    rename_i hlt
    split at hstep <;> cases hstep
    · exact h.goto h.runtime h.flagged hpc
    · rename_i hactive
      have hnone : s.runtime.active slot = none := Option.not_isSome_iff_eq_none.mp hactive
      refine h.call_outcome (by omega) (h.postRead hpc.1.1 (by omega) hnone status) ?_ fun _ _ => trivial
      intro _ r' honly
      exact ⟨hpc.1.congr honly.cancellations, honly.inFlight.trans hpc.2⟩
  · rename_i hat
    rw [hat] at hpc
    cases hstep
    refine h.submit (fun r' hinFlight hqueue hcancellations => ?_) fun _ _ => trivial
    exact ⟨hpc.1.congr hcancellations, hinFlight, hqueue⟩
  · cases hstep

/-- Only the waits of the endpoints are changed. -/
theorem setWaits (h : RuntimeInv c strict r) (waits : Option AdaptiveWait × Option AdaptiveWait) :
    RuntimeInv c strict { r with waits := waits } := ⟨h.length, h.slots, h.beyond, h.cancels⟩

theorem submitAdaptiveWait_error {wait : Option AdaptiveWait} {interest : Nat} {answer : WaitAnswer} {e : RuntimeError}
    (h : (submitAdaptiveWait wait interest answer).1 = .error e) : e.Tolerable := by
  unfold submitAdaptiveWait at h
  cases answer <;> dsimp only at h
  all_goals try split at h
  all_goals cases h
  all_goals exact nofun

theorem stepWaiting (h : ProcessInv c s) (hstep : stepWaiting c s answer = some s') : ProcessInv c s' := by
  have hpc := h.pc
  unfold WinTap.SwitchRuntime.stepWaiting at hstep
  dsimp only at hstep
  split at hstep
  · rename_i answer hat
    rw [hat] at hpc
    cases hstep
    refine h.call (fun ready r' hcalled => ?_) (fun e r' hcalled => ?_) fun _ _ => trivial
    · cases congrArg Prod.snd hcalled
      exact ⟨setWaits h.runtime _, h.flagged, hpc⟩
    · cases congrArg Prod.snd hcalled
      exact ⟨setWaits (h.runtime.mono False.elim) _, h.flagged, submitAdaptiveWait_error (congrArg Prod.fst hcalled)⟩
  · rename_i immediatelyReady answer hat
    rw [hat] at hpc
    cases hstep
    refine h.call (fun ready r' hcalled => ?_) (fun e r' hcalled => ?_) fun _ _ => trivial
    · cases congrArg Prod.snd hcalled
      refine ⟨setWaits h.runtime _, h.flagged, ?_⟩
      split
      · exact ⟨hpc.1, hpc.2.1⟩
      · exact hpc
    · cases congrArg Prod.snd hcalled
      exact ⟨setWaits (h.runtime.mono False.elim) _, h.flagged, submitAdaptiveWait_error (congrArg Prod.fst hcalled)⟩
  · cases hstep
    exact h
  · rename_i hat
    rw [hat] at hpc
    cases hstep
    exact h.goto h.runtime h.flagged hpc
  · cases hstep
    exact h.throw (h.runtime.mono False.elim) h.flagged nofun fun _ => trivial
  · rename_i hat
    rw [hat] at hpc
    cases hstep
    exact h.goto (setWaits h.runtime _) h.flagged ⟨hpc.1, hpc.2.1⟩
  · cases hstep
    exact h.throw (setWaits (h.runtime.mono False.elim) _) h.flagged nofun fun _ => trivial
  · cases hstep

theorem stepShutdown (h : ProcessInv c s) (hstep : stepShutdown c s answer = some s') : ProcessInv c s' := by
  have hpc := h.pc
  unfold WinTap.SwitchRuntime.stepShutdown at hstep
  dsimp only at hstep
  split at hstep
  · rename_i message hat
    cases hstep
    refine ⟨setWaits (setWaits h.runtime _) _, h.flagged, trivial, h.tolerable, fun e he => ?_⟩
    obtain ⟨text, -, rfl⟩ := Option.map_eq_some_iff.mp he
    exact nofun
  · rename_i slot hat
    split at hstep <;> cases hstep
    · exact h.goto h.runtime.markDrains h.flagged trivial
    · rename_i hlt
      obtain ⟨r', hretired, hruntime, hreleases, -⟩ :=
        retireUnqueuedOperation_spec h.runtime (by omega : slot < c.totalDepth)
      rw [hretired]
      exact h.goto hruntime (h.flagged.of_subset hreleases.inFlight hreleases.submitted) trivial
  · cases hstep
    exact h.submit (fun r' hinFlight _ _ => hinFlight) fun _ _ => trivial
  · rename_i hat
    rw [hat] at hpc
    split at hstep
    · exact h.popAndReap hpc hstep hpc fun r' hinFlight => hinFlight
    · cases hstep
      exact h.goto h.runtime h.flagged hpc
  · rename_i hat
    rw [hat] at hpc
    cases hstep
    exact h.wait hpc (fun _ r' hinFlight _ => hinFlight) fun _ _ => trivial
  · cases hstep

theorem stepCancelling (h : ProcessInv c s) (hstep : stepCancelling c s answer = some s') : ProcessInv c s' := by
  have hpc := h.pc
  unfold WinTap.SwitchRuntime.stepCancelling at hstep
  dsimp only at hstep
  split at hstep
  · rename_i hat
    rw [hat] at hpc
    split at hstep <;> cases hstep
    · exact h.goto h.runtime h.flagged hpc
    · rename_i hdone
      rw [Bool.not_eq_true, Bool.or_eq_false_iff] at hdone
      have houtstanding := h.runtime.outstanding_eq_nil hdone.1 hdone.2
      have hflagged : Flagged { s.runtime with operationsMayBeInFlight := false } := fun _ =>
        (List.append_eq_nil_iff.mp houtstanding).2
      have hruntime : ∀ {strict : Prop}, RuntimeInv c strict s.runtime →
          RuntimeInv c strict { s.runtime with operationsMayBeInFlight := false } :=
        fun h => ⟨h.length, h.slots, h.beyond, h.cancels⟩
      refine h.call (fun _ r' hcalled => ?_) (fun e r' hcalled => ?_) fun _ _ => trivial
      · cases congrArg Prod.snd hcalled
        exact ⟨hruntime h.runtime, hflagged, trivial⟩
      · cases congrArg Prod.snd hcalled
        refine ⟨hruntime (h.runtime.mono False.elim), hflagged, ?_⟩
        have hreported := congrArg Prod.fst hcalled
        cases hcancelled : s.cancellationError with
        | none =>
          rw [hcancelled] at hreported
          cases hreported
        | some error =>
          rw [hcancelled] at hreported
          cases hreported
          exact h.reported e hcancelled
  · rename_i slot count queued status hat
    rw [hat] at hpc
    split at hstep
    · cases hstep
      refine h.goto h.runtime h.flagged ?_
      cases queued <;> exact hpc
    rename_i hlt
    split at hstep
    · cases hstep
      exact h.goto h.runtime h.flagged hpc
    rename_i operation hwants
    split at hstep
    · cases hstep
      exact h.goto h.runtime h.flagged hpc
    split at hstep <;> cases hstep
    · rename_i e hcheck
      refine h.throw (h.runtime.mono False.elim) h.flagged ?_ fun _ => trivial
      unfold checkHr at hcheck
      split at hcheck <;> cases hcheck
      exact nofun
    · have hruntime := queueCancellation_spec h.runtime (by omega : slot < c.totalDepth) hwants
      exact h.goto hruntime (.of_true hpc) hpc
  · rename_i status hat
    rw [hat] at hpc
    split at hstep <;> cases hstep
    · rename_i e hcheck
      refine h.throw (h.runtime.mono False.elim) h.flagged ?_ fun _ => trivial
      unfold checkHr at hcheck
      split at hcheck <;> cases hcheck
      exact nofun
    · exact h.goto h.runtime.submit (.of_true hpc) hpc
  · rename_i hat
    rw [hat] at hpc
    exact h.popAndReap hpc hstep hpc fun r' hinFlight => hinFlight
  · rename_i hat
    rw [hat] at hpc
    cases hstep
    exact h.wait hpc (fun _ r' hinFlight _ => hinFlight) fun _ _ => trivial
  · cases hstep
    refine h.goto h.runtime h.flagged ?_
    split
    · trivial
    · rename_i hdropped
      intro e he i
      rw [Bool.and_eq_true, not_and_or, Bool.not_eq_true, Bool.not_eq_true] at hdropped
      obtain hfalse | hnone := hdropped
      · rw [h.flagged hfalse] at he
        cases he
      · by_contra hoperates
        have hentry : e ∈ s.runtime.entries i :=
          List.mem_filter.mpr ⟨List.mem_append_right _ he, Bool.not_eq_false _ ▸ hoperates⟩
        rw [(h.runtime.entries_of_not_anyActive hnone i).2] at hentry
        cases hentry
  · cases hstep

theorem step (h : ProcessInv c s) (hstep : stepProcess c s answer = some s') : ProcessInv c s' := by
  unfold stepProcess at hstep
  split at hstep
  all_goals first
    | exact h.stepStart hstep
    | exact h.stepLegacy hstep
    | exact h.stepAdaptive hstep
    | exact h.stepWaiting hstep
    | exact h.stepShutdown hstep
    | exact h.stepCancelling hstep
    | cases hstep

end ProcessInv

theorem SwitchReach.inv {ok : Process → Answer → Prop} (h : SwitchReach c ok s) : ProcessInv c s := by
  refine h.invariant (fun s hinit => ?_) fun s answer s' _ hinv _ hstep => hinv.step hstep
  obtain rfl : s = startProcess c := hinit
  exact .start c

/-- In every state of the process a slot has at most one operation that was built and not popped, and its active
operation is that one. While nothing has failed, the pool and the active operations agree on every slot. Of the pool
calls only `begin_read` fails, and only when the generations of a slot are used up. -/
theorem slots_never_alias {s : Process} (h : SwitchReach c Free s) :
    (∀ i, (s.runtime.entries i).length ≤ 1) ∧
    (∀ i e, e ∈ s.runtime.entries i → ∃ operation, s.runtime.active i = some operation ∧
      operation.userData = e.userData ∧ decodeCompletion e.userData = .ok (i, operation.completion.generation) ∧
      operation.queued = true) ∧
    (s.errors = [] → ∀ i < c.totalDepth, ∃ slot, s.runtime.pool.slots[i]? = some slot ∧
      (s.runtime.active i = none ↔ slot.state = .free) ∧
      ((∃ operation, s.runtime.active i = some operation ∧ operation.isWrite = false) ↔ slot.state = .readPending) ∧
      ((∃ operation, s.runtime.active i = some operation ∧ operation.isWrite = true) ↔
        slot.state = .writePending 1) ∧
      ∀ operation, s.runtime.active i = some operation → operation.completion = ⟨i, slot.generation⟩) ∧
    ∀ message error, .pool message error ∈ s.errors → error = .generationExhausted := by
  have hinv := SwitchReach.inv h
  have hslot : ∀ i, s.runtime.entries i = [] ∨ ∃ slot operation, s.runtime.active i = some operation ∧
      Matches i operation slot ∧ operation.queued = true ∧ s.runtime.entries i = [operation.entry i] := by
    intro i
    by_cases hi : i < c.totalDepth
    · obtain ⟨slot, hpool, hok⟩ := hinv.runtime.slots i hi
      generalize hentries : s.runtime.entries i = entries at hok ⊢
      generalize hactive : s.runtime.active i = active at hok ⊢
      cases hok with
      | idle hfree => exact .inl rfl
      | built hmatches hqueued => exact .inr ⟨slot, _, rfl, hmatches, hqueued, rfl⟩
      | unbuilt hmatches hloose => exact .inl rfl
    · exact .inl (hinv.runtime.beyond i (by omega)).2.2
  refine ⟨fun i => ?_, fun i e he => ?_, fun herrors i hi => ?_, fun message error hmem => ?_⟩
  · obtain hentries | ⟨slot, operation, -, -, -, hentries⟩ := hslot i <;> rw [hentries]
    · exact Nat.zero_le _
    · exact Nat.le_refl _
  · obtain hentries | ⟨slot, operation, hactive, hmatches, hqueued, hentries⟩ := hslot i <;> rw [hentries] at he
    · cases he
    · cases List.mem_singleton.mp he
      refine ⟨operation, hactive, (operation.entry_userData i).symm, ?_, hqueued⟩
      rw [operation.entry_userData, hmatches.completion]
      exact decodeCompletion_encode hmatches.userData
  · obtain ⟨slot, hpool, hok⟩ := hinv.runtime.slots i hi
    refine ⟨slot, hpool, ?_⟩
    generalize s.runtime.entries i = entries at hok
    generalize s.runtime.active i = active at hok
    cases hok with
    | idle hfree =>
      rw [hfree herrors]
      simp
    | unbuilt hmatches hloose => exact absurd herrors hloose
    | @built operation hmatches hqueued =>
      rw [hmatches.state]
      cases hwrite : operation.isWrite <;> simp [hwrite, hmatches.completion]
  · exact hinv.tolerable _ hmem message error rfl

/-- Two slots, one for each endpoint. -/
def smallConfig (adaptivePolling : Bool) : Config where
  totalDepth := 2
  frameMaximum := 1514
  adaptivePolling := adaptivePolling
  first := ⟨1, 10⟩
  second := ⟨2, 20⟩
  positive := by decide
  even := by decide
  fits := by decide

/-- `start` without a failure. -/
def startsUp : List Answer := [.built sOk, .built sOk, .built sOk, .submitted sOk, .advance]

/-- A frame to all stations is passed on from the first endpoint to the second. -/
theorem slots_never_alias_forwarding :
    let s := (switchSystem (smallConfig false)).after (startProcess (smallConfig false))
      (startsUp ++ [.pop (.popped 0 sOk 60 fun i => if i < 6 then 0xff else 2) sOk])
    s.runtime.ring = ⟨[.write 20 0 60 (2 ^ 31)], [.read 20 1 1514 (2 ^ 31 + 1)]⟩ ∧
      (s.runtime.entries 0).length ≤ 1 ∧ (s.runtime.entries 1).length ≤ 1 := by
  intro s
  have hreach : SwitchReach (smallConfig false) Free s := System.reach_after (.init rfl) _
  exact ⟨by decide +kernel, (slots_never_alias hreach).1 0, (slots_never_alias hreach).1 1⟩

end WinTap.SwitchRuntime

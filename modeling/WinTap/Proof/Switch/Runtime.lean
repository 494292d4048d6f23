import Mathlib.Data.List.Perm.Basic
import Mathlib.Data.Nat.Bitwise
import WinTap.Proof.Switch.BufferPool
import WinTap.Switch.Process

/-!
# The slots of the runtime

What the routines of the runtime do to a slot. The pool, the table of active operations and the ring each know
something of a slot; `SlotOk` says how the three fit together. A slot without an active operation has no entry in the
ring, and a slot with one has the entry that the operation was built with, or none where building it has failed. Every
routine works on one slot and leaves it in order, and the others alone.

After an error a slot may stay taken in the pool without an operation; as long as there was none, `strict` holds and it
does not.
-/

namespace WinTap.SwitchRuntime

open SwitchCore

variable {slot : BufferSlot} {generation i j : Nat} {userData : UserData} {e : Entry} {strict : Prop}
  {operation : ActiveOperation} {status : HResult}

/-! ### The identity of an operation -/

theorem encodeCompletion_ok {slot generation : Nat} (h : encodeCompletion slot generation = .ok userData) :
    slot < 2 ^ slotBits ∧ 0 < generation ∧ generation < 2 ^ generationBits ∧
      userData = 2 ^ slotBits * generation + slot := by
  unfold encodeCompletion at h
  split at h
  · cases h
  rename_i hslot
  split at h
  · cases h
  rename_i hgeneration
  cases h
  have hlt : slot < 2 ^ slotBits := by
    rw [slotMask] at hslot
    have := Nat.two_pow_pos slotBits
    omega
  rw [generationMask] at hgeneration
  have := Nat.two_pow_pos generationBits
  refine ⟨hlt, by omega, by omega, ?_⟩
  rw [Nat.or_comm, generationShift, ← Nat.shiftLeft_add_eq_or_of_lt hlt, Nat.shiftLeft_eq, Nat.mul_comm]

theorem encodeCompletion_lt {slot generation : Nat} (h : encodeCompletion slot generation = .ok userData) :
    userData < cancelCompletionMarker := by
  obtain ⟨hslot, -, hgeneration, rfl⟩ := encodeCompletion_ok h
  change slot < 2 ^ 31 at hslot
  change generation < 2 ^ 32 at hgeneration
  exact (by omega : 2 ^ 31 * generation + slot < 2 ^ 63)

theorem and_marker_of_lt (h : userData < cancelCompletionMarker) : userData &&& cancelCompletionMarker = 0 := by
  rw [cancelCompletionMarker, Nat.and_two_pow, Nat.testBit_lt_two_pow h]
  rfl

theorem marker_or_and_marker (userData : UserData) :
    (cancelCompletionMarker ||| userData) &&& cancelCompletionMarker ≠ 0 := by
  rw [cancelCompletionMarker, Nat.and_two_pow, Nat.testBit_or, Nat.testBit_two_pow_self]
  simp

theorem marker_or_and_rest (h : userData < cancelCompletionMarker) :
    (cancelCompletionMarker ||| userData) &&& cancelCompletionRest = userData := by
  have hadd : 2 ^ 63 * 1 + userData = 2 ^ 63 * 1 ||| userData := Nat.two_pow_add_eq_or_of_lt h 1
  rw [cancelCompletionRest, Nat.and_two_pow_sub_one_eq_mod, cancelCompletionMarker, ← Nat.mul_one (2 ^ 63), ← hadd,
    Nat.mul_one, Nat.add_mod_left]
  exact Nat.mod_eq_of_lt h

theorem decodeCompletion_encode {slot generation : Nat} (h : encodeCompletion slot generation = .ok userData) :
    decodeCompletion userData = .ok (slot, generation) := by
  have hlt := encodeCompletion_lt h
  obtain ⟨hslot, hpos, hgeneration, rfl⟩ := encodeCompletion_ok h
  have hlow : (2 ^ slotBits * generation + slot) &&& slotMask = slot := by
    rw [slotMask, Nat.and_two_pow_sub_one_eq_mod, Nat.mul_add_mod, Nat.mod_eq_of_lt hslot]
  have hhigh : (2 ^ slotBits * generation + slot) >>> generationShift &&& generationMask = generation := by
    rw [generationMask, Nat.and_two_pow_sub_one_eq_mod, generationShift, Nat.shiftRight_eq_div_pow,
      Nat.mul_add_div (Nat.two_pow_pos _), Nat.div_eq_of_lt hslot, Nat.add_zero, Nat.mod_eq_of_lt hgeneration]
  rw [decodeCompletion, and_marker_of_lt hlt, if_neg (not_not.mpr rfl)]
  dsimp only
  rw [hlow, hhigh, if_neg (Nat.ne_of_gt hpos)]

/-- A slot that fits and a generation of the pool have an identity. -/
theorem exists_encodeCompletion {slot generation : Nat} (hslot : slot ≤ slotMask) (hpos : 0 < generation)
    (hgeneration : generation ≤ generationLimit) : ∃ userData, encodeCompletion slot generation = .ok userData := by
  have hgenerationMask : ¬(generation = 0 ∨ generationMask < generation) := by
    rintro (hzero | hlarge)
    · omega
    · exact absurd hlarge (Nat.not_lt.mpr hgeneration)
  exact ⟨_, by rw [encodeCompletion, if_neg (by omega), if_neg hgenerationMask]⟩

/-! ### The ring -/

/-- The entry reads into the buffer of a slot, or writes from it. -/
def Entry.operatesOn (i : Nat) : Entry → Bool
  | .read _ buffer _ _ | .write _ buffer _ _ => buffer = i
  | .cancel _ _ _ => false

/-- The entry cancels an operation of a slot. -/
def Entry.cancels (i : Nat) : Entry → Bool
  | .cancel _ operation _ => operation &&& slotMask = i
  | _ => false

/-- Every entry is of a slot. -/
theorem Entry.of_slot (e : Entry) : (∃ i, e.operatesOn i = true) ∨ ∃ i, e.cancels i = true := by
  cases e with
  | read handle buffer length userData => exact .inl ⟨buffer, decide_eq_true rfl⟩
  | write handle buffer length userData => exact .inl ⟨buffer, decide_eq_true rfl⟩
  | cancel handle operation userData => exact .inr ⟨operation &&& slotMask, decide_eq_true rfl⟩

theorem Entry.operatesOn_unique (hi : e.operatesOn i = true) (hj : e.operatesOn j = true) : i = j := by
  cases e with
  | read | write => exact (of_decide_eq_true hi).symm.trans (of_decide_eq_true hj)
  | cancel => cases hi

theorem Entry.cancels_unique (hi : e.cancels i = true) (hj : e.cancels j = true) : i = j := by
  cases e with
  | read | write => cases hi
  | cancel => exact (of_decide_eq_true hi).symm.trans (of_decide_eq_true hj)

theorem Entry.not_operates_and_cancels (hi : e.operatesOn i = true) : e.cancels j = false := by
  cases e with
  | read | write => rfl
  | cancel => cases hi

theorem ActiveOperation.entry_operatesOn (operation : ActiveOperation) (i j : Nat) :
    (operation.entry i).operatesOn j = decide (i = j) := by
  unfold ActiveOperation.entry
  split <;> rfl

theorem ActiveOperation.entry_cancels (operation : ActiveOperation) (i j : Nat) :
    (operation.entry i).cancels j = false := by
  unfold ActiveOperation.entry
  split <;> rfl

theorem ActiveOperation.entry_userData (operation : ActiveOperation) (i : Nat) :
    (operation.entry i).userData = operation.userData := by
  unfold ActiveOperation.entry
  split <;> rfl

namespace IoRing

variable {ring : IoRing}

/-- The entries that were built and whose completions have not been popped. -/
def outstanding (ring : IoRing) : List Entry := ring.queue ++ ring.submitted

theorem outstanding_build (ring : IoRing) (e : Entry) :
    (ring.build sOk e).outstanding.Perm (e :: ring.outstanding) := by
  rw [build, if_pos rfl, outstanding, outstanding, List.append_assoc]
  exact List.perm_middle

theorem outstanding_submit (ring : IoRing) : ring.submit.outstanding.Perm ring.outstanding := by
  rw [outstanding, submit, List.nil_append]
  exact List.perm_append_comm

theorem outstanding_remove {index : Nat} (h : ring.submitted[index]? = some e) :
    ring.outstanding.Perm (e :: (ring.remove index).outstanding) := by
  obtain ⟨hlt, rfl⟩ := List.getElem?_eq_some_iff.mp h
  have hsubmitted := List.getElem_cons_eraseIdx_perm hlt
  exact (hsubmitted.symm.append_left ring.queue).trans List.perm_middle

end IoRing

/-! ### The state of a slot -/

/-- The pool holds a slot for an operation. -/
structure Matches (i : Nat) (operation : ActiveOperation) (slot : BufferSlot) : Prop where
  completion : operation.completion = ⟨i, slot.generation⟩
  userData : encodeCompletion i slot.generation = .ok operation.userData
  state : slot.state = if operation.isWrite then .writePending 1 else .readPending

/-- How the pool, the active operation and the entries of a slot fit together. -/
inductive SlotOk (strict : Prop) (i : Nat) : BufferSlot → Option ActiveOperation → List Entry → Prop
  | idle {slot : BufferSlot} (hfree : strict → slot.state = .free) : SlotOk strict i slot none []
  | built {slot : BufferSlot} {operation : ActiveOperation} (hmatches : Matches i operation slot)
      (hqueued : operation.queued = true) : SlotOk strict i slot (some operation) [operation.entry i]
  | unbuilt {slot : BufferSlot} {operation : ActiveOperation} (hmatches : Matches i operation slot)
      (hloose : ¬strict) : SlotOk strict i slot (some operation) []

theorem SlotOk.perm {operation : Option ActiveOperation} {entries entries' : List Entry}
    (h : SlotOk strict i slot operation entries) (hperm : entries'.Perm entries) :
    SlotOk strict i slot operation entries' := by
  cases h with
  | idle hfree => exact List.perm_nil.mp hperm ▸ .idle hfree
  | built hmatches hqueued => exact List.perm_singleton.mp hperm ▸ .built hmatches hqueued
  | unbuilt hmatches hloose => exact List.perm_nil.mp hperm ▸ .unbuilt hmatches hloose

theorem SlotOk.mono {strict strict' : Prop} {operation : Option ActiveOperation} {entries : List Entry}
    (h : SlotOk strict i slot operation entries) (hmono : strict' → strict) :
    SlotOk strict' i slot operation entries := by
  cases h with
  | idle hfree => exact .idle fun hstrict => hfree (hmono hstrict)
  | built hmatches hqueued => exact .built hmatches hqueued
  | unbuilt hmatches hloose => exact .unbuilt hmatches fun hstrict => hloose (hmono hstrict)

namespace Runtime

def entries (r : Runtime) (i : Nat) : List Entry := r.ring.outstanding.filter (Entry.operatesOn i)

def cancelEntries (r : Runtime) (i : Nat) : List Entry := r.ring.outstanding.filter (Entry.cancels i)

def SlotInv (strict : Prop) (r : Runtime) (i : Nat) : Prop :=
  ∃ slot, r.pool.slots[i]? = some slot ∧ SlotOk strict i slot (r.active i) (r.entries i)

/-- Everything but slot `i` is as it was. -/
structure OnlySlot (i : Nat) (r r' : Runtime) : Prop where
  active : ∀ j ≠ i, r'.active j = r.active j
  pool : ∀ j ≠ i, r'.pool.slots[j]? = r.pool.slots[j]?
  length : r'.pool.slots.length = r.pool.slots.length
  entries : ∀ j ≠ i, (r'.entries j).Perm (r.entries j)
  cancelEntries : ∀ j, (r'.cancelEntries j).Perm (r.cancelEntries j)
  cancellations : r'.cancellations = r.cancellations
  submitted : ∀ e ∈ r'.ring.submitted, e ∈ r.ring.submitted
  inFlight : r'.operationsMayBeInFlight = r.operationsMayBeInFlight

variable {r r₁ r₂ : Runtime}

@[simp] theorem setActive_self (r : Runtime) (i : Nat) (operation : Option ActiveOperation) :
    (r.setActive i operation).active i = operation := Function.update_self ..

theorem setCancellation_self (r : Runtime) (i : Nat) (operation : Option UserData) :
    (r.setCancellation i operation).cancellations i = operation := Function.update_self ..

theorem setCancellation_of_ne (r : Runtime) (hji : j ≠ i) (operation : Option UserData) :
    (r.setCancellation i operation).cancellations j = r.cancellations j := Function.update_of_ne hji ..

@[simp] theorem setActive_entries (r : Runtime) (i j : Nat) (operation : Option ActiveOperation) :
    (r.setActive i operation).entries j = r.entries j := rfl

@[simp] theorem setActive_pool (r : Runtime) (i : Nat) (operation : Option ActiveOperation) :
    (r.setActive i operation).pool = r.pool := rfl

@[simp] theorem setPool_entries (r : Runtime) (pool : BufferPool) (j : Nat) :
    (r.setPool pool).entries j = r.entries j := rfl

@[simp] theorem build_active (r : Runtime) (status : HResult) (e : Entry) : (r.build status e).active = r.active := rfl

@[simp] theorem build_pool (r : Runtime) (status : HResult) (e : Entry) : (r.build status e).pool = r.pool := rfl

theorem OnlySlot.refl (i : Nat) (r : Runtime) : OnlySlot i r r :=
  ⟨fun _ _ => rfl, fun _ _ => rfl, rfl, fun _ _ => .refl _, fun _ => .refl _, rfl, fun _ => id, rfl⟩

theorem OnlySlot.trans (h : OnlySlot i r r₁) (h' : OnlySlot i r₁ r₂) : OnlySlot i r r₂ where
  active j hj := (h'.active j hj).trans (h.active j hj)
  pool j hj := (h'.pool j hj).trans (h.pool j hj)
  length := h'.length.trans h.length
  entries j hj := (h'.entries j hj).trans (h.entries j hj)
  cancelEntries j := (h'.cancelEntries j).trans (h.cancelEntries j)
  cancellations := h'.cancellations.trans h.cancellations
  submitted e he := h.submitted e (h'.submitted e he)
  inFlight := h'.inFlight.trans h.inFlight

theorem OnlySlot.setActive (r : Runtime) (i : Nat) (operation : Option ActiveOperation) :
    OnlySlot i r (r.setActive i operation) :=
  { OnlySlot.refl i r with active := fun _ hj => Function.update_of_ne hj .. }

theorem OnlySlot.setPool (r : Runtime) (i : Nat) (slot : BufferSlot) :
    OnlySlot i r (r.setPool (r.pool.setSlot i slot)) :=
  { OnlySlot.refl i r with
    pool := fun _ hj => r.pool.setSlot_of_ne slot hj
    length := List.length_set }

/-- An entry for the slot is built, or the call fails. -/
theorem OnlySlot.build (r : Runtime) (status : HResult) (he : e.operatesOn i = true) :
    OnlySlot i r (r.build status e) := by
  unfold Runtime.build
  by_cases hstatus : status = sOk
  · subst hstatus
    have hbuilt := r.ring.outstanding_build e
    refine { OnlySlot.refl i r with entries := fun j hj => ?_, cancelEntries := fun j => ?_, submitted := fun e' => ?_ }
    · have hnot : e.operatesOn j = false := Bool.eq_false_iff.mpr fun htrue => hj (e.operatesOn_unique htrue he)
      have hfilter := hbuilt.filter (Entry.operatesOn j)
      rwa [List.filter_cons_of_neg (by rw [hnot]; exact Bool.false_ne_true)] at hfilter
    · have hnot : e.cancels j = false := Entry.not_operates_and_cancels he
      have hfilter := hbuilt.filter (Entry.cancels j)
      rwa [List.filter_cons_of_neg (by rw [hnot]; exact Bool.false_ne_true)] at hfilter
    · rw [IoRing.build, if_pos rfl]
      exact id
  · rw [IoRing.build, if_neg hstatus]
    exact .refl i r

/-- The entries of a slot once one was built for it. -/
theorem entries_build (r : Runtime) (he : e.operatesOn i = true) (hnone : r.entries i = []) :
    (r.build sOk e).entries i = [e] := by
  have hfilter := (r.ring.outstanding_build e).filter (Entry.operatesOn i)
  rw [List.filter_cons_of_pos he] at hfilter
  exact List.perm_singleton.mp (hfilter.trans (List.Perm.of_eq (congrArg (e :: ·) hnone)))

theorem entries_build_failed (r : Runtime) (hstatus : status ≠ sOk) : (r.build status e).entries i = r.entries i := by
  rw [Runtime.build, IoRing.build, if_neg hstatus]

end Runtime

/-! ### What the routines do to a slot -/

/-- Of the errors of the pool, only the end of the generations is ever returned. -/
def RuntimeError.Tolerable (e : RuntimeError) : Prop :=
  ∀ message error, e = .pool message error → error = .generationExhausted

/-- How a call that works on a slot leaves the runtime. -/
inductive Outcome {α : Type} (i : Nat) (r : Runtime) : Called α → Prop
  | ok {a : α} {r' : Runtime} (honly : r.OnlySlot i r') (hslot : r'.SlotInv True i) : Outcome i r (.ok a, r')
  | error {e : RuntimeError} {r' : Runtime} (honly : r.OnlySlot i r') (hslot : r'.SlotInv False i)
      (hsound : e.Tolerable) : Outcome i r (.error e, r')

/-- A slot without an operation, and what the pool has for it. -/
structure Holding (r : Runtime) (i : Nat) (slot : BufferSlot) : Prop where
  active : r.active i = none
  pool : r.pool.slots[i]? = some slot
  entries : r.entries i = []

variable {c : Config} {r r₁ : Runtime}

theorem Outcome.after {α : Type} {called : Called α} (h : Outcome i r₁ called) (honly : r.OnlySlot i r₁) :
    Outcome i r called := by
  cases h with
  | ok honly' hslot => exact .ok (honly.trans honly') hslot
  | error honly' hslot hsound => exact .error (honly.trans honly') hslot hsound

theorem Outcome.map {α β : Type} {called : Called α} (h : Outcome i r called) (f : α → β) :
    Outcome i r (called.1.map f, called.2) := by
  cases h with
  | ok honly hslot => exact .ok honly hslot
  | error honly hslot hsound => exact .error honly hslot hsound

theorem Holding.slotInv (h : Holding r i slot) (hfree : strict → slot.state = .free) : r.SlotInv strict i := by
  refine ⟨slot, h.pool, ?_⟩
  rw [h.active, h.entries]
  exact .idle hfree

theorem Holding.setPool (h : Holding r i slot) (slot' : BufferSlot) :
    Holding (r.setPool (r.pool.setSlot i slot')) i slot' :=
  ⟨h.active, BufferPool.setSlot_self slot' h.pool, h.entries⟩

/-- A call of the pool that the state of the slot allows. -/
theorem transition_eq {p : BufferPool} {next : SlotState → Option SlotState} {state : SlotState}
    (hslot : p.slots[i]? = some slot) (hnext : next slot.state = some state) :
    p.transition ⟨i, slot.generation⟩ next = (.ok (), p.setSlot i ⟨slot.generation, state⟩) := by
  unfold BufferPool.transition BufferPool.current
  dsimp only
  rw [hslot]
  dsimp only
  rw [if_neg (not_not.mpr rfl)]
  dsimp only
  rw [hnext]
  rfl

/-- An entry for a slot without an operation is built, and its operation entered. -/
theorem Holding.enter (h : Holding r i slot) (hmatches : Matches i operation slot) (hqueued : operation.queued = true) :
    ((r.build sOk (operation.entry i)).setActive i (some operation)).SlotInv True i := by
  have hentry : (operation.entry i).operatesOn i = true := by
    rw [operation.entry_operatesOn]
    exact decide_eq_true rfl
  refine ⟨slot, h.pool, ?_⟩
  rw [Runtime.setActive_self, Runtime.setActive_entries, r.entries_build hentry h.entries]
  exact .built hmatches hqueued

/-- Building the entry fails. -/
theorem Holding.build_failed (h : Holding r i slot) (hstatus : status ≠ sOk) (e : Entry) :
    Holding (r.build status e) i slot :=
  ⟨h.active, h.pool, (r.entries_build_failed hstatus).trans h.entries⟩

theorem Runtime.OnlySlot.build_entry (r : Runtime) (i : Nat) (status : HResult) (operation : ActiveOperation) :
    r.OnlySlot i (r.build status (operation.entry i)) :=
  .build r status (by rw [operation.entry_operatesOn]; exact decide_eq_true rfl)

/-- The entry of an operation is built and the operation entered, or building fails. -/
theorem buildEntry_outcome (h : Holding r i slot) (operation : ActiveOperation) (hmatches : Matches i operation slot)
    (hqueued : operation.queued = true) (status : HResult) (text : String) :
    Outcome i r (match checkHr status text with
      | .error e => (.error e, r.build status (operation.entry i))
      | .ok () => (.ok (), (r.build status (operation.entry i)).setActive i (some operation))) := by
  have hbuild := Runtime.OnlySlot.build_entry r i status operation
  unfold checkHr
  by_cases hstatus : status = sOk
  · subst hstatus
    exact .ok (hbuild.trans (.setActive _ i _)) (h.enter hmatches hqueued)
  · rw [if_neg hstatus]
    exact .error hbuild ((h.build_failed hstatus _).slotInv fun hfalse => hfalse.elim) nofun

theorem postRead_outcome (hi : i < c.totalDepth) (h : Holding r i ⟨generation, .free⟩) (status : HResult) :
    Outcome i r (r.postRead c i status) := by
  unfold Runtime.postRead BufferPool.beginRead
  rw [h.pool]
  dsimp only
  rw [if_neg (not_not.mpr rfl)]
  split_ifs with hgeneration
  swap
  · refine .error (.refl i r) (h.slotInv fun hfalse => hfalse.elim) ?_
    intro message error heq
    cases heq
    rfl
  have hslot : i ≤ slotMask := Nat.le_of_lt_succ (Nat.lt_of_lt_of_le hi c.fits)
  obtain ⟨userData, hencode⟩ := exists_encodeCompletion hslot (Nat.succ_pos generation) hgeneration
  simp only [Runtime.withPool, Except.mapError, hencode]
  refine Outcome.after ?_ (.setPool r i ⟨generation + 1, .readPending⟩)
  exact buildEntry_outcome (h.setPool _) ⟨⟨i, generation + 1⟩, (c.endpointForSlot i).handle, userData, false,
    c.frameMaximum, true, false, 0, false⟩ ⟨rfl, hencode, rfl⟩ rfl status _

theorem completeAndPost_outcome (hi : i < c.totalDepth) (h : Holding r i slot) {message : String}
    {result : Except SlotError Unit × BufferPool}
    (hresult : result = (.ok (), r.pool.setSlot i ⟨slot.generation, .free⟩)) (status : HResult) :
    Outcome i r (r.completeAndPost c message result i status) := by
  subst hresult
  exact (postRead_outcome hi (h.setPool _) status).after (.setPool r i _)

theorem postWrite_outcome (h : Holding r i ⟨generation, .dispatching⟩)
    (hencode : encodeCompletion i generation = .ok userData) (destination : EndpointId) (length : Nat)
    (status : HResult) : Outcome i r (r.postWrite c ⟨i, generation⟩ destination length status) := by
  have hbegin : r.pool.beginWrites ⟨i, generation⟩ 1 = (.ok (), r.pool.setSlot i ⟨generation, .writePending 1⟩) :=
    transition_eq h.pool rfl
  unfold Runtime.postWrite
  simp only [hbegin, Runtime.withPool, Except.mapError, hencode]
  refine Outcome.after ?_ (.setPool r i ⟨generation, .writePending 1⟩)
  exact buildEntry_outcome (h.setPool _) ⟨⟨i, generation⟩, _, userData, true, length, true, false, 0, false⟩
    ⟨rfl, hencode, rfl⟩ rfl status _

theorem dispatchRead_outcome (hi : i < c.totalDepth) (h : Holding r i ⟨generation, .readPending⟩)
    (hencode : encodeCompletion i generation = .ok userData) (switch : Switch) (popped : Completion)
    (status : HResult) : Outcome i r (r.dispatchRead c switch ⟨i, generation⟩ popped status).1 := by
  have hbegin : r.pool.beginDispatch ⟨i, generation⟩ = (.ok (), r.pool.setSlot i ⟨generation, .dispatching⟩) :=
    transition_eq h.pool rfl
  have hdispatching := h.setPool ⟨generation, .dispatching⟩
  have honly := Runtime.OnlySlot.setPool r i ⟨generation, .dispatching⟩
  have hcomplete : (r.pool.setSlot i ⟨generation, .dispatching⟩).completeDispatch ⟨i, generation⟩ =
      (.ok (), (r.pool.setSlot i ⟨generation, .dispatching⟩).setSlot i ⟨generation, .free⟩) :=
    transition_eq hdispatching.pool rfl
  have hdrop : ∀ message, Outcome i r
      ((r.setPool (r.pool.setSlot i ⟨generation, .dispatching⟩)).completeAndPost c message
        ((r.pool.setSlot i ⟨generation, .dispatching⟩).completeDispatch ⟨i, generation⟩) i status) :=
    fun message => (completeAndPost_outcome hi hdispatching hcomplete status).after honly
  unfold Runtime.dispatchRead
  simp only [hbegin, Runtime.withPool, Except.mapError]
  split
  swap
  · exact hdrop _
  split
  · exact hdrop _
  · exact .error honly (hdispatching.slotInv fun hfalse => hfalse.elim) nofun
  · exact (postWrite_outcome hdispatching hencode _ _ status).after honly
  · exact hdrop _

/-- A slot whose operation has just been popped from the ring. -/
structure Popped (r : Runtime) (i : Nat) (operation : ActiveOperation) (slot : BufferSlot) : Prop where
  active : r.active i = some operation
  pool : r.pool.slots[i]? = some slot
  corresponds : Matches i operation slot
  entries : r.entries i = []

namespace Popped

theorem not_free (h : Popped r i operation slot) : slot.state ≠ .free := by
  rw [h.corresponds.state]
  split <;> nofun

/-- The slot can be given up. -/
theorem cancel (h : Popped r i operation slot) :
    r.pool.cancel operation.completion = (.ok (), r.pool.setSlot i ⟨slot.generation, .free⟩) := by
  rw [h.corresponds.completion]
  exact transition_eq h.pool (if_neg h.not_free)

theorem setActive_none (h : Popped r i operation slot) : Holding (r.setActive i none) i slot :=
  ⟨r.setActive_self i none, h.pool, h.entries⟩

theorem validate (hi : i < c.totalDepth) (h : Popped r i operation slot) :
    r.validateCompletion c operation.userData = .ok (i, slot.generation, operation) := by
  have hchecks : ¬(operation.completion.slot ≠ i ∨ operation.completion.generation ≠ slot.generation ∨
      operation.userData ≠ operation.userData) := by
    rw [h.corresponds.completion]
    simp only [ne_eq, not_true_eq_false, or_self, not_false_eq_true]
  simp only [Runtime.validateCompletion, decodeCompletion_encode h.corresponds.userData, if_neg (Nat.not_le.mpr hi),
    h.active, if_neg hchecks]

end Popped

theorem Matches.congr {operation operation' : ActiveOperation} (h : Matches i operation slot)
    (hcompletion : operation'.completion = operation.completion) (huserData : operation'.userData = operation.userData)
    (hisWrite : operation'.isWrite = operation.isWrite) : Matches i operation' slot where
  completion := hcompletion.trans h.completion
  userData := huserData ▸ h.userData
  state := hisWrite ▸ h.state

/-- The operation of a slot that has no entry in the ring. -/
theorem slotInv_unbuilt (hactive : r.active i = some operation) (hpool : r.pool.slots[i]? = some slot)
    (hmatches : Matches i operation slot) (hentries : r.entries i = []) : r.SlotInv False i := by
  refine ⟨slot, hpool, ?_⟩
  rw [hactive, hentries]
  exact .unbuilt hmatches not_false

theorem retryBusyOperation_outcome (h : Popped r i operation slot) (status : HResult) :
    Outcome i r (r.retryBusyOperation i status) := by
  unfold Runtime.retryBusyOperation
  rw [h.active]
  dsimp only
  split
  · exact .error (.refl i r) (slotInv_unbuilt h.active h.pool h.corresponds h.entries) nofun
  split
  · simp only [h.cancel, Runtime.withPool, Except.mapError]
    have hfreed : Holding ((r.setPool (r.pool.setSlot i ⟨slot.generation, .free⟩)).setActive i none) i
        ⟨slot.generation, .free⟩ :=
      ⟨Runtime.setActive_self .., BufferPool.setSlot_self _ h.pool, h.entries⟩
    exact .error ((Runtime.OnlySlot.setPool r i _).trans (.setActive _ i none)) (hfreed.slotInv fun _ => rfl) nofun
  · -- the operation is built again, with the same identity
    have hretried : Matches i operation.retried slot := h.corresponds.congr rfl rfl rfl
    have hpopped : Popped (r.setActive i (some operation.retried)) i operation.retried slot :=
      ⟨Runtime.setActive_self .., h.pool, hretried, h.entries⟩
    have honly : r.OnlySlot i ((r.setActive i (some operation.retried)).build status (operation.retried.entry i)) :=
      (Runtime.OnlySlot.setActive r i _).trans (.build_entry _ i status operation.retried)
    unfold checkHr
    by_cases hstatus : status = sOk
    · subst hstatus
      have hentry : (operation.retried.entry i).operatesOn i = true := by
        rw [ActiveOperation.entry_operatesOn]
        exact decide_eq_true rfl
      have hqueued : Matches i { operation.retried with queued := true } slot := hretried.congr rfl rfl rfl
      refine .ok (honly.trans (.setActive _ i _)) ⟨slot, h.pool, ?_⟩
      rw [Runtime.setActive_self, Runtime.setActive_entries, Runtime.entries_build _ hentry hpopped.entries]
      exact .built hqueued rfl
    · rw [if_neg hstatus]
      refine .error honly (slotInv_unbuilt hpopped.active h.pool hretried ?_) nofun
      exact (Runtime.entries_build_failed _ hstatus).trans hpopped.entries

/-- The completion of an operation is processed. -/
theorem processCompletion_outcome (hi : i < c.totalDepth) (h : Popped r i operation slot) (switch : Switch)
    (popped : Completion) (huserData : popped.userData = operation.userData) (status : HResult) :
    Outcome i r (r.processCompletion c switch popped status).1 := by
  have hnone := h.setActive_none
  have honly := Runtime.OnlySlot.setActive r i none
  have hcancel : (r.setActive i none).pool.cancel ⟨i, slot.generation⟩ =
      (.ok (), r.pool.setSlot i ⟨slot.generation, .free⟩) := h.corresponds.completion ▸ h.cancel
  have hfreed := hnone.setPool ⟨slot.generation, .free⟩
  unfold Runtime.processCompletion
  simp only [huserData, h.validate hi]
  split
  · exact (retryBusyOperation_outcome h status).map _
  split
  · simp only [hcancel, Runtime.withPool, Except.mapError, Except.map]
    exact .ok (honly.trans (.setPool _ i _)) (hfreed.slotInv fun _ => rfl)
  split
  · simp only [hcancel, Runtime.withPool, Except.mapError]
    exact .error (honly.trans (.setPool _ i _)) (hfreed.slotInv fun _ => rfl) nofun
  split
  · rename_i hwrite
    have hpending : slot.state = .writePending 1 := by rw [h.corresponds.state, if_pos hwrite]
    have hcomplete : (r.setActive i none).pool.completeWrite ⟨i, slot.generation⟩ =
        (.ok (), r.pool.setSlot i ⟨slot.generation, .free⟩) := transition_eq h.pool (by rw [hpending]; rfl)
    exact ((completeAndPost_outcome hi hnone hcomplete status).after honly).map _
  · rename_i hread
    have hpending : slot = ⟨slot.generation, .readPending⟩ := by
      have hstate : slot.state = .readPending := by rw [h.corresponds.state, if_neg hread]
      rw [← hstate]
    exact ((dispatchRead_outcome hi (hpending ▸ hnone) h.corresponds.userData switch popped status).after honly).map _

end WinTap.SwitchRuntime

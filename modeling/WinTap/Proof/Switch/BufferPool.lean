import WinTap.Switch.BufferPool

/-!
# One lifecycle for each generation

A completion is a slot and a generation, and the state of the pool gives each completion a stage: not begun while the
slot's generation is below it, the state of the slot while it is current, and free once the slot has gone on. An
operation that succeeds moves the one completion it names, and a read begins one; what a completion has been through is
then determined by its stage, whatever else was done to the pool in between.
-/

namespace WinTap.SwitchCore

variable {i : Nat} {p : BufferPool} {op : PoolOp} {c : SlotCompletion} {next : SlotState → Option SlotState}
  {state state' : SlotState} {ops : List PoolOp} {s : BufferSlot} {trace : List (PoolOp × PoolReply)}

/-! ### One operation -/

namespace BufferPool

variable {p p' : BufferPool}

theorem setSlot_of_ne (p : BufferPool) {i j : Nat} (slot : BufferSlot) (hji : j ≠ i) :
    (p.setSlot i slot).slots[j]? = p.slots[j]? := List.getElem?_set_ne (Ne.symm hji)

theorem setSlot_self {old : BufferSlot} (slot : BufferSlot) (hi : p.slots[i]? = some old) :
    (p.setSlot i slot).slots[i]? = some slot := by
  rw [setSlot, List.getElem?_set_self (List.getElem?_eq_some_iff.mp hi).1]

/-- A read fails and changes nothing, or takes a free slot and its next generation. -/
theorem beginRead_cases (p : BufferPool) (i : Nat) :
    (∃ e, p.beginRead i = (.error e, p)) ∨ ∃ s, p.slots[i]? = some s ∧ s.state = .free ∧
      s.generation + 1 ≤ generationLimit ∧
      p.beginRead i = (.ok ⟨i, s.generation + 1⟩, p.setSlot i ⟨s.generation + 1, .readPending⟩) := by
  unfold beginRead
  split
  · exact .inl ⟨_, rfl⟩
  · rename_i s hs
    split
    · exact .inl ⟨_, rfl⟩
    · rename_i hfree
      split
      · rename_i hgeneration
        exact .inr ⟨s, hs, not_not.mp hfree, hgeneration, rfl⟩
      · exact .inl ⟨_, rfl⟩

theorem current_cases (p : BufferPool) (c : SlotCompletion) :
    (∃ e, p.current c = .error e) ∨
      ∃ s, p.slots[c.slot]? = some s ∧ s.generation = c.generation ∧ p.current c = .ok s := by
  unfold current
  split
  · exact .inl ⟨_, rfl⟩
  · rename_i s hs
    split
    · exact .inl ⟨_, rfl⟩
    · rename_i hgeneration
      exact .inr ⟨s, hs, not_not.mp hgeneration, rfl⟩

/-- A transition fails and changes nothing, or moves a current slot to the state it gives. -/
theorem transition_cases (p : BufferPool) (c : SlotCompletion) (next : SlotState → Option SlotState) :
    (∃ e, p.transition c next = (.error e, p)) ∨ ∃ s state, p.slots[c.slot]? = some s ∧
      s.generation = c.generation ∧ next s.state = some state ∧
      p.transition c next = (.ok (), p.setSlot c.slot ⟨c.generation, state⟩) := by
  unfold transition
  obtain ⟨e, hcurrent⟩ | ⟨s, hs, hgeneration, hcurrent⟩ := p.current_cases c <;> rw [hcurrent]
  · exact .inl ⟨e, rfl⟩
  · cases hnext : next s.state with
    | none => exact .inl ⟨.invalidTransition, by simp only [hnext]⟩
    | some state =>
      refine .inr ⟨s, state, hs, hgeneration, hnext, ?_⟩
      simp only [hnext, setState, hgeneration]

end BufferPool

/-- The stages that the operations of a completion lead to. -/
inductive PoolOp.Moves (c : SlotCompletion) : PoolOp → SlotState → SlotState → Prop
  | beginDispatch : Moves c (.beginDispatch c) .readPending .dispatching
  | beginWrites {count : Nat} (hcount : 0 < count) : Moves c (.beginWrites c count) .dispatching (.writePending count)
  | completeDispatch : Moves c (.completeDispatch c) .dispatching .free
  | completeWrite {remaining : Nat} (hmore : 0 < remaining) :
      Moves c (.completeWrite c) (.writePending (remaining + 1)) (.writePending remaining)
  | lastWrite : Moves c (.completeWrite c) (.writePending 1) .free
  | cancel {state : SlotState} (hstate : state ≠ .free) : Moves c (.cancel c) state .free

/-- An operation fails and changes nothing, begins a read, or moves the completion it names. -/
inductive Applied (p : BufferPool) : PoolOp → PoolReply → BufferPool → Prop
  | refused (op : PoolOp) (e : SlotError) : Applied p op (.error e) p
  | began {i : Nat} {s : BufferSlot} (hslot : p.slots[i]? = some s) (hfree : s.state = .free)
      (hlimit : s.generation + 1 ≤ generationLimit) :
      Applied p (.beginRead i) (.ok (some ⟨i, s.generation + 1⟩)) (p.setSlot i ⟨s.generation + 1, .readPending⟩)
  | moved {op : PoolOp} {c : SlotCompletion} {s : BufferSlot} {state : SlotState} (hnamed : op.completion = some c)
      (hslot : p.slots[c.slot]? = some s) (hcurrent : s.generation = c.generation) (hmoves : op.Moves c s.state state) :
      Applied p op (.ok none) (p.setSlot c.slot ⟨c.generation, state⟩)

theorem applied_transition (happly : p.apply op = ((p.transition c next).1.map fun _ => none, (p.transition c next).2))
    (hnamed : op.completion = some c) (hnext : ∀ {state state'}, next state = some state' → op.Moves c state state') :
    Applied p op (p.apply op).1 (p.apply op).2 := by
  rw [happly]
  obtain ⟨e, heq⟩ | ⟨s, state, hslot, hcurrent, hstate, heq⟩ := p.transition_cases c next <;> rw [heq]
  · exact .refused op e
  · exact .moved hnamed hslot hcurrent (hnext hstate)

theorem BufferPool.applied (p : BufferPool) (op : PoolOp) : Applied p op (p.apply op).1 (p.apply op).2 := by
  cases op with
  | beginRead i =>
    obtain ⟨e, heq⟩ | ⟨s, hslot, hfree, hlimit, heq⟩ := p.beginRead_cases i <;> rw [BufferPool.apply, heq]
    · exact .refused _ e
    · exact .began hslot hfree hlimit
  | beginDispatch c =>
    refine applied_transition rfl rfl fun {state state'} h => ?_
    split at h <;> cases h
    rename_i hstate
    rw [not_not.mp hstate]
    exact .beginDispatch
  | beginWrites c count =>
    refine applied_transition rfl rfl fun {state state'} h => ?_
    split at h <;> cases h
    rename_i hstate
    rw [not_or, not_not] at hstate
    rw [hstate.1]
    exact .beginWrites (Nat.pos_of_ne_zero hstate.2)
  | completeDispatch c =>
    refine applied_transition rfl rfl fun {state state'} h => ?_
    split at h <;> cases h
    rename_i hstate
    rw [not_not.mp hstate]
    exact .completeDispatch
  | completeWrite c =>
    refine applied_transition rfl rfl fun {state state'} h => ?_
    split at h
    · rename_i remaining
      split at h
      · cases h
        obtain ⟨k, rfl⟩ := Nat.exists_eq_add_one.mpr (by omega : 0 < remaining)
        exact .completeWrite (by omega)
      · split at h
        · rename_i hone
          cases h
          rw [hone]
          exact .lastWrite
        · cases h
    · cases h
  | cancel c =>
    refine applied_transition rfl rfl fun {state state'} h => ?_
    split at h <;> cases h
    exact .cancel ‹_›

/-! ### Stages of a completion -/

/-- The stage of a completion: none before its read, and free once the slot has gone on. -/
def BufferPool.stage (p : BufferPool) (c : SlotCompletion) : Option SlotState :=
  match p.slots[c.slot]? with
  | none => none
  | some s =>
    if c.generation = 0 ∨ s.generation < c.generation then none
    else if c.generation = s.generation then some s.state
    else some .free

/-- What a completion has been through at each stage. -/
inductive Stage (c : SlotCompletion) : SlotState → List PoolOp → Prop
  | reading : Stage c .readPending []
  | dispatching : Stage c .dispatching [.beginDispatch c]
  | writing {remaining done : Nat} (hremaining : 0 < remaining) : Stage c (.writePending remaining)
      (.beginDispatch c :: .beginWrites c (done + remaining) :: List.replicate done (.completeWrite c))
  | dispatched : Stage c .free [.beginDispatch c, .completeDispatch c]
  | written {count : Nat} (hcount : 0 < count) : Stage c .free
      (.beginDispatch c :: .beginWrites c count :: List.replicate count (.completeWrite c))
  | cancelled {state : SlotState} {ops : List PoolOp} (hstage : Stage c state ops) (hstate : state ≠ .free) :
      Stage c .free (ops ++ [.cancel c])

/-- An operation takes a completion to its next stage. -/
theorem PoolOp.Moves.stage (h : op.Moves c state state') (hstage : Stage c state ops) :
    Stage c state' (ops ++ [op]) := by
  cases h with
  | beginDispatch =>
    cases hstage
    exact .dispatching
  | beginWrites hcount =>
    cases hstage
    have hstart := @Stage.writing c _ 0 hcount
    rwa [Nat.zero_add] at hstart
  | completeDispatch =>
    cases hstage
    exact .dispatched
  | @completeWrite remaining hmore =>
    cases hstage with
    | @writing _ done _ =>
      have hnext := @Stage.writing c _ (done + 1) hmore
      rw [List.replicate_succ', Nat.add_right_comm, Nat.add_assoc] at hnext
      exact hnext
  | lastWrite =>
    cases hstage with
    | @writing _ done _ =>
      have hlast := @Stage.written c (done + 1) (Nat.succ_pos _)
      rw [List.replicate_succ'] at hlast
      exact hlast
  | cancel hstate => exact .cancelled hstage hstate

/-- The whole life of a completion. -/
inductive FullLifecycle (c : SlotCompletion) : List PoolOp → Prop
  | dispatched : FullLifecycle c [.beginDispatch c, .completeDispatch c]
  | written {count : Nat} (hcount : 0 < count) : FullLifecycle c
      (.beginDispatch c :: .beginWrites c count :: List.replicate count (.completeWrite c))

/-- A part of a life from its start, or such a part that is not the whole and ends in one cancellation. -/
def OneLifecycle (c : SlotCompletion) (ops : List PoolOp) : Prop :=
  ∃ full, FullLifecycle c full ∧
    (ops <+: full ∨ ∃ part, part <+: full ∧ part ≠ full ∧ ops = part ++ [.cancel c])

/-- A completion that is not free is in the middle of its life. -/
theorem Stage.partway (h : Stage c state ops) (hstate : state ≠ .free) :
    ∃ full, FullLifecycle c full ∧ ops <+: full ∧ ops ≠ full := by
  cases h with
  | reading => exact ⟨_, .dispatched, List.nil_prefix, nofun⟩
  | dispatching => exact ⟨_, .dispatched, ⟨[.completeDispatch c], rfl⟩, nofun⟩
  | @writing remaining done hremaining =>
    refine ⟨_, .written (Nat.lt_of_lt_of_le hremaining (Nat.le_add_left _ done)),
      ⟨List.replicate remaining (.completeWrite c), ?_⟩, fun heq => ?_⟩
    · rw [List.replicate_add]
      rfl
    · have hlength := congrArg List.length heq
      simp at hlength
      omega
  | dispatched | written | cancelled => exact absurd rfl hstate

theorem Stage.oneLifecycle (h : Stage c state ops) : OneLifecycle c ops := by
  by_cases hstate : state = .free
  · subst hstate
    cases h with
    | dispatched => exact ⟨_, .dispatched, .inl (List.prefix_refl _)⟩
    | written hcount => exact ⟨_, .written hcount, .inl (List.prefix_refl _)⟩
    | cancelled hstage hne =>
      obtain ⟨full, hfull, hpart, hless⟩ := hstage.partway hne
      exact ⟨full, hfull, .inr ⟨_, hpart, hless, rfl⟩⟩
  · obtain ⟨full, hfull, hpart, -⟩ := h.partway hstate
    exact ⟨full, hfull, .inl hpart⟩

/-! ### Traces -/

/-- The generations that the reads of a slot were given, in order. -/
def generations (slot : Nat) (trace : List (PoolOp × PoolReply)) : List Nat :=
  trace.filterMap fun
    | (.beginRead i, .ok (some c)) => if i = slot then some c.generation else none
    | _ => none

/-- The operations that named a completion and succeeded, in order. -/
def succeeded (c : SlotCompletion) (trace : List (PoolOp × PoolReply)) : List PoolOp :=
  trace.filterMap fun (op, reply) => if op.completion = some c ∧ reply.isOk then some op else none

/-- What a stage says about the operations of a completion. -/
def Accounted (c : SlotCompletion) : Option SlotState → List PoolOp → Prop
  | none, ops => ops = []
  | some state, ops => Stage c state ops

/-- What a slot says about the generations that its reads were given. -/
def Counted : Option BufferSlot → List Nat → Prop
  | none, given => given = []
  | some s, given => given = List.range' 1 s.generation ∧ s.generation ≤ generationLimit ∧
      (s.generation = 0 → s.state = .free)

/-- Every slot has given out its generations up to the current one, and every completion is at the stage that its
operations lead to. -/
structure PoolInv (p : BufferPool) (trace : List (PoolOp × PoolReply)) : Prop where
  slots : ∀ i : Nat, Counted p.slots[i]? (generations i trace)
  reads : ∀ i c, (.beginRead i, .ok (some c)) ∈ trace → c.slot = i
  stages : ∀ c, Accounted c (p.stage c) (succeeded c trace)

theorem PoolOp.Moves.not_free (h : op.Moves c state state') : state ≠ .free := by
  cases h with
  | cancel hstate => exact hstate
  | _ => exact nofun

namespace BufferPool

theorem stage_eq (hslot : p.slots[c.slot]? = some s) :
    p.stage c = if c.generation = 0 ∨ s.generation < c.generation then none
      else if c.generation = s.generation then some s.state else some .free := by
  rw [stage, hslot]

theorem stage_current (hslot : p.slots[c.slot]? = some s) (hcurrent : s.generation = c.generation)
    (hpos : c.generation ≠ 0) : p.stage c = some s.state := by
  rw [stage_eq hslot, if_neg (by omega), if_pos hcurrent.symm]

theorem stage_setSlot_of_ne (slot : BufferSlot) (hne : c.slot ≠ i) : (p.setSlot i slot).stage c = p.stage c := by
  rw [stage, stage, setSlot_of_ne p slot hne]

/-- A read begins the completion it returns, and ends nothing that was not free. -/
theorem stage_began (hslot : p.slots[i]? = some s) (hfree : s.state = .free) (c : SlotCompletion) :
    (p.setSlot i ⟨s.generation + 1, .readPending⟩).stage c
      = if c = ⟨i, s.generation + 1⟩ then some .readPending else p.stage c := by
  by_cases hi : c.slot = i
  · subst hi
    rw [stage_eq (setSlot_self _ hslot), stage_eq hslot, hfree]
    obtain ⟨slot, generation⟩ := c
    simp only [SlotCompletion.mk.injEq, true_and]
    split <;> split <;> (try split) <;> (try split) <;> first | rfl | omega
  · rw [stage_setSlot_of_ne _ hi, if_neg fun hc => hi (by rw [hc])]

/-- A move changes the stage of its completion only. -/
theorem stage_moved (hslot : p.slots[c.slot]? = some s) (hcurrent : s.generation = c.generation)
    (hpos : c.generation ≠ 0) (state : SlotState) (c' : SlotCompletion) :
    (p.setSlot c.slot ⟨c.generation, state⟩).stage c' = if c' = c then some state else p.stage c' := by
  by_cases hc : c' = c
  · rw [if_pos hc, hc]
    exact stage_current (setSlot_self _ hslot) rfl hpos
  · rw [if_neg hc]
    by_cases hi : c'.slot = c.slot
    · have hgeneration : c'.generation ≠ c.generation := by
        intro heq
        apply hc
        cases c'
        cases c
        simp_all
      rw [← hi] at hslot ⊢
      rw [stage_eq (setSlot_self _ hslot), stage_eq hslot, hcurrent, if_neg hgeneration, if_neg hgeneration]
    · exact stage_setSlot_of_ne _ hi

end BufferPool

theorem generations_append (i : Nat) (trace later : List (PoolOp × PoolReply)) :
    generations i (trace ++ later) = generations i trace ++ generations i later := List.filterMap_append

theorem succeeded_append (c : SlotCompletion) (trace later : List (PoolOp × PoolReply)) :
    succeeded c (trace ++ later) = succeeded c trace ++ succeeded c later := List.filterMap_append

theorem generations_began (i j generation : Nat) :
    generations j (trace ++ [(.beginRead i, .ok (some ⟨i, generation⟩))])
      = generations j trace ++ if i = j then [generation] else [] := by
  rw [generations_append]
  by_cases hij : i = j <;> simp [generations, hij]

/-- Only a reply with a completion counts as a read. -/
theorem generations_unread (op : PoolOp) (reply : PoolReply) (hreply : ∀ c, reply ≠ .ok (some c)) (i : Nat) :
    generations i (trace ++ [(op, reply)]) = generations i trace := by
  have hnone : generations i [(op, reply)] = [] := by
    refine List.filterMap_cons_none ?_
    split
    · rename_i c heq
      cases heq
      exact absurd rfl (hreply c)
    · rfl
  rw [generations_append, hnone, List.append_nil]

namespace PoolInv

theorem counted (h : PoolInv p trace) (hslot : p.slots[i]? = some s) :
    generations i trace = List.range' 1 s.generation ∧ s.generation ≤ generationLimit ∧
      (s.generation = 0 → s.state = .free) := by
  have hcounted := h.slots i
  rwa [hslot] at hcounted

theorem reads_unread (h : PoolInv p trace) (op : PoolOp) {reply : PoolReply} (hreply : ∀ c, reply ≠ .ok (some c))
    (i : Nat) (c : SlotCompletion) (hread : (.beginRead i, .ok (some c)) ∈ trace ++ [(op, reply)]) : c.slot = i := by
  obtain hold | hnew := List.mem_append.mp hread
  · exact h.reads i c hold
  · cases List.mem_singleton.mp hnew
    exact absurd rfl (hreply c)

/-- A step that writes one slot and gives out no generation of another keeps what is known of the others. -/
theorem slots_setSlot (h : PoolInv p trace) {trace' : List (PoolOp × PoolReply)} {s slot : BufferSlot}
    (hslot : p.slots[i]? = some s) (hother : ∀ j, j ≠ i → generations j trace' = generations j trace)
    (hwritten : Counted (some slot) (generations i trace')) (j : Nat) :
    Counted (p.setSlot i slot).slots[j]? (generations j trace') := by
  by_cases hji : j = i
  · rw [hji, BufferPool.setSlot_self _ hslot]
    exact hwritten
  · rw [BufferPool.setSlot_of_ne _ _ hji, hother j hji]
    exact h.slots j

theorem refused (h : PoolInv p trace) (op : PoolOp) (e : SlotError) : PoolInv p (trace ++ [(op, .error e)]) := by
  refine ⟨fun i => ?_, h.reads_unread op nofun, fun c => ?_⟩
  · rw [generations_unread op (.error e) nofun]
    exact h.slots i
  · have hnone : succeeded c [(op, .error e)] = [] := by simp [succeeded, Except.isOk, Except.toBool]
    rw [succeeded_append, hnone, List.append_nil]
    exact h.stages c

theorem began (h : PoolInv p trace) (hslot : p.slots[i]? = some s) (hfree : s.state = .free)
    (hlimit : s.generation + 1 ≤ generationLimit) :
    PoolInv (p.setSlot i ⟨s.generation + 1, .readPending⟩)
      (trace ++ [(.beginRead i, .ok (some ⟨i, s.generation + 1⟩))]) := by
  refine ⟨h.slots_setSlot hslot (fun j hj => ?_) ⟨?_, hlimit, nofun⟩, fun j c hread => ?_, fun c => ?_⟩
  · rw [generations_began, if_neg (Ne.symm hj), List.append_nil]
  · rw [generations_began, if_pos rfl, (h.counted hslot).1, List.range'_1_concat, Nat.add_comm 1]
  · obtain hold | hnew := List.mem_append.mp hread
    · exact h.reads j c hold
    · cases List.mem_singleton.mp hnew
      rfl
  · have hnone : succeeded c [(.beginRead i, .ok (some ⟨i, s.generation + 1⟩))] = [] := by
      simp [succeeded, PoolOp.completion]
    have hstage := h.stages c
    rw [succeeded_append, hnone, List.append_nil, BufferPool.stage_began hslot hfree]
    split
    · rename_i hc
      rw [BufferPool.stage_eq (s := s) (by rw [hc]; exact hslot),
        if_pos (.inr (by rw [hc]; exact Nat.lt_succ_self _))] at hstage
      rw [show succeeded c trace = [] from hstage]
      exact .reading
    · exact hstage

/-- The completion that a move names was read: its generation is not the one a slot starts with. -/
theorem generation_ne_zero (h : PoolInv p trace) (hslot : p.slots[c.slot]? = some s)
    (hcurrent : s.generation = c.generation) (hmoves : op.Moves c s.state state) : c.generation ≠ 0 :=
  fun hzero => hmoves.not_free ((h.counted hslot).2.2 (hcurrent.trans hzero))

theorem moved (h : PoolInv p trace) (hnamed : op.completion = some c) (hslot : p.slots[c.slot]? = some s)
    (hcurrent : s.generation = c.generation) (hmoves : op.Moves c s.state state) :
    PoolInv (p.setSlot c.slot ⟨c.generation, state⟩) (trace ++ [(op, .ok none)]) := by
  have hpos := h.generation_ne_zero hslot hcurrent hmoves
  have hsame : ∀ i, generations i (trace ++ [(op, .ok none)]) = generations i trace :=
    generations_unread op (.ok none) nofun
  obtain ⟨hgiven, hlimit, -⟩ := h.counted hslot
  refine ⟨h.slots_setSlot hslot (fun j _ => hsame j) ⟨?_, hcurrent ▸ hlimit, fun hzero => absurd hzero hpos⟩,
    h.reads_unread op nofun, fun c' => ?_⟩
  · rw [hsame, hgiven, hcurrent]
  · have hstage := h.stages c'
    rw [BufferPool.stage_moved hslot hcurrent hpos, succeeded_append]
    by_cases hc : c' = c
    · subst hc
      have hnew : succeeded c' [(op, .ok none)] = [op] := by simp [succeeded, hnamed, Except.isOk, Except.toBool]
      rw [BufferPool.stage_current hslot hcurrent hpos] at hstage
      rw [if_pos rfl, hnew]
      exact hmoves.stage hstage
    · have hnew : succeeded c' [(op, .ok none)] = [] := by simp [succeeded, hnamed, Ne.symm hc]
      rwa [if_neg hc, hnew, List.append_nil]

theorem apply (h : PoolInv p trace) (op : PoolOp) : PoolInv (p.apply op).2 (trace ++ [(op, (p.apply op).1)]) := by
  have happlied := p.applied op
  generalize (p.apply op).1 = reply at happlied
  generalize (p.apply op).2 = p' at happlied
  cases happlied with
  | refused op e => exact h.refused op e
  | began hslot hfree hlimit => exact h.began hslot hfree hlimit
  | moved hnamed hslot hcurrent hmoves => exact h.moved hnamed hslot hcurrent hmoves

theorem run (h : PoolInv p trace) (ops : List PoolOp) : PoolInv (p.run ops).2 (trace ++ (p.run ops).1) := by
  induction ops generalizing p trace with
  | nil =>
    change PoolInv p (trace ++ [])
    rwa [List.append_nil]
  | cons op ops ih =>
    have hrest := ih (h.apply op)
    rw [List.append_assoc] at hrest
    exact hrest

end PoolInv

theorem poolInv_tryNew {count : Nat} {allocated : Bool} (h : BufferPool.tryNew count allocated = .ok p) :
    PoolInv p [] := by
  unfold BufferPool.tryNew at h
  split at h
  swap
  · cases h
  cases h
  have hslot : ∀ {i : Nat} {s : BufferSlot}, (List.replicate count (⟨0, .free⟩ : BufferSlot))[i]? = some s →
      s = ⟨0, .free⟩ := fun hs => List.eq_of_mem_replicate (List.mem_of_getElem? hs)
  refine ⟨fun i => ?_, nofun, fun c => ?_⟩
  · cases hs : (List.replicate count (⟨0, .free⟩ : BufferSlot))[i]? with
    | none => rfl
    | some s =>
      rw [hslot hs]
      exact ⟨rfl, Nat.zero_le _, fun _ => rfl⟩
  · have hnone : BufferPool.stage ⟨List.replicate count ⟨0, .free⟩⟩ c = none := by
      unfold BufferPool.stage
      split
      · rfl
      · rename_i s hs
        rw [hslot hs, if_pos]
        exact (Nat.eq_zero_or_pos c.generation).imp_right fun hpos => hpos
    rw [hnone]
    rfl

/-! ### Completions that are over -/

theorem BufferPool.transition_of_free (hfree : p.stage c = some .free) (hnext : next .free = none) :
    (p.transition c next).1 = .error .invalidTransition ∨ (p.transition c next).1 = .error .staleCompletion := by
  unfold BufferPool.stage at hfree
  split at hfree
  · cases hfree
  · rename_i s hs
    by_cases hgeneration : s.generation = c.generation
    · have hcurrent : p.current c = .ok s := by
        rw [BufferPool.current, hs]
        exact if_neg (not_not.mpr hgeneration)
      rw [hgeneration, if_pos rfl] at hfree
      split at hfree
      · cases hfree
      · left
        rw [BufferPool.transition, hcurrent]
        simp only [Option.some.inj hfree, hnext]
    · have hcurrent : p.current c = .error .staleCompletion := by
        rw [BufferPool.current, hs]
        exact if_pos hgeneration
      right
      rw [BufferPool.transition, hcurrent]

/-- An operation on a completion that is over fails. -/
theorem BufferPool.apply_of_free (hfree : p.stage c = some .free) (hnamed : op.completion = some c) :
    (p.apply op).1 = .error .invalidTransition ∨ (p.apply op).1 = .error .staleCompletion := by
  have hmap : ∀ {next : SlotState → Option SlotState}, next .free = none →
      (p.transition c next).1.map (fun _ => (none : Option SlotCompletion)) = .error .invalidTransition ∨
        (p.transition c next).1.map (fun _ => (none : Option SlotCompletion)) = .error .staleCompletion := by
    intro next hnext
    exact (p.transition_of_free hfree hnext).imp (fun h => by rw [h]; rfl) fun h => by rw [h]; rfl
  cases op with
  | beginRead i => cases hnamed
  | beginDispatch c' | beginWrites c' count | completeDispatch c' | completeWrite c' | cancel c' =>
    cases hnamed
    exact hmap (by simp)

/-- A completion that is over stays so. -/
theorem PoolInv.stage_free (h : PoolInv p trace) (hfree : p.stage c = some .free) (op : PoolOp) :
    (p.apply op).2.stage c = some .free := by
  have happlied := p.applied op
  generalize (p.apply op).1 = reply at happlied
  generalize (p.apply op).2 = p' at happlied
  cases happlied with
  | refused op e => exact hfree
  | @began i s hslot hslotFree hlimit =>
    rw [BufferPool.stage_began hslot hslotFree, if_neg, hfree]
    intro hc
    rw [BufferPool.stage_eq (s := s) (by rw [hc]; exact hslot), if_pos (.inr (by rw [hc]; exact Nat.lt_succ_self _))]
      at hfree
    cases hfree
  | @moved op c' s state hnamed hslot hcurrent hmoves =>
    have hpos := h.generation_ne_zero hslot hcurrent hmoves
    rw [BufferPool.stage_moved hslot hcurrent hpos, if_neg, hfree]
    rintro rfl
    rw [BufferPool.stage_current hslot hcurrent hpos] at hfree
    exact hmoves.not_free (Option.some.inj hfree)

theorem PoolInv.run_free (h : PoolInv p trace) (hfree : p.stage c = some .free) (ops : List PoolOp) :
    ∀ entry ∈ (p.run ops).1, entry.1.completion = some c →
      entry.2 = .error .invalidTransition ∨ entry.2 = .error .staleCompletion := by
  induction ops generalizing p trace with
  | nil => exact nofun
  | cons op ops ih =>
    intro entry hentry hnamed
    obtain rfl | hlater := List.mem_cons.mp hentry
    · exact p.apply_of_free hfree hnamed
    · exact ih (h.apply op) (h.stage_free hfree op) entry hlater hnamed

/-- A completion that a read returned is of the slot's generation or an earlier one. -/
theorem PoolInv.returned (h : PoolInv p trace) (hread : (.beginRead c.slot, .ok (some c)) ∈ trace) :
    ∃ s, p.slots[c.slot]? = some s ∧ 1 ≤ c.generation ∧ c.generation ≤ s.generation := by
  have hmem : c.generation ∈ generations c.slot trace :=
    List.mem_filterMap.mpr ⟨_, hread, if_pos rfl⟩
  have hcounted := h.slots c.slot
  cases hslot : p.slots[c.slot]? with
  | none =>
    rw [hslot] at hcounted
    rw [show generations c.slot trace = [] from hcounted] at hmem
    cases hmem
  | some s =>
    rw [(h.counted hslot).1, List.mem_range'_1] at hmem
    exact ⟨s, rfl, hmem.1, by omega⟩

theorem PoolInv.counts (h : PoolInv p trace) (slot : Nat) :
    ∃ n ≤ generationLimit, generations slot trace = List.range' 1 n := by
  have hcounted := h.slots slot
  cases hslot : p.slots[slot]? with
  | none =>
    rw [hslot] at hcounted
    exact ⟨0, Nat.zero_le _, hcounted⟩
  | some s =>
    obtain ⟨hgenerations, hlimit, -⟩ := h.counted hslot
    exact ⟨s.generation, hlimit, hgenerations⟩

theorem PoolInv.oneLifecycle (h : PoolInv p trace) (c : SlotCompletion) : OneLifecycle c (succeeded c trace) := by
  have hstage := h.stages c
  cases hstate : p.stage c with
  | none =>
    rw [hstate] at hstage
    rw [show succeeded c trace = [] from hstage]
    exact Stage.reading.oneLifecycle
  | some state =>
    rw [hstate] at hstage
    exact hstage.oneLifecycle

/-- Operations succeed on a completion only after its read. -/
theorem PoolInv.read_of_succeeded (h : PoolInv p trace) (hne : succeeded c trace ≠ []) :
    (.beginRead c.slot, .ok (some c)) ∈ trace := by
  have hstage := h.stages c
  cases hslot : p.slots[c.slot]? with
  | none =>
    rw [show p.stage c = none by rw [BufferPool.stage, hslot]] at hstage
    exact absurd hstage hne
  | some s =>
    rw [BufferPool.stage_eq hslot] at hstage
    split at hstage
    · exact absurd hstage hne
    · rename_i hbegun
      have hmem : c.generation ∈ generations c.slot trace := by
        rw [(h.counted hslot).1, List.mem_range'_1]
        omega
      obtain ⟨⟨op, reply⟩, hentry, heq⟩ := List.mem_filterMap.mp hmem
      split at heq
      · rename_i i c' hread
        cases hread
        split at heq
        · rename_i hi
          have hc : c' = c := by
            have hc' := h.reads i c' hentry
            cases c'
            cases c
            simp_all
          rwa [hi, hc] at hentry
        · cases heq
      · cases heq

/-- A refused operation changes nothing, and no operation changes a slot other than its own. -/
theorem BufferPool.apply_frame (p : BufferPool) (op : PoolOp) :
    (∀ e, (p.apply op).1 = .error e → (p.apply op).2 = p) ∧
      ∀ i, i ≠ op.slot → (p.apply op).2.slots[i]? = p.slots[i]? := by
  have happlied := p.applied op
  generalize (p.apply op).1 = reply at happlied
  generalize (p.apply op).2 = p' at happlied
  cases happlied with
  | refused op e => exact ⟨fun _ _ => rfl, fun _ _ => rfl⟩
  | began => exact ⟨nofun, fun i hi => BufferPool.setSlot_of_ne _ _ hi⟩
  | @moved op c s state hnamed hslot hcurrent hmoves =>
    have hslotOf : op.slot = c.slot := by cases op <;> cases hnamed <;> rfl
    exact ⟨nofun, fun i hi => BufferPool.setSlot_of_ne _ _ (hslotOf ▸ hi)⟩

/-- In every run of a pool: a refused operation changes nothing and no operation changes another slot; the reads of a
slot get the generations 1, 2, 3 and so on up to the largest, after which they fail; the operations that succeed on a
completion make up one life of it, and none does before its read; and once the slot is free again every operation that
names the completion fails, whatever happens to the pool. -/
theorem generations_give_one_lifecycle {count : Nat} {allocated : Bool} {p : BufferPool}
    (hnew : BufferPool.tryNew count allocated = .ok p) (ops : List PoolOp) :
    (∀ op, (∀ e, ((p.run ops).2.apply op).1 = .error e → ((p.run ops).2.apply op).2 = (p.run ops).2) ∧
      ∀ i, i ≠ op.slot → ((p.run ops).2.apply op).2.slots[i]? = (p.run ops).2.slots[i]?) ∧
    (∀ slot, ∃ n ≤ generationLimit, generations slot (p.run ops).1 = List.range' 1 n ∧
      (n = generationLimit → ∀ later, ∃ e, (((p.run ops).2.run later).2.beginRead slot).1 = .error e)) ∧
    (∀ c, OneLifecycle c (succeeded c (p.run ops).1) ∧
      ((.beginRead c.slot, .ok (some c)) ∉ (p.run ops).1 → succeeded c (p.run ops).1 = [])) ∧
    ∀ c s, (.beginRead c.slot, .ok (some c)) ∈ (p.run ops).1 → (p.run ops).2.slots[c.slot]? = some s →
      s.state = .free → ∀ later, ∀ entry ∈ ((p.run ops).2.run later).1, entry.1.completion = some c →
        entry.2 = .error .invalidTransition ∨ entry.2 = .error .staleCompletion := by
  have h := (poolInv_tryNew hnew).run ops
  rw [List.nil_append] at h
  generalize (p.run ops).1 = trace at h ⊢
  generalize (p.run ops).2 = p' at h ⊢
  refine ⟨fun op => p'.apply_frame op, fun slot => ?_, fun c => ?_, fun c s hread hslot hfree later => ?_⟩
  · obtain ⟨n, hn, hgenerations⟩ := h.counts slot
    refine ⟨n, hn, hgenerations, fun hlimit later => ?_⟩
    obtain ⟨e, heq⟩ | ⟨s, hslot, -, hroom, -⟩ := (p'.run later).2.beginRead_cases slot
    · exact ⟨e, by rw [heq]⟩
    · have hafter := ((h.run later).counted hslot).1
      have hlength := congrArg List.length hafter
      rw [generations_append, hgenerations, List.length_append, List.length_range', List.length_range'] at hlength
      omega
  · refine ⟨h.oneLifecycle c, fun hunread => ?_⟩
    by_contra hne
    exact hunread (h.read_of_succeeded hne)
  · obtain ⟨s', hs', hpos, hle⟩ := h.returned hread
    cases hslot.symm.trans hs'
    refine h.run_free ?_ later
    rw [BufferPool.stage_eq hslot, if_neg (by omega), hfree]
    split <;> rfl

/-- A read that was written to one peer, and its slot read again: the first completion is stale. -/
theorem generations_give_one_lifecycle_reused :
    ∃ p, BufferPool.tryNew 1 true = .ok p ∧
      OneLifecycle ⟨0, 1⟩ (succeeded ⟨0, 1⟩
        (p.run [.beginRead 0, .beginDispatch ⟨0, 1⟩, .beginWrites ⟨0, 1⟩ 1, .completeWrite ⟨0, 1⟩]).1) ∧
      ∀ entry ∈ ((p.run [.beginRead 0, .beginDispatch ⟨0, 1⟩, .beginWrites ⟨0, 1⟩ 1, .completeWrite ⟨0, 1⟩]).2.run
          [.beginRead 0, .beginDispatch ⟨0, 1⟩]).1, entry.1.completion = some ⟨0, 1⟩ →
        entry.2 = .error .invalidTransition ∨ entry.2 = .error .staleCompletion := by
  refine ⟨⟨[⟨0, .free⟩]⟩, rfl, ?_⟩
  have hresult := generations_give_one_lifecycle (p := ⟨[⟨0, .free⟩]⟩) (show BufferPool.tryNew 1 true = _ from rfl)
    [.beginRead 0, .beginDispatch ⟨0, 1⟩, .beginWrites ⟨0, 1⟩ 1, .completeWrite ⟨0, 1⟩]
  exact ⟨(hresult.2.2.1 ⟨0, 1⟩).1,
    hresult.2.2.2 ⟨0, 1⟩ ⟨1, .free⟩ (by decide) rfl rfl [.beginRead 0, .beginDispatch ⟨0, 1⟩]⟩

end WinTap.SwitchCore

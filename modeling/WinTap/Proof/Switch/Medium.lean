import Mathlib.Algebra.Order.Group.Multiset
import WinTap.Proof.Switch.RingSteps

/-!
# No frame is changed, doubled or invented on its way through the switch

A frame that a read has returned is in the buffer of that read until its completion is popped; then the switch decides
on it, and it is in the buffer of a write until that write is performed. A buffer belongs to one entry of the ring at a
time, so that nothing else can change what is in it.

The frames are counted with multiplicity. Of what was received, each frame has been through the switch, or is in the
buffer of a read; of what the switch passes on, each has been sent, or is in the buffer of a write. What is missing was
lost, and until shutdown begins nothing is.
-/

namespace WinTap.SwitchRuntime

open SwitchCore Machine

variable {strict : Prop} {s : Process} {after before jobs : List Job} {added : List Entry} {job : Job}
  {resultCode : HResult} {information : Nat} {calls : List Call}
  {into into' lostReads lostWrites out out' : Multiset Transfer} {switch : Switch} {action : MediumAction}
  {ok : Medium → MediumAction → Prop}
variable {c : Config} {fresh : Switch} {m m' : Medium} {r : Runtime} {i index : Nat} {e : Entry}

/-! ### A buffer belongs to one entry -/

theorem RuntimeInv.entries_length_le (h : RuntimeInv c strict r) (i : Nat) : (r.entries i).length ≤ 1 := by
  by_cases hi : i < c.totalDepth
  · obtain ⟨slot, -, hok⟩ := h.slots i hi
    generalize r.entries i = entries at hok
    generalize r.active i = active at hok
    cases hok with
    | idle => exact Nat.zero_le 1
    | built => exact Nat.le_refl 1
    | unbuilt => exact Nat.zero_le 1
  · rw [(h.beyond i (Nat.le_of_not_lt hi)).2.2]
    exact Nat.zero_le 1

theorem RuntimeInv.popped_operation (h : RuntimeInv c strict r) (he : r.ring.submitted[index]? = some e)
    (hon : e.operatesOn i = true) :
    i < c.totalDepth ∧ ∃ operation slot, e = operation.entry i ∧ Popped (r.remove index) i operation slot := by
  have hentry : e ∈ r.entries i := List.mem_filter.mpr ⟨List.mem_append_right _ (List.mem_of_getElem? he), hon⟩
  have hi : i < c.totalDepth := by
    by_contra hge
    rw [(h.beyond i (by omega)).2.2] at hentry
    cases hentry
  obtain ⟨slot, hpool, hok⟩ := h.slots i hi
  generalize hentries : r.entries i = entries at hok hentry
  generalize hactive : r.active i = active at hok
  cases hok with
  | idle hfree => cases hentry
  | unbuilt hmatches hloose => cases hentry
  | @built operation hmatches hqueued =>
    obtain ⟨rfl, hnone⟩ := RuntimeInv.filter_remove_of_pos he hon hentries
    exact ⟨hi, operation, slot, rfl, hactive, hpool, hmatches, hnone⟩

/-- Before shutdown nothing is cancelled. -/
theorem ProcessInv.cancellations_eq_none (h : ProcessInv c s) (hrunning : s.pc.stopping = false) (i : Nat) :
    s.runtime.cancellations i = none := by
  have hpc := h.pc
  have hcancellations : Running s.errors s.runtime := by
    cases hat : s.pc with
    | adaptivePop sawCompletion madeProgress =>
      rw [hat] at hpc
      cases sawCompletion <;> exact hpc.1
    | submitFirst =>
      rw [hat] at hpc
      exact hpc
    | _ =>
      rw [hat] at hpc hrunning
      first
        | exact hpc.1
        | cases hrunning
  exact hcancellations.2 i

theorem ProcessInv.submitted_operates (h : ProcessInv c s) (hrunning : s.pc.stopping = false)
    (he : s.runtime.ring.submitted[index]? = some e) : ∃ i, e.operatesOn i = true := by
  refine e.of_slot.resolve_right ?_
  rintro ⟨i, hi⟩
  have hentry : e ∈ s.runtime.cancelEntries i :=
    List.mem_filter.mpr ⟨List.mem_append_right _ (List.mem_of_getElem? he), hi⟩
  have hcancels := h.runtime.cancels i
  rw [h.cancellations_eq_none hrunning] at hcancels
  generalize s.runtime.cancelEntries i = entries at hcancels hentry
  cases hcancels
  cases hentry

/-! ### The outstanding entries -/

/-- The medium counts the entries that the process has submitted. -/
def Medium.Aligned (m : Medium) : Prop := m.jobs.map Job.entry = m.process.runtime.ring.submitted

theorem map_entry_fresh (entries : List Entry) : (entries.map Job.fresh).map Job.entry = entries := by
  rw [List.map_map]
  exact List.map_id entries

/-- What was built is outstanding, in the order in which it was built. -/
theorem resume_grows {ring : IoRing} {process : Process} (haligned : jobs.map Job.entry = ring.submitted)
    (hgrows : Grows ring added process.runtime.ring) :
    (m.resume jobs process).Aligned ∧
      (m.resume jobs process).outstanding = jobs ++ ring.queue.map Job.fresh ++ added.map Job.fresh := by
  have hlength : jobs.length = ring.submitted.length := by rw [← haligned, List.length_map]
  generalize hring : process.runtime.ring = ring' at hgrows
  unfold Medium.Aligned Medium.outstanding Medium.resume
  dsimp only
  rw [hring, hlength, List.map_append, map_entry_fresh, haligned]
  cases hgrows with
  | keep => simp
  | submit => simp [IoRing.submit]
  | build e => simp [IoRing.build]

/-- Where an entry is among those that are outstanding. -/
theorem outstanding_split (hjob : m.jobs[index]? = some job) :
    ∃ before after, m.outstanding = before ++ job :: after ∧
      (∀ job', m.jobs.set index job' ++ m.process.runtime.ring.queue.map Job.fresh = before ++ job' :: after) ∧
      m.jobs.eraseIdx index ++ m.process.runtime.ring.queue.map Job.fresh = before ++ after := by
  obtain ⟨hlt, rfl⟩ := List.getElem?_eq_some_iff.mp hjob
  refine ⟨m.jobs.take index, m.jobs.drop (index + 1) ++ m.process.runtime.ring.queue.map Job.fresh, ?_, ?_, ?_⟩
  · rw [Medium.outstanding]
    nth_rewrite 1 [← List.take_append_drop index m.jobs]
    rw [List.drop_eq_getElem_cons hlt, List.append_assoc, List.cons_append]
  · intro job'
    rw [List.set_eq_take_append_cons_drop, if_pos hlt, List.append_assoc, List.cons_append]
  · rw [List.eraseIdx_eq_take_drop_succ, List.append_assoc]

theorem others_elsewhere (hinv : RuntimeInv c strict m.process.runtime) (haligned : m.Aligned)
    (hsplit : m.outstanding = before ++ job :: after) (hon : job.entry.operatesOn i = true) :
    ∀ other ∈ before ++ after, other.entry.operatesOn i = false := by
  have hperm : (m.outstanding.map Job.entry).Perm m.process.runtime.ring.outstanding := by
    rw [Medium.outstanding, List.map_append, map_entry_fresh, haligned]
    exact List.perm_append_comm
  have hlength := hinv.entries_length_le i
  rw [Runtime.entries, ← (hperm.filter (Entry.operatesOn i)).length_eq, hsplit, List.map_append, List.map_cons,
    List.filter_append, List.filter_cons_of_pos hon, List.length_append, List.length_cons] at hlength
  intro other hother
  by_contra hsame
  have hkept : other.entry ∈ ((before ++ after).map Job.entry).filter (Entry.operatesOn i) :=
    List.mem_filter.mpr ⟨List.mem_map_of_mem hother, Bool.eq_true_of_not_eq_false hsame⟩
  have hpositive := List.length_pos_of_mem hkept
  rw [List.map_append, List.filter_append, List.length_append] at hpositive
  omega

/-! ### What an entry holds -/

variable {memory memory' : Nat → Nat → UInt8}

theorem holds_congr (h : ∀ i, job.entry.operatesOn i = true → memory' i = memory i) :
    job.returned memory' = job.returned memory ∧ job.owed memory' = job.owed memory := by
  obtain ⟨entry, outcome⟩ := job
  cases entry with
  | read handle buffer length userData =>
    have hbuffer : memory' buffer = memory buffer := h buffer (decide_eq_true rfl)
    cases outcome with
    | none => exact ⟨rfl, rfl⟩
    | some outcome => simp only [Job.returned, Job.owed, hbuffer, and_self]
  | write handle buffer length userData =>
    have hbuffer : memory' buffer = memory buffer := h buffer (decide_eq_true rfl)
    simp only [Job.returned, Job.owed, hbuffer, and_self]
  | cancel => exact ⟨rfl, rfl⟩

theorem filterMap_holds_congr (h : ∀ job ∈ jobs, ∀ i, job.entry.operatesOn i = true → memory' i = memory i) :
    jobs.filterMap (Job.returned memory') = jobs.filterMap (Job.returned memory) ∧
      jobs.filterMap (Job.owed memory') = jobs.filterMap (Job.owed memory) :=
  ⟨List.filterMap_congr fun job hjob => (holds_congr (h job hjob)).1,
    List.filterMap_congr fun job hjob => (holds_congr (h job hjob)).2⟩

theorem returned_fresh (memory : Nat → Nat → UInt8) (e : Entry) : (Job.fresh e).returned memory = none := by
  cases e <;> rfl

theorem filterMap_returned_fresh (jobs : List Job) (entries : List Entry) :
    (jobs ++ entries.map Job.fresh).filterMap (Job.returned memory) = jobs.filterMap (Job.returned memory) := by
  have hnone : (entries.map Job.fresh).filterMap (Job.returned memory) = [] := by
    rw [List.filterMap_map]
    exact List.filterMap_eq_nil_iff.mpr fun e _ => returned_fresh memory e
  rw [List.filterMap_append, hnone, List.append_nil]

theorem owed_plain (he : c.Plain e) : (Job.fresh e).owed memory = none := by
  cases e with
  | read | cancel => rfl
  | write => exact he.elim

/-- An entry that was performed without success holds what it held before. -/
theorem returned_refused (hcode : resultCode ≠ sOk) :
    Job.returned memory ⟨e, some (resultCode, information)⟩ = none := by
  cases e with
  | read => exact if_neg fun hok => hcode hok.1
  | write | cancel => rfl

theorem owed_refused (hcode : resultCode ≠ sOk) :
    Job.owed memory ⟨e, some (resultCode, information)⟩ = (Job.fresh e).owed memory := by
  cases e with
  | write => simp only [Job.owed, Job.fresh, Option.any_some, Option.any_none, hcode, decide_false]
  | read | cancel => rfl

/-- A write that has succeeded holds nothing. -/
theorem owed_sent (hcode : resultCode = sOk) {handle : Handle} {buffer length information : Nat} {userData : UserData} :
    Job.owed memory ⟨.write handle buffer length userData, some (resultCode, information)⟩ = none :=
  if_pos (decide_eq_true hcode)

theorem filterMap_singleton {α β : Type} (f : α → Option β) (x : α) : [x].filterMap f = (f x).toList := by
  rw [List.filterMap_cons]
  cases f x <;> rfl

theorem coe_filterMap_append {α β : Type} (f : α → Option β) (first second : List α) :
    ((first ++ second).filterMap f : Multiset β) = first.filterMap f + second.filterMap f := by
  rw [List.filterMap_append, Multiset.coe_add]

theorem coe_filterMap_split {α β : Type} (f : α → Option β) (before after : List α) (x : α) :
    ((before ++ x :: after).filterMap f : Multiset β) = (f x).toList + (before ++ after).filterMap f := by
  have hcons : ((x :: after).filterMap f : Multiset β) = (f x).toList + after.filterMap f := by
    rw [List.filterMap_cons]
    cases f x with
    | none => exact (zero_add _).symm
    | some y => rfl
  rw [coe_filterMap_append, coe_filterMap_append, hcons]
  ac_rfl

/-! ### The account -/

theorem deliveries_concat (c : Config) (switch : Switch) (calls : List Call) (call : Call) :
    c.deliveries switch (calls ++ [call]) =
      c.deliveries switch calls ++ (c.delivery (switch.afterCalls calls) call).toList := by
  induction calls generalizing switch with
  | nil => exact List.append_nil _
  | cons first rest ih =>
    rw [List.cons_append, Config.deliveries, Config.deliveries, ih, List.append_assoc]
    rfl

theorem afterCalls_concat (switch : Switch) (calls : List Call) (call : Call) :
    switch.afterCalls (calls ++ [call]) = ((switch.afterCalls calls).call call).1 := List.foldl_concat ..

/-- The frames of a run. `calls` are the calls of the switch, oldest first. Of the frames that were received, each is
that of one call, is in the buffer of one read, or was lost; of the frames that the calls pass on, each was sent once,
is in the buffer of one write, or was lost. Before shutdown none was lost. -/
structure FrameAccount (c : Config) (fresh : Switch) (m : Medium) (calls : List Call)
    (lostReads lostWrites : Multiset Transfer) : Prop where
  switch : m.process.switch = none ∧ calls = [] ∨ m.process.switch = some (fresh.afterCalls calls)
  received : (m.received : Multiset Transfer) =
    calls.map c.arrival + m.outstanding.filterMap (Job.returned m.memory) + lostReads
  passedOn : (c.deliveries fresh calls : Multiset Transfer) =
    m.sent + m.outstanding.filterMap (Job.owed m.memory) + lostWrites
  lossless : m.process.pc.stopping = false → lostReads = 0 ∧ lostWrites = 0

structure MediumInv (c : Config) (fresh : Switch) (m : Medium) : Prop where
  aligned : m.Aligned
  /-- A read is of the endpoint of its slot, and as long as its buffer. -/
  reads : ∀ job ∈ m.outstanding, ∀ handle buffer length userData,
    job.entry = .read handle buffer length userData → c.Plain job.entry
  starting : m.process.pc.starting = true → m.process.switch = none
  account : ∃ calls lostReads lostWrites, FrameAccount c fresh m calls lostReads lostWrites

theorem filterMap_owed_plain {entries : List Entry} (hplain : ∀ e ∈ entries, c.Plain e) :
    (entries.map Job.fresh).filterMap (Job.owed memory) = [] := by
  rw [List.filterMap_map]
  exact List.filterMap_eq_nil_iff.mpr fun e he => owed_plain (hplain e he)

theorem MediumInv.quiet (h : MediumInv c fresh m) (hfresh : Switch.fromEndpoints [c.first.id, c.second.id] = .ok fresh)
    {process : Process} (hstep : QuietStep c m.process process)
    (hstops : m.process.pc.stopping = true → process.pc.stopping = true) :
    MediumInv c fresh (m.resume m.jobs process) := by
  obtain ⟨added, hgrows, hplain⟩ := hstep.ring
  obtain ⟨haligned, houtstanding⟩ := resume_grows (m := m) h.aligned hgrows
  obtain ⟨calls, lostReads, lostWrites, haccount⟩ := h.account
  change (m.resume m.jobs process).outstanding = m.outstanding ++ added.map Job.fresh at houtstanding
  refine ⟨haligned, ?_, ?_, calls, lostReads, lostWrites, ?_, ?_, ?_, ?_⟩
  · intro job hjob handle buffer length userData hread
    rw [houtstanding, List.mem_append, List.mem_map] at hjob
    obtain hearlier | ⟨e, he, rfl⟩ := hjob
    · exact h.reads job hearlier handle buffer length userData hread
    · exact hplain e he
  · intro hstarting
    obtain ⟨hbefore, hswitch⟩ := hstep.starting hstarting
    exact hswitch.trans (h.starting hbefore)
  · obtain hsame | ⟨henter, fresh', hfresh', hswitch⟩ := hstep.switch
    · change process.switch = none ∧ _ ∨ process.switch = _
      rw [hsame]
      exact haccount.switch
    · -- the run loop begins with a fresh switch, and there was none before
      have hnone := h.starting (by rw [henter]; rfl)
      obtain ⟨-, rfl⟩ | hsome := haccount.switch
      · cases hfresh.symm.trans hfresh'
        exact .inr hswitch
      · rw [hnone] at hsome
        cases hsome
  · rw [houtstanding]
    change _ = _ + ((m.outstanding ++ _).filterMap (Job.returned m.memory) : Multiset Transfer) + _
    rw [filterMap_returned_fresh]
    exact haccount.received
  · rw [houtstanding]
    change _ = _ + ((m.outstanding ++ _).filterMap (Job.owed m.memory) : Multiset Transfer) + _
    rw [List.filterMap_append, filterMap_owed_plain hplain, List.append_nil]
    exact haccount.passedOn
  · intro hrunning
    refine haccount.lossless (Bool.eq_false_iff.mpr fun hstopping => ?_)
    exact Bool.false_ne_true (hrunning.symm.trans (hstops hstopping))

/-- An entry is popped, and something may be built. What the entry held has gone to the switch, or it was lost; what the
switch passes on is held by an entry that was built, or it was lost. -/
theorem FrameAccount.pop {lostReads lostWrites lostRead lostWrite : Multiset Transfer}
    (h : FrameAccount c fresh m calls lostReads lostWrites) (hsplit : m.outstanding = before ++ job :: after)
    (houtstanding : m'.outstanding = before ++ after ++ added.map Job.fresh) (hmemory : m'.memory = m.memory)
    (hreceived : m'.received = m.received) (hsent : m'.sent = m.sent) (called : Option Call)
    (hswitch : m'.process.switch = none ∧ calls ++ called.toList = [] ∨
      m'.process.switch = some (fresh.afterCalls (calls ++ called.toList)))
    (hreturned : ((job.returned m.memory).toList : Multiset Transfer) = (called.map c.arrival).toList + lostRead)
    (howed : ((job.owed m.memory).toList : Multiset Transfer) +
        (called.bind (c.delivery (fresh.afterCalls calls))).toList =
      (added.map Job.fresh).filterMap (Job.owed m.memory) + lostWrite)
    (hlossless : m'.process.pc.stopping = false → m.process.pc.stopping = false ∧ lostRead = 0 ∧ lostWrite = 0) :
    FrameAccount c fresh m' (calls ++ called.toList) (lostReads + lostRead) (lostWrites + lostWrite) where
  switch := hswitch
  received := by
    have hmap : ((calls ++ called.toList).map c.arrival : Multiset Transfer) =
        calls.map c.arrival + (called.map c.arrival).toList := by
      rw [List.map_append, ← Multiset.coe_add]
      cases called <;> rfl
    rw [hreceived, h.received, hsplit, coe_filterMap_split, hreturned, hmap, hmemory, houtstanding,
      filterMap_returned_fresh]
    ac_rfl
  passedOn := by
    have hdeliveries : (c.deliveries fresh (calls ++ called.toList) : Multiset Transfer) =
        c.deliveries fresh calls + (called.bind (c.delivery (fresh.afterCalls calls))).toList := by
      cases called with
      | none => simp
      | some call =>
        rw [Option.toList_some, deliveries_concat, Option.bind_some, Multiset.coe_add]
    rw [hdeliveries, h.passedOn, hsplit, coe_filterMap_split, hsent, hmemory, houtstanding,
      coe_filterMap_append _ (before ++ after)]
    calc _ = m.sent + ((before ++ after).filterMap (Job.owed m.memory) : Multiset Transfer) + lostWrites +
          ((job.owed m.memory).toList + (called.bind (c.delivery (fresh.afterCalls calls))).toList) := by ac_rfl
      _ = _ := by
        rw [howed]
        ac_rfl
  lossless hrunning := by
    obtain ⟨hbefore, rfl, rfl⟩ := hlossless hrunning
    obtain ⟨rfl, rfl⟩ := h.lossless hbefore
    exact ⟨rfl, rfl⟩

theorem Pc.starting_of_stopping {pc : Pc} (h : pc.stopping = true) : pc.starting = false := by
  cases pc <;> first | rfl | cases h

/-- What becomes of an entry that is popped: what is built after it, the call of the switch, and what is lost. -/
theorem MediumInv.pop_account (h : MediumInv c fresh m) (haccount : FrameAccount c fresh m calls lostReads lostWrites)
    (hjob : m.jobs[index]? = some job) {process : Process} (added : List Entry) (called : Option Call)
    (lostRead lostWrite : Multiset Transfer)
    (hgrows : Grows (m.process.runtime.ring.remove index) added process.runtime.ring)
    (hreads : ∀ e ∈ added, ∀ handle buffer length userData, e = .read handle buffer length userData → c.Plain e)
    (hstarting : process.pc.starting = false)
    (hswitch : process.switch = none ∧ calls ++ called.toList = [] ∨
      process.switch = some (fresh.afterCalls (calls ++ called.toList)))
    (hreturned : ((job.returned m.memory).toList : Multiset Transfer) = (called.map c.arrival).toList + lostRead)
    (howed : ((job.owed m.memory).toList : Multiset Transfer) +
        (called.bind (c.delivery (fresh.afterCalls calls))).toList =
      (added.map Job.fresh).filterMap (Job.owed m.memory) + lostWrite)
    (hlossless : process.pc.stopping = false → m.process.pc.stopping = false ∧ lostRead = 0 ∧ lostWrite = 0) :
    MediumInv c fresh (m.resume (m.jobs.eraseIdx index) process) := by
  obtain ⟨before, after, hsplit, -, herase⟩ := outstanding_split hjob
  have herased : (m.jobs.eraseIdx index).map Job.entry = (m.process.runtime.ring.remove index).submitted := by
    rw [← List.eraseIdx_map, h.aligned]
    rfl
  obtain ⟨haligned, houtstanding⟩ := resume_grows (m := m) herased hgrows
  change _ = m.jobs.eraseIdx index ++ m.process.runtime.ring.queue.map Job.fresh ++ _ at houtstanding
  rw [herase] at houtstanding
  refine ⟨haligned, ?_, ?_, _, _, _,
    haccount.pop hsplit houtstanding rfl rfl rfl called hswitch hreturned howed hlossless⟩
  · intro job' hjob' handle buffer length userData hread
    rw [houtstanding, List.mem_append, List.mem_map] at hjob'
    obtain hearlier | ⟨e, he, rfl⟩ := hjob'
    · refine h.reads job' ?_ handle buffer length userData hread
      rw [hsplit]
      exact List.mem_append.mpr ((List.mem_append.mp hearlier).imp_right (List.mem_cons_of_mem job))
    · exact hreads e he handle buffer length userData hread
  · intro htrue
    exact absurd (hstarting.symm.trans htrue) Bool.false_ne_true

/-- Shutdown pops a completion, and what the entry held is lost. -/
theorem MediumInv.reap (h : MediumInv c fresh m) (hjob : m.jobs[index]? = some job) {process : Process}
    (hring : process.runtime.ring = m.process.runtime.ring.remove index) (hswitch : process.switch = m.process.switch)
    (hstopping : process.pc.stopping = true) : MediumInv c fresh (m.resume (m.jobs.eraseIdx index) process) := by
  obtain ⟨calls, lostReads, lostWrites, haccount⟩ := h.account
  refine h.pop_account haccount hjob [] none (job.returned m.memory).toList (job.owed m.memory).toList (hring ▸ .keep)
    (by simp) (Pc.starting_of_stopping hstopping) ?_ (zero_add _).symm ((add_zero _).trans (zero_add _).symm) ?_
  · rw [hswitch, Option.toList_none, List.append_nil]
    exact haccount.switch
  · intro hrunning
    exact absurd (hstopping.symm.trans hrunning) (by decide)

/-- The handle that a frame arrives at is that of its endpoint. -/
theorem handleOf_endpointForSlot (hids : c.first.id ≠ c.second.id) (i : Nat) :
    c.handleOf (c.endpointForSlot i).id = (c.endpointForSlot i).handle := by
  unfold Config.handleOf Config.endpointForSlot
  split
  · exact if_pos rfl
  · exact if_neg hids.symm

section Processed

variable {operation : ActiveOperation}

theorem entry_write (hwrite : operation.isWrite = true) (i : Nat) :
    operation.entry i = .write operation.handle i operation.length operation.userData := if_pos hwrite

theorem entry_read (hread : operation.isWrite = false) (i : Nat) :
    operation.entry i = .read operation.handle i operation.length operation.userData := if_neg (by simp [hread])

theorem owed_read (hread : operation.isWrite = false) (outcome : Option (HResult × Nat)) :
    Job.owed memory ⟨operation.entry i, outcome⟩ = none := by
  rw [entry_read hread]
  rfl

/-- A read is built for the endpoint that its slot belongs to. -/
theorem MediumInv.read_entry (h : MediumInv c fresh m) {outcome : Option (HResult × Nat)}
    (hjob : m.jobs[index]? = some ⟨operation.entry i, outcome⟩) (hread : operation.isWrite = false) :
    operation.handle = (c.endpointForSlot i).handle ∧ operation.length = c.frameMaximum := by
  have hplain := h.reads _ (List.mem_append_left _ (List.mem_of_getElem? hjob)) _ _ _ _ (entry_read hread i)
  rwa [entry_read hread] at hplain

/-- The frame of a read that has succeeded is that of the call it makes. -/
theorem MediumInv.returned_arrival (h : MediumInv c fresh m) (hids : c.first.id ≠ c.second.id)
    (hjob : m.jobs[index]? = some ⟨operation.entry i, some (resultCode, information)⟩)
    (hread : operation.isWrite = false) (hcode : resultCode = sOk) (hfits : information ≤ c.frameMaximum) :
    Job.returned m.memory ⟨operation.entry i, some (resultCode, information)⟩ =
      some (c.arrival (c.callOf i information (m.memory i))) := by
  obtain ⟨hhandle, hlength⟩ := h.read_entry hjob hread
  have harrival : c.arrival (c.callOf i information (m.memory i)) =
      (operation.handle, bytesOf information (m.memory i)) :=
    Prod.ext ((handleOf_endpointForSlot hids i).trans hhandle.symm) rfl
  rw [entry_read hread, harrival]
  exact if_pos ⟨hcode, hlength ▸ hfits⟩

theorem MediumInv.process (h : MediumInv c fresh m) (hids : c.first.id ≠ c.second.id)
    (hjob : m.jobs[index]? = some ⟨operation.entry i, some (resultCode, information)⟩)
    {process : Process} {switch switch' : Switch} {failed : Prop} (hbefore : m.process.pc.stopping = false)
    (hswitch : m.process.switch = some switch)
    (hhandled : Handled c i operation switch ⟨(operation.entry i).userData, resultCode, information, m.memory i⟩
      (m.process.runtime.ring.remove index) failed process.runtime.ring switch')
    (hafter : process.switch = some switch') (hstopping : process.pc.stopping = false → ¬failed)
    (hstarting : process.pc.starting = false) : MediumInv c fresh (m.resume (m.jobs.eraseIdx index) process) := by
  obtain ⟨calls, lostReads, lostWrites, haccount⟩ := h.account
  have hcalls : switch = fresh.afterCalls calls := by
    obtain ⟨hnone, -⟩ | hsome := haccount.switch
    · rw [hswitch] at hnone
      cases hnone
    · exact Option.some.inj (hswitch.symm.trans hsome)
  subst hcalls
  have hlossless : process.pc.stopping = false →
      m.process.pc.stopping = false ∧ (0 : Multiset Transfer) = 0 ∧ (0 : Multiset Transfer) = 0 :=
    fun _ => ⟨hbefore, rfl, rfl⟩
  -- the switch is not called
  have huncalled : process.switch = some (fresh.afterCalls calls) → process.switch = none ∧ calls ++ [] = [] ∨
      process.switch = some (fresh.afterCalls (calls ++ [])) := fun hsame => .inr (by rwa [List.append_nil])
  -- the switch is called
  have hcalled : ∀ call, process.switch = some ((fresh.afterCalls calls).call call).1 →
      process.switch = none ∧ calls ++ [call] = [] ∨ process.switch = some (fresh.afterCalls (calls ++ [call])) :=
    fun call hnext => .inr (by rwa [afterCalls_concat])
  generalize hring : process.runtime.ring = ring' at hhandled
  cases hhandled with
  | again hcode =>
    refine h.pop_account haccount hjob [operation.entry i] none 0 0 (hring ▸ .build _) ?_ hstarting (huncalled hafter)
      ?_ ?_ hlossless
    · intro e he handle buffer length userData hread
      cases List.mem_singleton.mp he
      exact h.reads _ (List.mem_append_left _ (List.mem_of_getElem? hjob)) handle buffer length userData hread
    · rw [returned_refused hcode]
      rfl
    · rw [owed_refused hcode, List.map_singleton, filterMap_singleton]
      rfl
  | refused hcode hwrite =>
    refine h.pop_account haccount hjob [] none 0 _ (hring ▸ .keep) (by simp) hstarting (huncalled hafter) ?_
      ((add_zero _).trans (zero_add _).symm) fun hrunning => ⟨hbefore, rfl, ?_⟩
    · rw [returned_refused hcode]
      rfl
    · have hread : operation.isWrite = false := Bool.eq_false_iff.mpr fun htrue => hstopping hrunning (hwrite htrue)
      rw [owed_read hread]
      rfl
  | written hcode hwrite hstep =>
    obtain ⟨added, hgrows, hplain⟩ := hstep
    refine h.pop_account haccount hjob added none 0 0 (hring ▸ hgrows) (fun e he _ _ _ _ _ => hplain e he) hstarting
      (huncalled hafter) ?_ ?_ hlossless
    · rw [entry_write hwrite]
      rfl
    · rw [filterMap_owed_plain hplain, entry_write hwrite, owed_sent hcode]
      rfl
  | oversized hread hlarge hstep =>
    obtain ⟨added, hgrows, hplain⟩ := hstep
    refine h.pop_account haccount hjob added none 0 0 (hring ▸ hgrows) (fun e he _ _ _ _ _ => hplain e he) hstarting
      (huncalled hafter) ?_ ?_ hlossless
    · have hlength := (h.read_entry hjob hread).2
      have hnone : ¬(resultCode = sOk ∧ information ≤ operation.length) := fun hok =>
        Nat.not_le.mpr hlarge (hlength ▸ hok.2)
      rw [entry_read hread, Job.returned, if_neg hnone]
      rfl
    · rw [filterMap_owed_plain hplain, owed_read hread]
      rfl
  | dropped hcode hread hfits hnone hstep =>
    obtain ⟨added, hgrows, hplain⟩ := hstep
    refine h.pop_account haccount hjob added (some _) 0 0 (hring ▸ hgrows) (fun e he _ _ _ _ _ => hplain e he)
      hstarting (hcalled _ hafter) ?_ ?_ hlossless
    · rw [h.returned_arrival hids hjob hread hcode hfits]
      rfl
    · rw [filterMap_owed_plain hplain, owed_read hread, Option.bind_some, hnone]
      rfl
  | @passed hcode hread hfits destination hsome ring' hbuilt =>
    have hreturned := h.returned_arrival hids hjob hread hcode hfits
    obtain ⟨userData, hbuild⟩ | ⟨hkeep, hfailed⟩ := hbuilt
    · refine h.pop_account haccount hjob [.write (c.handleOf destination) i information userData] (some _) 0 0
        (hring.trans hbuild ▸ .build _) (by rintro e he _ _ _ _ rfl; simp at he) hstarting (hcalled _ hafter) ?_ ?_
        hlossless
      · rw [hreturned]
        rfl
      · rw [owed_read hread, Option.bind_some, hsome]
        rfl
    · refine h.pop_account haccount hjob [] (some _) 0 {(c.handleOf destination, bytesOf information (m.memory i))}
        (hring.trans hkeep ▸ .keep) (by simp) hstarting (hcalled _ hafter) ?_ ?_
        fun hrunning => absurd hfailed (hstopping hrunning)
      · rw [hreturned]
        rfl
      · rw [owed_read hread, Option.bind_some, hsome]
        rfl

end Processed

/-! ### The kernel -/

/-- The kernel performs an entry: a frame comes into the buffer of a read, or goes out of that of a write. -/
theorem FrameAccount.perform (h : FrameAccount c fresh m calls lostReads lostWrites) {job' : Job}
    (hsplit : m.outstanding = before ++ job :: after) (houtstanding : m'.outstanding = before ++ job' :: after)
    (hprocess : m'.process = m.process)
    (hothers : ∀ other ∈ before ++ after, ∀ i, other.entry.operatesOn i = true → m'.memory i = m.memory i)
    (came went : Option Transfer) (hreceived : m'.received = came.toList ++ m.received)
    (hsent : m'.sent = went.toList ++ m.sent) (hbefore : job.returned m.memory = none)
    (hreturned : job'.returned m'.memory = came)
    (howed : ((job.owed m.memory).toList : Multiset Transfer) = went.toList + (job'.owed m'.memory).toList) :
    FrameAccount c fresh m' calls lostReads lostWrites := by
  obtain ⟨hothersReturned, hothersOwed⟩ := filterMap_holds_congr hothers
  refine ⟨hprocess ▸ h.switch, ?_, ?_, hprocess ▸ h.lossless⟩
  · rw [hreceived, ← Multiset.coe_add, h.received, hsplit, coe_filterMap_split, hbefore, houtstanding,
      coe_filterMap_split, hothersReturned, hreturned]
    change _ + (_ + (0 + _) + _) = _
    rw [zero_add]
    ac_rfl
  · rw [h.passedOn, hsplit, coe_filterMap_split, howed, hsent, ← Multiset.coe_add, houtstanding, coe_filterMap_split,
      hothersOwed]
    ac_rfl

theorem bytesOf_congr {length : Nat} {contents contents' : Nat → UInt8} (h : ∀ k < length, contents' k = contents k) :
    bytesOf length contents' = bytesOf length contents :=
  List.map_congr_left fun k hk => h k (List.mem_range.mp hk)

theorem Medium.perform_process (m : Medium) (index : Nat) (e : Entry) (resultCode : HResult) (information : Nat)
    (data : Nat → UInt8) :
    (m.perform index e resultCode information data).process = m.process ∧
      (m.perform index e resultCode information data).jobs =
        m.jobs.set index ⟨e, some (resultCode, information)⟩ := by
  cases e <;> exact ⟨rfl, rfl⟩

theorem MediumInv.perform (h : MediumInv c fresh m) (hinv : ProcessInv c m.process)
    (hjob : m.jobs[index]? = some (Job.fresh e)) (resultCode : HResult) (information : Nat) (data : Nat → UInt8) :
    MediumInv c fresh (m.perform index e resultCode information data) := by
  obtain ⟨hprocess, hjobs⟩ := m.perform_process index e resultCode information data
  obtain ⟨before, after, hsplit, hset, -⟩ := outstanding_split hjob
  obtain ⟨calls, lostReads, lostWrites, haccount⟩ := h.account
  have helsewhere : ∀ {i}, e.operatesOn i = true → ∀ other ∈ before ++ after, other.entry.operatesOn i = false :=
    fun hon => others_elsewhere hinv.runtime h.aligned hsplit hon
  have houtstanding : (m.perform index e resultCode information data).outstanding =
      before ++ ⟨e, some (resultCode, information)⟩ :: after := by
    rw [Medium.outstanding, hprocess, hjobs, hset]
  refine ⟨?_, ?_, hprocess ▸ h.starting, calls, lostReads, lostWrites, ?_⟩
  · have hentry : (m.jobs.map Job.entry)[index]? = some e := by
      rw [List.getElem?_map, hjob]
      rfl
    obtain ⟨hlt, hsame⟩ := List.getElem?_eq_some_iff.mp hentry
    rw [Medium.Aligned, hprocess, hjobs, List.map_set, ← h.aligned]
    calc (m.jobs.map Job.entry).set index e = (m.jobs.map Job.entry).set index (m.jobs.map Job.entry)[index] := by
          rw [hsame]
      _ = m.jobs.map Job.entry := List.set_getElem_self hlt
  · intro job' hjob' handle buffer length userData hread
    rw [houtstanding, List.mem_append, List.mem_cons] at hjob'
    obtain hbefore | rfl | hafter := hjob'
    · exact h.reads job' (hsplit ▸ List.mem_append_left _ hbefore) handle buffer length userData hread
    · exact h.reads (Job.fresh e) (hsplit ▸ List.mem_append_right _ List.mem_cons_self) handle buffer length userData
        hread
    · exact h.reads job' (hsplit ▸ List.mem_append_right _ (List.mem_cons_of_mem _ hafter)) handle buffer length
        userData hread
  · cases e with
    | read handle buffer length userData =>
      have hothers : ∀ other ∈ before ++ after, ∀ i, other.entry.operatesOn i = true →
          (m.perform index (.read handle buffer length userData) resultCode information data).memory i =
            m.memory i := by
        intro other hother i hon
        refine Function.update_of_ne (fun heq => ?_) _ _
        rw [heq, helsewhere (decide_eq_true rfl) other hother] at hon
        cases hon
      by_cases hok : resultCode = sOk ∧ information ≤ length
      · refine haccount.perform hsplit houtstanding hprocess hothers (some (handle, bytesOf information data)) none
          (if_pos hok) rfl rfl ?_ rfl
        have hbytes : bytesOf information ((m.perform index (.read handle buffer length userData) resultCode information
            data).memory buffer) = bytesOf information data := by
          refine bytesOf_congr fun k hk => ?_
          change Function.update m.memory buffer _ buffer k = _
          rw [Function.update_self]
          exact if_pos (Nat.lt_of_lt_of_le hk hok.2)
        rw [Job.returned, if_pos hok, hbytes]
      · exact haccount.perform hsplit houtstanding hprocess hothers none none (if_neg hok) rfl rfl (if_neg hok) rfl
    | write handle buffer length userData =>
      by_cases hok : resultCode = sOk
      · exact haccount.perform hsplit houtstanding hprocess (fun _ _ _ _ => rfl) none
          (some (handle, bytesOf length (m.memory buffer))) rfl (if_pos hok) rfl rfl
          (by rw [owed_sent hok]; rfl)
      · refine haccount.perform hsplit houtstanding hprocess (fun _ _ _ _ => rfl) none none rfl (if_neg hok) rfl rfl ?_
        rw [owed_refused hok]
        exact (zero_add _).symm
    | cancel handle operation userData =>
      exact haccount.perform hsplit houtstanding hprocess (fun _ _ _ _ => rfl) none none rfl rfl rfl rfl rfl

/-! ### Runs -/

theorem stepMedium_process (hstep : stepMedium c m action = some m') :
    m'.process = m.process ∨ ∃ answer, stepProcess c m.process answer = some m'.process := by
  cases action with
  | answer answer =>
    simp only [stepMedium] at hstep
    split at hstep
    · cases hstep
    · obtain ⟨process, hprocess, rfl⟩ := Option.map_eq_some_iff.mp hstep
      exact .inr ⟨answer, hprocess⟩
  | pop index built =>
    simp only [stepMedium] at hstep
    split at hstep
    swap
    · cases hstep
    split at hstep
    swap
    · cases hstep
    obtain ⟨process, hprocess, rfl⟩ := Option.map_eq_some_iff.mp hstep
    exact .inr ⟨_, hprocess⟩
  | perform index resultCode information data =>
    simp only [stepMedium] at hstep
    split at hstep
    · rename_i entry hjob
      cases hstep
      exact .inl (m.perform_process index entry resultCode information data).1
    · cases hstep

/-- The process beside the kernel takes the steps that it takes alone. -/
theorem MediumReach.process (hreach : MediumReach c ok m) : SwitchReach c Free m.process := by
  refine Reach.simulate (N := switchSystem c) Medium.process ?_ (fun m action m' _ hprocess _ hstep => ?_) hreach
  · rintro _ ⟨memory, rfl⟩
    rfl
  · obtain hsame | ⟨answer, hanswer⟩ := stepMedium_process hstep
    · rwa [hsame]
    · exact .step hprocess trivial hanswer

theorem MediumInv.step (h : MediumInv c fresh m) (hinv : ProcessInv c m.process) (hids : c.first.id ≠ c.second.id)
    (hfresh : Switch.fromEndpoints [c.first.id, c.second.id] = .ok fresh) (hstep : stepMedium c m action = some m') :
    MediumInv c fresh m' := by
  cases action with
  | answer answer =>
    simp only [stepMedium] at hstep
    split at hstep
    · cases hstep
    rename_i hquiet
    obtain ⟨process, hprocess, rfl⟩ := Option.map_eq_some_iff.mp hstep
    exact h.quiet hfresh (stepProcess_quiet (Bool.eq_false_iff.mpr hquiet) hprocess) fun hstopping =>
      (stepProcess_stopsOn hinv hstopping hprocess).stopping
  | pop index built =>
    simp only [stepMedium] at hstep
    split at hstep
    swap
    · cases hstep
    rename_i hpops
    split at hstep
    swap
    · cases hstep
    rename_i e resultCode information hjob
    obtain ⟨process, hprocess, rfl⟩ := Option.map_eq_some_iff.mp hstep
    have he : m.process.runtime.ring.submitted[index]? = some e := by
      rw [← h.aligned, List.getElem?_map, hjob]
      rfl
    cases stepProcess_pops hpops he hprocess with
    | reaped hring hswitch hstopping => exact h.reap hjob hring hswitch hstopping
    | processed hbefore hswitch hcalled hruntime hafter hstopping hstarting =>
      obtain ⟨i, hon⟩ := hinv.submitted_operates hbefore he
      obtain ⟨hi, operation, slot, rfl, hpopped⟩ := hinv.runtime.popped_operation he hon
      have hcontents : (operation.entry i).contents m.memory = m.memory i := by
        unfold ActiveOperation.entry
        split <;> rfl
      rw [hcontents] at hcalled
      refine h.process hids hjob hbefore hswitch ?_ hafter hstopping hstarting
      rw [hruntime, hcalled]
      exact processCompletion_handled hi hpopped (operation.entry_userData i) built
  | perform index resultCode information data =>
    simp only [stepMedium] at hstep
    split at hstep
    · rename_i e hjob
      cases hstep
      exact h.perform hinv hjob resultCode information data
    · cases hstep

theorem MediumInv.start (c : Config) (fresh : Switch) (memory : Nat → Nat → UInt8) :
    MediumInv c fresh (startMedium c memory) where
  aligned := rfl
  reads job hjob := by cases hjob
  starting _ := rfl
  account := ⟨[], 0, 0, .inl ⟨rfl, rfl⟩, rfl, rfl, fun _ => ⟨rfl, rfl⟩⟩

theorem MediumReach.inv (hids : c.first.id ≠ c.second.id)
    (hfresh : Switch.fromEndpoints [c.first.id, c.second.id] = .ok fresh) (hreach : MediumReach c ok m) :
    MediumInv c fresh m := by
  refine Reach.invariant ?_ (fun m action m' hreach hinv _ hstep => ?_) hreach
  · rintro _ ⟨memory, rfl⟩
    exact .start c fresh memory
  · exact hinv.step (SwitchReach.inv (MediumReach.process hreach)) hids hfresh hstep

/-- Whatever the kernel and the driver do: of the frames that were received, each is that of one call of the switch, is
in the buffer of one read, or was lost, and of the frames that the calls pass on, each was sent once and unchanged, is
in the buffer of one write, or was lost. Until shutdown begins nothing is lost. -/
theorem frames_accounted_for (c : Config) (fresh : Switch) (hids : c.first.id ≠ c.second.id)
    (hfresh : Switch.fromEndpoints [c.first.id, c.second.id] = .ok fresh) (m : Medium)
    (hreach : MediumReach c Free m) :
    ∃ calls lostReads lostWrites, FrameAccount c fresh m calls lostReads lostWrites :=
  (MediumReach.inv hids hfresh hreach).account

/-- A frame to all stations comes in at the first endpoint, and the write that passes it on is performed. -/
def passesOn : List MediumAction :=
  startsUp.map .answer ++
  [.perform 0 sOk 60 fun i => if i < 6 then 0xff else 2, .pop 0 sOk, .answer (.pop .empty sOk),
    .answer (.submitted sOk), .perform 1 sOk 60 fun _ => 0]

theorem passesOn_reach : MediumReach (smallConfig false) Free
    ((mediumSystem (smallConfig false)).after (startMedium (smallConfig false) fun _ _ => 0) passesOn) := by
  have hinit : (mediumSystem (smallConfig false)).init (startMedium (smallConfig false) fun _ _ => 0) := ⟨_, rfl⟩
  exact System.reach_after (.init hinit) _

theorem frames_accounted_for_passed :
    let m := (mediumSystem (smallConfig false)).after (startMedium (smallConfig false) fun _ _ => 0) passesOn
    m.received.map Prod.fst = [10] ∧ m.sent.map Prod.fst = [20] ∧ m.process.pc.stopping = false ∧
      ∃ fresh calls lostReads lostWrites, FrameAccount (smallConfig false) fresh m calls lostReads lostWrites := by
  intro m
  have hreach : MediumReach (smallConfig false) Free m := passesOn_reach
  have haccount := frames_accounted_for (smallConfig false) ⟨⟨[1, 2], by decide⟩, .new⟩ (by decide) rfl m hreach
  exact ⟨by decide +kernel, by decide +kernel, by decide +kernel, _, haccount⟩

/-! ### From one endpoint to the other -/

/-- The frames at an endpoint, with multiplicity. -/
def framesAt (handle : Handle) (transfers : Multiset Transfer) : Multiset (List UInt8) :=
  (transfers.filter fun transfer => transfer.1 = handle).map Prod.snd

theorem framesAt_add (handle : Handle) (first second : Multiset Transfer) :
    framesAt handle (first + second) = framesAt handle first + framesAt handle second := by
  rw [framesAt, Multiset.filter_add, Multiset.map_add]
  rfl

theorem framesAt_mono (handle : Handle) {first second : Multiset Transfer} (h : first ≤ second) :
    framesAt handle first ≤ framesAt handle second := Multiset.map_le_map (Multiset.filter_le_filter _ h)

/-- A frame goes from an endpoint of the switch to another one. -/
theorem call_recipients {call : Call} {recipients : List EndpointId} (h : (switch.call call).2 = .ok recipients) :
    call.source ∈ switch.endpoints.endpoints ∧
      ∀ destination ∈ recipients, destination ∈ switch.endpoints.endpoints ∧ destination ≠ call.source := by
  unfold Switch.call Switch.forward at h
  split at h
  swap
  · cases h
  rename_i hsource
  split at h
  · cases h
  cases h
  refine ⟨of_decide_eq_true hsource, fun destination hmem => ?_⟩
  unfold Switch.recipients at hmem
  dsimp only at hmem
  split at hmem
  · split at hmem
    · rename_i hknown
      cases List.mem_singleton.mp hmem
      exact ⟨of_decide_eq_true hknown.2, hknown.1⟩
    · cases hmem
  · obtain ⟨hpeer, hother⟩ := List.mem_filter.mp hmem
    exact ⟨hpeer, of_decide_eq_true hother⟩

theorem call_endpoints (switch : Switch) (call : Call) : (switch.call call).1.endpoints = switch.endpoints := by
  unfold Switch.call Switch.forward
  split
  · split <;> rfl
  · rfl

/-- The frames that go out at one endpoint have come in at the other. -/
structure Crosses (c : Config) (out into : Multiset Transfer) : Prop where
  first : framesAt c.first.handle out ≤ framesAt c.second.handle into
  second : framesAt c.second.handle out ≤ framesAt c.first.handle into

theorem Crosses.none (c : Config) (into : Multiset Transfer) : Crosses c 0 into :=
  ⟨Multiset.zero_le _, Multiset.zero_le _⟩

theorem Crosses.add (h : Crosses c out into) (h' : Crosses c out' into') :
    Crosses c (out + out') (into + into') where
  first := by
    rw [framesAt_add, framesAt_add]
    exact add_le_add h.first h'.first
  second := by
    rw [framesAt_add, framesAt_add]
    exact add_le_add h.second h'.second

theorem Crosses.mono (h : Crosses c out into) (hout : out' ≤ out) (hinto : into ≤ into') : Crosses c out' into' where
  first := ((framesAt_mono _ hout).trans h.first).trans (framesAt_mono _ hinto)
  second := ((framesAt_mono _ hout).trans h.second).trans (framesAt_mono _ hinto)

theorem framesAt_self (handle : Handle) (frame : List UInt8) : framesAt handle {(handle, frame)} = {frame} := by
  rw [framesAt, Multiset.filter_singleton, if_pos rfl, Multiset.map_singleton]

theorem framesAt_of_ne {handle handle' : Handle} (h : handle' ≠ handle) (frame : List UInt8) :
    framesAt handle {(handle', frame)} = 0 := by
  rw [framesAt, Multiset.filter_singleton, if_neg h]
  rfl

theorem delivery_crosses (hids : c.first.id ≠ c.second.id) (hhandles : c.first.handle ≠ c.second.handle)
    (hswitch : switch.endpoints.endpoints = [c.first.id, c.second.id]) (call : Call) :
    Crosses c (c.delivery switch call).toList {c.arrival call} := by
  unfold Config.delivery
  split
  swap
  · exact .none c _
  rename_i destination rest hresult
  obtain ⟨hsource, hrecipients⟩ := call_recipients hresult
  obtain ⟨hdestination, hother⟩ := hrecipients destination List.mem_cons_self
  rw [hswitch, List.mem_pair] at hsource hdestination
  change Crosses c {(c.handleOf destination, call.frame)} {(c.handleOf call.source, call.frame)}
  have hfirst : c.handleOf c.first.id = c.first.handle := if_pos rfl
  have hsecond : c.handleOf c.second.id = c.second.handle := if_neg hids.symm
  obtain hsource | hsource := hsource
  · have hto : destination = c.second.id := hdestination.resolve_left fun hback => hother (hback.trans hsource.symm)
    rw [hsource, hto, hfirst, hsecond]
    refine ⟨?_, ?_⟩
    · rw [framesAt_of_ne hhandles.symm]
      exact Multiset.zero_le _
    · rw [framesAt_self, framesAt_self]
  · have hto : destination = c.first.id := hdestination.resolve_right fun hback => hother (hback.trans hsource.symm)
    rw [hsource, hto, hfirst, hsecond]
    refine ⟨?_, ?_⟩
    · rw [framesAt_self, framesAt_self]
    · rw [framesAt_of_ne hhandles]
      exact Multiset.zero_le _

theorem deliveries_cross (hids : c.first.id ≠ c.second.id) (hhandles : c.first.handle ≠ c.second.handle)
    (hswitch : switch.endpoints.endpoints = [c.first.id, c.second.id]) (calls : List Call) :
    Crosses c (c.deliveries switch calls) (calls.map c.arrival : List Transfer) := by
  induction calls generalizing switch with
  | nil => exact .none c _
  | cons call rest ih =>
    have hrest : (switch.call call).1.endpoints.endpoints = [c.first.id, c.second.id] := by
      rw [call_endpoints, hswitch]
    exact (delivery_crosses hids hhandles hswitch call).add (ih hrest)

/-- The switch sends to an endpoint only what it has received from the other one, unchanged and no more often: it
neither invents, alters nor doubles a frame, and never sends one back. -/
theorem frames_only_cross (c : Config) (hids : c.first.id ≠ c.second.id) (hhandles : c.first.handle ≠ c.second.handle)
    (m : Medium) (hreach : MediumReach c Free m) : Crosses c m.sent m.received := by
  obtain ⟨fresh, hfresh, hendpoints⟩ : ∃ fresh, Switch.fromEndpoints [c.first.id, c.second.id] = .ok fresh ∧
      fresh.endpoints.endpoints = [c.first.id, c.second.id] := ⟨⟨⟨_, by simp⟩, .new⟩, rfl, rfl⟩
  obtain ⟨calls, lostReads, lostWrites, haccount⟩ := (MediumReach.inv hids hfresh hreach).account
  refine (deliveries_cross hids hhandles hendpoints calls).mono ?_ ?_
  · rw [haccount.passedOn, add_assoc]
    exact Multiset.le_add_right _ _
  · rw [haccount.received, add_assoc]
    exact Multiset.le_add_right _ _

theorem frames_only_cross_passed :
    let m := (mediumSystem (smallConfig false)).after (startMedium (smallConfig false) fun _ _ => 0) passesOn
    m.sent.map Prod.fst = [20] ∧ framesAt 20 m.sent ≤ framesAt 10 m.received ∧ framesAt 10 m.sent = 0 := by
  intro m
  have hreach : MediumReach (smallConfig false) Free m := passesOn_reach
  have hcrosses := frames_only_cross (smallConfig false) (by decide) (by decide) m hreach
  refine ⟨by decide +kernel, hcrosses.second, Multiset.le_zero.mp (hcrosses.first.trans (Multiset.le_zero.mpr ?_))⟩
  decide +kernel

end WinTap.SwitchRuntime

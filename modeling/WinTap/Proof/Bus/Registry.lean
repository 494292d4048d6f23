import WinTap.Bus.Manager
import Mathlib.Logic.Relation

/-!
# The registry of the bus

Every section under the bus lock writes to the registry by a short chain of edits, and what an edit may do
is said once: a node enters as creating, moves along the edges of its lifecycle, and leaves from removing
without a PDO. What a section leaves half done is owed by the request in progress.
-/

namespace WinTap.Bus

variable {write : ChildNode → ChildNode} {children children' : List ChildNode} {bus bus' : BusState} {guid : Guid}
  {node : ChildNode} {outcome : Outcome} {th th' : Callback} {mtu : BitVec 32} {call : ManagerCall} {pc pc' : ManagerPc}
  {f : ChildNode → Option ChildNode} {excused : Guid → Prop} {s s' : BusWorld} {a : BusAction}

theorem findChild_writeChild (hwrite : ∀ n, (write n).guid = n.guid) (bus : BusState) (guid guid' : Guid) :
    findChild (writeChild bus guid write) guid' =
      if guid' = guid then (findChild bus guid).map write else findChild bus guid' :=
  Keyed.find_modify hwrite

/-! ### Edits -/

/-- The edges of a lifecycle. -/
inductive LifecycleEdge : ChildLifecycle → ChildLifecycle → Prop
  | stay (l : ChildLifecycle) : LifecycleEdge l l
  | activate : LifecycleEdge .creating .active
  | remove {l : ChildLifecycle} : l = .active ∨ l = .failed → LifecycleEdge l .removing
  | fail (l : ChildLifecycle) : LifecycleEdge l .failed

/-- A node that the registry may hold. -/
structure ValidNode (node : ChildNode) : Prop where
  guid : validGuid node.guid = true
  minimum : minimumMtu ≤ node.mtu
  maximum : node.mtu ≤ maximumMtu
  present : node.lifecycle ≠ .absent

/-- One write to the registry. -/
inductive Edit : List ChildNode → List ChildNode → Prop
  | enter {children : List ChildNode} {node : ChildNode}
      (fresh : Keyed.find ChildNode.guid node.guid children = none) (creating : node.lifecycle = .creating)
      (valid : ValidNode node) : Edit children (node :: children)
  | change {children : List ChildNode} {guid : Guid} {node : ChildNode} {write : ChildNode → ChildNode}
      (found : Keyed.find ChildNode.guid guid children = some node)
      (same : ∀ n, (write n).guid = n.guid ∧ (write n).mtu = n.mtu)
      (edge : LifecycleEdge node.lifecycle (write node).lifecycle) :
      Edit children (Keyed.modify ChildNode.guid guid write children)
  | leave {children : List ChildNode} {guid : Guid} {node : ChildNode}
      (found : Keyed.find ChildNode.guid guid children = some node) (removing : node.lifecycle = .removing)
      (cleaned : node.pdo = none) : Edit children (Keyed.remove ChildNode.guid guid children)

/-- The writes of one section. -/
abbrev Edits : List ChildNode → List ChildNode → Prop := Relation.ReflTransGen Edit

/-- No two nodes have the same GUID, and every node is valid. -/
structure RegistryOk (children : List ChildNode) : Prop where
  distinct : (children.map ChildNode.guid).Nodup
  valid : ∀ node ∈ children, ValidNode node

theorem LifecycleEdge.present {l l' : ChildLifecycle} (h : LifecycleEdge l l') (hl : l ≠ .absent) :
    l' ≠ .absent := by
  cases h with
  | stay => exact hl
  | activate | remove | fail => exact ChildLifecycle.noConfusion

theorem Edit.ok (h : Edit children children') (hok : RegistryOk children) : RegistryOk children' := by
  cases h with
  | enter fresh creating valid =>
    refine ⟨?_, fun n hn => ?_⟩
    · rw [List.map_cons, List.nodup_cons]
      refine ⟨fun hmem => ?_, hok.distinct⟩
      obtain ⟨n, hn, hguid⟩ := List.mem_map.mp hmem
      exact Keyed.find_eq_none.mp fresh n hn hguid
    · obtain rfl | hn := List.mem_cons.mp hn
      · exact valid
      · exact hok.valid n hn
  | change found same edge =>
    refine ⟨?_, fun n hn => ?_⟩
    · rw [Keyed.map_modify fun n => (same n).1]
      exact hok.distinct
    · obtain hn | ⟨n, hfound, rfl⟩ := Keyed.mem_modify hn
      · exact hok.valid n hn
      · obtain rfl := Option.some.inj (found.symm.trans hfound)
        have hvalid := hok.valid _ (Keyed.find_mem found).1
        refine ⟨?_, ?_, ?_, edge.present hvalid.present⟩
        · rw [(same _).1]
          exact hvalid.guid
        · rw [(same _).2]
          exact hvalid.minimum
        · rw [(same _).2]
          exact hvalid.maximum
  | leave found removing cleaned =>
    exact ⟨Keyed.nodup_remove hok.distinct, fun n hn => hok.valid n (Keyed.mem_of_mem_remove hn)⟩

theorem Edits.ok (h : Edits children children') (hok : RegistryOk children) : RegistryOk children' := by
  induction h with
  | refl => exact hok
  | tail _ hedit ih => exact hedit.ok ih

/-- A section that writes to one node. -/
theorem edits_writeChild (found : findChild bus guid = some node)
    (same : ∀ n, (write n).guid = n.guid ∧ (write n).mtu = n.mtu)
    (edge : LifecycleEdge node.lifecycle (write node).lifecycle) :
    Edits bus.children (writeChild bus guid write).children :=
  .single (.change found same edge)

theorem edits_markChildFailure (bus : BusState) (guid : Guid) (status : NtStatus) :
    Edits bus.children (markChildFailure bus guid status).children := by
  unfold markChildFailure
  split
  · exact .refl
  · rename_i found
    exact edits_writeChild found (fun _ => ⟨rfl, rfl⟩) (.fail _)

theorem edits_reclaimRemovedChildWithoutPdo (bus : BusState) (guid : Guid) :
    Edits bus.children (reclaimRemovedChildWithoutPdo bus guid).children := by
  unfold reclaimRemovedChildWithoutPdo
  split
  · exact .refl
  · rename_i found
    split
    · rename_i hremoved
      exact .single (.leave found hremoved.1 hremoved.2)
    · exact .refl

theorem activateChild_edge (node : ChildNode) : LifecycleEdge node.lifecycle (activateChild node).lifecycle := by
  unfold activateChild
  split
  · rename_i hcreated
    rw [hcreated.1]
    exact .activate
  · exact .stay _

theorem activateChild_same (node : ChildNode) :
    (activateChild node).guid = node.guid ∧ (activateChild node).mtu = node.mtu := by
  unfold activateChild
  split <;> exact ⟨rfl, rfl⟩

theorem edits_childRecordFor (bus : BusState) (guid : Guid) :
    Edits bus.children (childRecordFor bus guid).1.children := by
  unfold childRecordFor
  split
  · exact .refl
  · rename_i found
    exact edits_writeChild found activateChild_same (activateChild_edge _)

theorem edits_underLock {π : Type} {refused : π} {body : BusState × π} (hbus : Edits children bus.children)
    (hbody : Edits children body.1.children) : Edits children (underLock bus outcome refused body).1.children := by
  unfold underLock
  split
  · exact hbody
  · exact hbus

/-! ### What the steps write -/

theorem edits_clearPdo (found : findChild bus guid = some node) :
    Edits bus.children (writeChild bus guid clearPdo).children :=
  .single (.change found (fun _ => ⟨rfl, rfl⟩) (.stay _))

theorem edits_evtChildPdoCleanup (bus : BusState) (guid : Guid) (outcome : Outcome) :
    Edits bus.children (evtChildPdoCleanup bus guid outcome).1.children := by
  refine edits_underLock .refl ?_
  split
  · exact .refl
  rename_i node found
  have hclear := edits_clearPdo found
  have hcleared : findChild (writeChild bus guid clearPdo) guid = some (clearPdo node) := by
    rw [findChild_writeChild (fun _ => by rfl), if_pos rfl, found, Option.map_some]
  dsimp only
  split
  · rename_i hremoving
    exact hclear.tail (.leave hcleared hremoving rfl)
  · split
    · exact hclear.trans (edits_writeChild hcleared (fun _ => ⟨rfl, rfl⟩) (.fail _))
    · exact hclear

theorem edits_evtChildListCreateDevice (bus : BusState) (guid : Guid) (outcome : Outcome)
    (pc : CreateDevicePc) :
    Edits bus.children (evtChildListCreateDevice bus guid outcome pc).1.children := by
  cases pc with
  | createPdo =>
    simp only [evtChildListCreateDevice]
    split <;> exact .refl
  | publish pdo =>
    refine edits_underLock .refl ?_
    split
    · exact .refl
    · rename_i found
      exact edits_writeChild found (fun _ => ⟨rfl, rfl⟩) (.stay _)
  | delete locked =>
    simp only [evtChildListCreateDevice]
    split <;> exact edits_evtChildPdoCleanup bus guid outcome
  | markFailure status => exact edits_underLock .refl (edits_markChildFailure bus guid status)
  | _ => exact .refl

theorem edits_stepCallback (h : stepCallback bus outcome th = some (bus', th')) : Edits bus.children bus'.children := by
  cases th with
  | idle => cases h
  | createDevice guid pc =>
    cases h
    exact edits_evtChildListCreateDevice bus guid outcome pc
  | pdoCleanup guid =>
    cases h
    exact edits_evtChildPdoCleanup bus guid outcome

/-- What the checks of a request establish for the section it goes on to. -/
def HandlerOk (call : ManagerCall) : ManagerPc → Prop
  | .create mtu => validGuid call.request.adapterGuid = true ∧ minimumMtu ≤ mtu ∧ mtu ≤ maximumMtu
  | .remove => ManagerOperation.ofCode call.request.operation = some .remove
  | _ => True

theorem effectiveMtu_range {requestedMtu mtu : BitVec 32} (h : effectiveMtu requestedMtu = .ok mtu) :
    minimumMtu ≤ mtu ∧ mtu ≤ maximumMtu := by
  unfold effectiveMtu at h
  split at h
  · cases h
    decide
  · split at h
    · cases h
      assumption
    · cases h

theorem validGuid_of_requestError (h : requestError call = none)
    (hop : ManagerOperation.ofCode call.request.operation = some .create) :
    validGuid call.request.adapterGuid = true := by
  unfold requestError at h
  dsimp only at h
  split at h
  · cases h
  split at h
  · cases h
  split at h
  · cases h
  split at h
  · cases h
  · rename_i hvalid
    by_contra hguid
    refine hvalid (.inr (.inr (.inr (.inr (.inl ⟨?_, .inl (Bool.eq_false_iff.mpr hguid)⟩)))))
    rw [hop]
    decide

/-- Where a request goes on from its checks. -/
inductive Dispatched (call : ManagerCall) : ManagerPc → Prop
  | create {mtu : BitVec 32} (hok : HandlerOk call (.create mtu)) : Dispatched call (.create mtu)
  | remove (hok : HandlerOk call .remove) : Dispatched call .remove
  | enumerate : Dispatched call .enumerate
  | record : Dispatched call .record

theorem Dispatched.ok (h : Dispatched call pc) : HandlerOk call pc := by
  cases h with
  | create hok | remove hok => exact hok
  | enumerate | record => trivial

/-- The checks answer a request without a response, or let it go on to the section of its operation. -/
theorem evtManagerDeviceControl_cases (call : ManagerCall) :
    (∃ status, evtManagerDeviceControl call = .ret (complete call status)) ∨
      ∃ pc, evtManagerDeviceControl call = .run pc ∧ responseBufferError call = none ∧ Dispatched call pc := by
  have hbuffer : ∀ {next}, Dispatched call next →
      (∃ status, withResponseBuffer call next = .ret (complete call status)) ∨
        ∃ pc, withResponseBuffer call next = .run pc ∧ responseBufferError call = none ∧ Dispatched call pc := by
    intro next hnext
    unfold withResponseBuffer
    split
    · exact .inl ⟨_, rfl⟩
    · exact .inr ⟨next, rfl, ‹_›, hnext⟩
  unfold evtManagerDeviceControl
  split
  · exact .inl ⟨_, rfl⟩
  · rename_i herror hop
    split
    · exact .inl ⟨_, rfl⟩
    · rename_i mtu hmtu
      exact hbuffer (.create ⟨validGuid_of_requestError herror hop, effectiveMtu_range hmtu⟩)
  · exact hbuffer (.remove ‹_›)
  · exact hbuffer .enumerate
  · exact hbuffer .record
  · exact .inl ⟨_, rfl⟩

theorem dispatched_of_run (h : evtManagerDeviceControl call = .run pc) :
    responseBufferError call = none ∧ Dispatched call pc := by
  obtain ⟨status, hret⟩ | ⟨pc', hrun, hdispatched⟩ := evtManagerDeviceControl_cases call
  · cases h.symm.trans hret
  · cases h.symm.trans hrun
    exact hdispatched

/-- A creation finds the GUID in use, or enters a node for it. -/
theorem managerCreate_cases (hbus : RegistryOk bus.children) (call : ManagerCall) (mtu : BitVec 32)
    (outcome : Outcome) :
    (∃ answer, managerCreate bus call mtu outcome = (bus, .ret answer)) ∨
      findChild bus call.request.adapterGuid = none ∧ managerCreate bus call mtu outcome =
        ({ bus with children := newChild call.request mtu :: bus.children }, .run (.addDescription mtu)) := by
  unfold managerCreate
  split
  · rename_i existing found
    rw [if_pos (hbus.valid _ (Keyed.find_mem found).1).present]
    exact .inl ⟨_, rfl⟩
  · rename_i fresh
    split
    · exact .inr ⟨fresh, rfl⟩
    · exact .inl ⟨_, rfl⟩

/-- What a removal writes to its node. -/
def markRemoving (call : ManagerCall) (node : ChildNode) : ChildNode :=
  { node with
    lifecycle := .removing
    terminalStatus := statusPending
    requestId := call.request.requestId }

theorem managerRemove_cases (bus : BusState) (call : ManagerCall) :
    (∃ answer, managerRemove bus call = (bus, .ret answer)) ∨
      ∃ node, findChild bus call.request.adapterGuid = some node ∧
        (node.lifecycle = .active ∨ node.lifecycle = .failed) ∧ managerRemove bus call =
          (writeChild bus call.request.adapterGuid (markRemoving call),
            .run (.updateAsMissing node.mtu node.pdo.isNone)) := by
  unfold managerRemove
  split
  · exact .inl ⟨_, rfl⟩
  · rename_i node found
    split
    · exact .inl ⟨_, rfl⟩
    · split
      · exact .inl ⟨_, rfl⟩
      · refine .inr ⟨node, found, ?_, rfl⟩
        cases hlifecycle : node.lifecycle <;> simp_all

theorem edits_managerCreate (hbus : RegistryOk bus.children) (hcall : HandlerOk call (.create mtu))
    (outcome : Outcome) : Edits bus.children (managerCreate bus call mtu outcome).1.children := by
  obtain ⟨answer, hanswer⟩ | ⟨fresh, hentered⟩ := managerCreate_cases hbus call mtu outcome
  · rw [hanswer]
  · rw [hentered]
    exact .single (.enter fresh rfl ⟨hcall.1, hcall.2.1, hcall.2.2, ChildLifecycle.noConfusion⟩)

theorem edits_managerRemove (bus : BusState) (call : ManagerCall) :
    Edits bus.children (managerRemove bus call).1.children := by
  obtain ⟨answer, hanswer⟩ | ⟨node, found, hidle, hremoved⟩ := managerRemove_cases bus call
  · rw [hanswer]
  · rw [hremoved]
    exact edits_writeChild found (fun _ => ⟨rfl, rfl⟩) (.remove hidle)

theorem edits_stepManager (hbus : RegistryOk bus.children) (hcall : HandlerOk call pc) (outcome : Outcome) :
    Edits bus.children (stepManager bus call outcome pc).1.children := by
  cases pc with
  | dispatch => exact .refl
  | create mtu => exact edits_underLock .refl (edits_managerCreate hbus hcall outcome)
  | remove => exact edits_underLock .refl (edits_managerRemove bus call)
  | addDescription mtu | updateAsMissing mtu removeWithoutPdo =>
    simp only [stepManager]
    split <;> exact .refl
  | markFailure status => exact edits_underLock .refl (edits_markChildFailure bus _ status)
  | reclaim => exact edits_underLock .refl (edits_reclaimRemovedChildWithoutPdo bus _)
  | record => exact edits_underLock .refl (edits_childRecordFor bus _)
  | enumerate => exact edits_underLock .refl .refl

/-! ### Runs -/

/-- A request that is past its first section. -/
def ManagerPc.Later : ManagerPc → Prop
  | .dispatch | .create _ | .remove | .enumerate => False
  | _ => True

theorem ManagerPc.Later.ok (h : pc.Later) (call : ManagerCall) : HandlerOk call pc := by
  cases pc <;> trivial

/-- Only the dispatch leads to a first section. -/
theorem stepManager_later (hpc : pc ≠ .dispatch) (h : stepManager bus call outcome pc = (bus', .run pc')) :
    pc'.Later := by
  cases pc with
  | dispatch => exact absurd rfl hpc
  | create mtu =>
    simp only [stepManager, underLock, managerCreate] at h
    repeat' split at h
    all_goals cases h
    all_goals trivial
  | remove =>
    simp only [stepManager, underLock, managerRemove] at h
    repeat' split at h
    all_goals cases h
    trivial
  | addDescription mtu | markFailure status | reclaim | record | enumerate =>
    simp only [stepManager, underLock] at h
    split at h <;> cases h <;> trivial
  | updateAsMissing mtu removeWithoutPdo =>
    simp only [stepManager] at h
    split at h
    · cases h
      cases removeWithoutPdo <;> trivial
    · cases h
      trivial

theorem stepManager_ok (h : stepManager bus call outcome pc = (bus', .run pc')) : HandlerOk call pc' := by
  by_cases hpc : pc = .dispatch
  · subst hpc
    exact (dispatched_of_run (congrArg Prod.snd h)).2.ok
  · exact (stepManager_later hpc h).ok call

/-! ### What a section does to a node -/

/-- A section that touches the node of one GUID only, and makes of it what `f` says. -/
def UpdatesChild (guid : Guid) (f : ChildNode → Option ChildNode) (bus bus' : BusState) : Prop :=
  ∀ g, findChild bus' g = if g = guid then (findChild bus guid).bind f else findChild bus g

theorem UpdatesChild.refl (guid : Guid) (bus : BusState) : UpdatesChild guid some bus bus := by
  intro g
  split
  · rename_i hg
    rw [hg, Option.bind_fun_some]
  · rfl

/-- A section that found no node. -/
theorem UpdatesChild.of_none (hnone : findChild bus guid = none) : UpdatesChild guid f bus bus := by
  intro g
  split
  · rename_i hg
    rw [hg, hnone]
    rfl
  · rfl

theorem updates_writeChild (hwrite : ∀ n, (write n).guid = n.guid) :
    UpdatesChild guid (fun n => some (write n)) bus (writeChild bus guid write) := by
  intro g
  rw [findChild_writeChild hwrite, Option.map_eq_bind]
  rfl

theorem findChild_reclaimChild (hbus : RegistryOk bus.children) (guid guid' : Guid) :
    findChild (reclaimChild bus guid) guid' = if guid' = guid then none else findChild bus guid' :=
  Keyed.find_remove hbus.distinct

theorem updates_markChildFailure (status : NtStatus) :
    UpdatesChild guid (fun n => some (failChild status n)) bus (markChildFailure bus guid status) := by
  unfold markChildFailure
  split
  · rename_i hnone
    exact .of_none hnone
  · exact updates_writeChild fun _ => rfl

/-- A node that was removed and has no PDO leaves. -/
def reclaimNode (node : ChildNode) : Option ChildNode :=
  if node.lifecycle = .removing ∧ node.pdo = none then none else some node

theorem updates_reclaimRemovedChildWithoutPdo (hbus : RegistryOk bus.children) :
    UpdatesChild guid reclaimNode bus (reclaimRemovedChildWithoutPdo bus guid) := by
  unfold reclaimRemovedChildWithoutPdo
  intro g
  split
  · rename_i hnone
    exact UpdatesChild.of_none hnone g
  · rename_i node found
    split
    · rename_i hremoved
      rw [findChild_reclaimChild hbus, found, Option.bind_some, reclaimNode, if_pos hremoved]
    · rename_i hkept
      rw [found, Option.bind_some, reclaimNode, if_neg hkept]
      split
      · rename_i hg
        rw [hg, found]
      · rfl

theorem updates_childRecordFor :
    UpdatesChild guid (fun n => some (activateChild n)) bus (childRecordFor bus guid).1 := by
  unfold childRecordFor
  split
  · rename_i hnone
    exact .of_none hnone
  · exact updates_writeChild fun n => (activateChild_same n).1

/-- What the cleanup of a PDO leaves of its node. -/
def settlePdo (node : ChildNode) : Option ChildNode :=
  if node.lifecycle = .removing then none
  else if node.lifecycle = .creating ∨ node.lifecycle = .active then
    some (failChild statusUnsuccessful (clearPdo node))
  else some (clearPdo node)

theorem updates_evtChildPdoCleanup (hbus : RegistryOk bus.children) :
    UpdatesChild guid (if outcome.acquired then settlePdo else some) bus
      (evtChildPdoCleanup bus guid outcome).1 := by
  unfold evtChildPdoCleanup underLock
  split
  · split
    · rename_i hnone
      exact .of_none hnone
    · rename_i node found
      have hcleared := (edits_clearPdo found).ok hbus
      dsimp only
      intro g
      rw [found, Option.bind_some, settlePdo]
      split
      · rw [findChild_reclaimChild hcleared, findChild_writeChild fun _ => by rfl]
        split <;> rfl
      · split
        · rw [findChild_writeChild (fun _ => by rfl), findChild_writeChild (fun _ => by rfl),
            findChild_writeChild (fun _ => by rfl), if_pos rfl, found]
          split <;> rfl
        · rw [findChild_writeChild (fun _ => by rfl), found]
          rfl
  · exact .refl guid bus

/-- What a step of `evt_child_list_create_device` makes of its node. -/
def createDeviceNode (outcome : Outcome) : CreateDevicePc → ChildNode → Option ChildNode
  | .publish pdo => fun node => some (if outcome.acquired then { node with pdo := some pdo } else node)
  | .delete _ => if outcome.acquired then settlePdo else some
  | .markFailure status => fun node => some (if outcome.acquired then failChild status node else node)
  | _ => some

theorem updates_evtChildListCreateDevice (hbus : RegistryOk bus.children) (pc : CreateDevicePc) :
    UpdatesChild guid (createDeviceNode outcome pc) bus (evtChildListCreateDevice bus guid outcome pc).1 := by
  cases pc with
  | createPdo =>
    simp only [evtChildListCreateDevice]
    split <;> exact UpdatesChild.refl guid bus
  | publish pdo =>
    simp only [evtChildListCreateDevice, underLock, createDeviceNode]
    split
    · split
      · rename_i hnone
        exact UpdatesChild.of_none hnone
      · change UpdatesChild guid _ { bus with pdos := (pdo, guid) :: bus.pdos } _
        exact updates_writeChild fun _ => rfl
    · exact UpdatesChild.refl guid bus
  | delete locked =>
    simp only [evtChildListCreateDevice]
    split <;> exact updates_evtChildPdoCleanup hbus
  | markFailure status =>
    simp only [evtChildListCreateDevice, underLock, createDeviceNode]
    split
    · exact updates_markChildFailure status
    · exact .refl guid bus
  | _ => exact .refl guid bus

/-! ### Nodes without a PDO -/

/-- A node without a PDO is not active, and is being removed only where that is excused. -/
def SettledNode (excused : Prop) (node : ChildNode) : Prop :=
  node.pdo = none → node.lifecycle ≠ .active ∧ (node.lifecycle = .removing → excused)

def Settled (excused : Guid → Prop) (bus : BusState) : Prop :=
  ∀ guid node, findChild bus guid = some node → SettledNode (excused guid) node

variable {excused excused' : Guid → Prop}

theorem Settled.mono (h : Settled excused bus) (hle : ∀ g, excused g → excused' g) :
    Settled excused' bus := fun g node hfound hpdo =>
  ⟨(h g node hfound hpdo).1, fun hremoving => hle g ((h g node hfound hpdo).2 hremoving)⟩

theorem Settled.update (h : Settled excused bus) (hupdates : UpdatesChild guid f bus bus')
    (hle : ∀ g, g ≠ guid → excused g → excused' g)
    (hnode : ∀ n n', SettledNode (excused guid) n → f n = some n' → SettledNode (excused' guid) n') :
    Settled excused' bus' := by
  intro g node hfound
  rw [hupdates] at hfound
  split at hfound
  · rename_i hg
    subst hg
    obtain ⟨old, hold, hnew⟩ := Option.bind_eq_some_iff.mp hfound
    exact hnode old node (h g old hold) hnew
  · rename_i hg
    intro hpdo
    exact ⟨(h g node hfound hpdo).1, fun hremoving => hle g hg ((h g node hfound hpdo).2 hremoving)⟩

theorem SettledNode.failed (e : Prop) (status : NtStatus) (node : ChildNode) :
    SettledNode e (failChild status node) :=
  fun _ => ⟨ChildLifecycle.noConfusion, ChildLifecycle.noConfusion⟩

/-- A failed node is settled, so its GUID needs no excuse. -/
theorem Settled.markChildFailure (h : Settled excused bus) (status : NtStatus) :
    Settled (fun g => excused g ∧ g ≠ guid) (markChildFailure bus guid status) := by
  refine h.update (updates_markChildFailure status) (fun g hg he => ⟨he, hg⟩) fun n n' _ hn' => ?_
  cases hn'
  exact .failed _ status n

/-- So is a node that was reclaimed, or that has its PDO. -/
theorem Settled.reclaimRemovedChildWithoutPdo (h : Settled excused bus) (hbus : RegistryOk bus.children) :
    Settled (fun g => excused g ∧ g ≠ guid) (reclaimRemovedChildWithoutPdo bus guid) := by
  refine h.update (updates_reclaimRemovedChildWithoutPdo hbus) (fun g hg he => ⟨he, hg⟩) ?_
  intro n n' hn hn' hpdo
  unfold reclaimNode at hn'
  split at hn'
  · cases hn'
  · rename_i hkept
    cases hn'
    exact ⟨(hn hpdo).1, fun hremoving => absurd ⟨hremoving, hpdo⟩ hkept⟩

theorem Settled.childRecordFor (h : Settled excused bus) : Settled excused (childRecordFor bus guid).1 := by
  refine h.update updates_childRecordFor (fun g _ => id) fun n n' hn hn' hpdo => ?_
  cases hn'
  unfold activateChild at hpdo ⊢
  split at hpdo
  · rename_i hcreated
    exact absurd hpdo hcreated.2
  · rename_i hcreated
    rw [if_neg hcreated]
    exact hn hpdo

theorem Settled.evtChildPdoCleanup (h : Settled excused bus) (hbus : RegistryOk bus.children) :
    Settled excused (evtChildPdoCleanup bus guid outcome).1 := by
  refine h.update (updates_evtChildPdoCleanup hbus) (fun g _ => id) fun n n' hn hn' => ?_
  split at hn'
  · unfold settlePdo at hn'
    split at hn'
    · cases hn'
    · rename_i hremoving
      split at hn'
      · cases hn'
        exact .failed _ _ _
      · rename_i hother
        cases hn'
        exact fun _ => ⟨fun hactive => hother (.inr hactive), fun hremoved => absurd hremoved hremoving⟩
  · cases hn'
    exact hn

theorem Settled.evtChildListCreateDevice (h : Settled excused bus) (hbus : RegistryOk bus.children)
    (pc : CreateDevicePc) : Settled excused (evtChildListCreateDevice bus guid outcome pc).1 := by
  cases pc with
  | delete locked =>
    simp only [Bus.evtChildListCreateDevice]
    split <;> exact h.evtChildPdoCleanup hbus
  | publish pdo =>
    refine h.update (updates_evtChildListCreateDevice hbus _) (fun g _ => id) fun n n' hn hn' => ?_
    cases hn'
    split
    · exact fun hpdo => (by cases hpdo)
    · exact hn
  | markFailure status =>
    refine h.update (updates_evtChildListCreateDevice hbus _) (fun g _ => id) fun n n' hn hn' => ?_
    cases hn'
    split
    · exact .failed _ _ _
    · exact hn
  | _ =>
    refine h.update (updates_evtChildListCreateDevice hbus _) (fun g _ => id) fun n n' hn hn' => ?_
    cases hn'
    exact hn

theorem Settled.stepCallback (h : Settled excused bus) (hbus : RegistryOk bus.children)
    (hstep : stepCallback bus outcome th = some (bus', th')) : Settled excused bus' := by
  cases th with
  | idle => cases hstep
  | createDevice guid pc =>
    cases hstep
    exact h.evtChildListCreateDevice hbus pc
  | pdoCleanup guid =>
    cases hstep
    exact h.evtChildPdoCleanup hbus

/-- A removal that has not dealt with a node without a PDO yet. -/
def ManagerPc.OwesReclaim : ManagerPc → Prop
  | .updateAsMissing _ true | .markFailure _ | .reclaim => True
  | _ => False

/-- The removal that a GUID is excused by. -/
def Excuses (call : ManagerCall) (pc : ManagerPc) (guid : Guid) : Prop :=
  ManagerOperation.ofCode call.request.operation = some .remove ∧ call.request.adapterGuid = guid ∧
    pc.OwesReclaim

def ExcusesNext (call : ManagerCall) (flow : Flow ManagerPc Answer) (guid : Guid) : Prop :=
  match flow with
  | .run pc => Excuses call pc guid
  | .ret _ => False

theorem Excuses.guid_eq (h : Excuses call pc guid) : call.request.adapterGuid = guid := h.2.1

theorem Settled.managerRemove (h : Settled excused bus) (hcall : HandlerOk call .remove) :
    Settled (fun g => excused g ∨ ExcusesNext call (managerRemove bus call).2 g) (managerRemove bus call).1 := by
  obtain ⟨answer, hanswer⟩ | ⟨node, found, -, hremoved⟩ := managerRemove_cases bus call
  · rw [hanswer]
    exact h.mono fun g => .inl
  · rw [hremoved]
    intro g node' hfound hpdo
    rw [findChild_writeChild (fun _ => by rfl)] at hfound
    split at hfound
    · rename_i hg
      rw [found] at hfound
      cases hfound
      refine ⟨ChildLifecycle.noConfusion, fun _ => .inr ⟨hcall, hg.symm, ?_⟩⟩
      have hnone : node.pdo.isNone = true := Option.isNone_iff_eq_none.mpr hpdo
      rw [hnone]
      trivial
    · exact ⟨(h g node' hfound hpdo).1, fun hremoving => .inl ((h g node' hfound hpdo).2 hremoving)⟩

theorem Settled.managerCreate (h : Settled excused bus) (hbus : RegistryOk bus.children) (outcome : Outcome) :
    Settled excused (managerCreate bus call mtu outcome).1 := by
  obtain ⟨answer, hanswer⟩ | ⟨-, hentered⟩ := managerCreate_cases hbus call mtu outcome
  · rw [hanswer]
    exact h
  · rw [hentered]
    intro g node hfound hpdo
    rw [findChild, Keyed.find_cons] at hfound
    split at hfound
    · cases hfound
      exact ⟨ChildLifecycle.noConfusion, ChildLifecycle.noConfusion⟩
    · exact h g node hfound hpdo

/-- A step of a request adds no more than its own excuse. -/
theorem Settled.stepManager (h : Settled excused bus) (hbus : RegistryOk bus.children) (hcall : HandlerOk call pc)
    (outcome : Outcome) :
    Settled (fun g => excused g ∨ ExcusesNext call (stepManager bus call outcome pc).2 g)
      (stepManager bus call outcome pc).1 := by
  cases pc with
  | dispatch => exact h.mono fun g => .inl
  | create mtu =>
    simp only [Bus.stepManager, underLock]
    split
    · exact (h.managerCreate hbus outcome).mono fun g => .inl
    · exact h.mono fun g => .inl
  | addDescription mtu | updateAsMissing mtu removeWithoutPdo =>
    simp only [Bus.stepManager]
    split <;> exact Settled.mono h fun g => .inl
  | remove =>
    simp only [Bus.stepManager, underLock]
    split
    · exact h.managerRemove hcall
    · exact h.mono fun g => .inl
  | markFailure status =>
    simp only [Bus.stepManager, underLock]
    split
    · exact (h.markChildFailure status).mono fun g hg => .inl hg.1
    · exact h.mono fun g => .inl
  | reclaim =>
    simp only [Bus.stepManager, underLock]
    split
    · exact (h.reclaimRemovedChildWithoutPdo hbus).mono fun g hg => .inl hg.1
    · exact h.mono fun g => .inl
  | record =>
    simp only [Bus.stepManager, underLock]
    split
    · exact h.childRecordFor.mono fun g => .inl
    · exact h.mono fun g => .inl
  | enumerate =>
    simp only [Bus.stepManager, underLock]
    split <;> exact h.mono fun g => .inl

/-- With the lock acquired, the excuse is handed on to the next program counter, or not needed any more. -/
theorem Settled.stepManager_acquired (h : Settled (Excuses call pc) bus) (hbus : RegistryOk bus.children)
    (hcall : HandlerOk call pc) (hacquired : outcome.acquired = true) :
    Settled (ExcusesNext call (Bus.stepManager bus call outcome pc).2)
      (Bus.stepManager bus call outcome pc).1 := by
  have hstep := h.stepManager hbus hcall outcome
  cases pc with
  | updateAsMissing mtu removeWithoutPdo =>
    refine hstep.mono fun g hg => hg.elim (fun hg => ?_) id
    simp only [Bus.stepManager]
    cases removeWithoutPdo with
    | false => exact hg.2.2.elim
    | true => split <;> exact hg
  | markFailure status =>
    simp only [Bus.stepManager, underLock, hacquired, if_true]
    exact (h.markChildFailure status).mono fun g hg => absurd hg.1.guid_eq.symm hg.2
  | reclaim =>
    simp only [Bus.stepManager, underLock, hacquired, if_true]
    exact (h.reclaimRemovedChildWithoutPdo hbus).mono fun g hg => absurd hg.1.guid_eq.symm hg.2
  | _ => exact hstep.mono fun g hg => hg.elim (fun hg => hg.2.2.elim) id

/-! ### Answers -/

/-- An answer that returns no record. -/
def Answer.Recordless (answer : Answer) : Prop :=
  ∀ response, answer.response = some response → response.records = []

/-- A request changes nothing before the end of its first section, and only a request that is past it is
answered with a record. -/
theorem stepManager_recordless {answer : Answer} (h : stepManager bus call outcome pc = (bus', .ret answer))
    (hanswer : answer.Recordless) : ¬pc.Later ∧ bus' = bus := by
  cases pc with
  | dispatch => exact ⟨id, (congrArg Prod.fst h).symm⟩
  | create mtu =>
    simp only [stepManager, underLock, managerCreate] at h
    repeat' split at h
    all_goals cases h
    all_goals exact ⟨id, rfl⟩
  | remove =>
    simp only [stepManager, underLock, managerRemove] at h
    repeat' split at h
    all_goals cases h
    all_goals exact ⟨id, rfl⟩
  | addDescription mtu | updateAsMissing mtu removeWithoutPdo | markFailure status | reclaim =>
    simp only [stepManager, underLock] at h
    split at h <;> cases h
  | record =>
    simp only [stepManager, underLock] at h
    split at h <;> cases h <;> cases hanswer _ rfl
  | enumerate =>
    simp only [stepManager, underLock] at h
    split at h <;> cases h <;> exact ⟨id, rfl⟩

/-! ### Runs -/

/-- What a step of the bus does. -/
inductive BusStep (s : BusWorld) : BusAction → BusWorld → Prop
  | dispatch {call : ManagerCall} (hidle : s.handler = none) :
    BusStep s (.dispatch call) { s with handler := some ⟨call, .dispatch, false⟩ }
  | handle {outcome : Outcome} {handler : Handler} (hhandler : s.handler = some handler)
    (hfree : s.bus.blocks handler.pc.locks outcome = false) :
    BusStep s (.handle outcome) (s.setHandler handler (stepManager s.bus handler.call outcome handler.pc))
  | createDevice {t : ThreadId} {guid : Guid} (hidle : s.thr t = .idle)
    (hdescribed : guid ∈ s.bus.childList.map ChildIdentification.guid) :
    BusStep s (.createDevice t guid) (s.setThread t
      { s.bus with owed := s.bus.owed.filter fun other => other ≠ guid } (.createDevice guid .check))
  | pdoCleanup {t : ThreadId} {pdo : Pdo} {guid : Guid} (hidle : s.thr t = .idle) (hpdo : (pdo, guid) ∈ s.bus.pdos) :
    BusStep s (.pdoCleanup t pdo guid)
      (s.setThread t { s.bus with pdos := s.bus.pdos.erase (pdo, guid) } (.pdoCleanup guid))
  | advance {t : ThreadId} {outcome : Outcome} {bus : BusState} {th : Callback}
    (hfree : s.bus.blocks (s.thr t).locks outcome = false)
    (hcallback : stepCallback s.bus outcome (s.thr t) = some (bus, th)) :
    BusStep s (.advance t outcome) (s.setThread t bus th)
  | forget {guid : Guid} (howed : guid ∉ s.bus.owed) :
    BusStep s (.forget guid) { s with bus.childList := s.bus.childList.filter fun other => other.guid ≠ guid }

theorem stepBus_cases (hstep : stepBus s a = some s') : BusStep s a s' := by
  cases a with
  | dispatch call =>
    simp only [stepBus] at hstep
    split at hstep <;> cases hstep
    exact .dispatch ‹_›
  | handle outcome =>
    obtain ⟨handler, hhandler, hstep⟩ := Option.bind_eq_some_iff.mp hstep
    split at hstep <;> cases hstep
    exact .handle hhandler (Bool.eq_false_iff.mpr ‹_›)
  | createDevice t guid =>
    simp only [stepBus] at hstep
    split at hstep <;> cases hstep
    rename_i hcond
    exact .createDevice hcond.1 hcond.2
  | pdoCleanup t pdo guid =>
    simp only [stepBus] at hstep
    split at hstep <;> cases hstep
    rename_i hcond
    exact .pdoCleanup hcond.1 hcond.2
  | advance t outcome =>
    simp only [stepBus] at hstep
    split at hstep
    · cases hstep
    · rename_i hfree
      obtain ⟨⟨bus', th'⟩, hcallback, rfl⟩ := Option.map_eq_some_iff.mp hstep
      exact .advance (Bool.eq_false_iff.mpr hfree) hcallback
  | forget guid =>
    simp only [stepBus] at hstep
    split at hstep <;> cases hstep
    exact .forget ‹_›

theorem setHandler_bus (s : BusWorld) (handler : Handler) (result : BusState × Flow ManagerPc Answer) :
    (s.setHandler handler result).bus = result.1 ∧ (s.setHandler handler result).thr = s.thr := by
  unfold BusWorld.setHandler
  dsimp only
  split <;> exact ⟨rfl, rfl⟩

/-- What holds in every state of every run. -/
structure BusInv (s : BusWorld) : Prop where
  registry : RegistryOk s.bus.children
  settled : Settled (fun _ => True) s.bus
  handler : ∀ h, s.handler = some h → HandlerOk h.call h.pc ∧ (¬h.pc.Later → h.changed = false)
  answers : ∀ entry ∈ s.answers, entry.1.Recordless → entry.2 = false

theorem BusInv.edits (h : BusInv s) (hstep : stepBus s a = some s') : Edits s.bus.children s'.bus.children := by
  cases stepBus_cases hstep with
  | dispatch | createDevice | pdoCleanup | forget => exact .refl
  | @handle outcome handler hhandler =>
    rw [(setHandler_bus s handler _).1]
    exact edits_stepManager h.registry (h.handler handler hhandler).1 outcome
  | advance _ hcallback => exact edits_stepCallback hcallback

theorem BusInv.step (h : BusInv s) (hstep : stepBus s a = some s') : BusInv s' := by
  have hregistry := (h.edits hstep).ok h.registry
  cases stepBus_cases hstep with
  | dispatch =>
    refine ⟨h.registry, h.settled, fun handler hhandler => ?_, h.answers⟩
    cases hhandler
    exact ⟨trivial, fun _ => rfl⟩
  | createDevice | pdoCleanup | forget => exact ⟨h.registry, h.settled, h.handler, h.answers⟩
  | advance _ hcallback => exact ⟨hregistry, h.settled.stepCallback h.registry hcallback, h.handler, h.answers⟩
  | @handle outcome handler hhandler =>
    obtain ⟨hok, hunchanged⟩ := h.handler handler hhandler
    have hsettled := (h.settled.stepManager h.registry hok outcome).mono fun _ _ => trivial
    rw [(setHandler_bus s handler _).1] at hregistry
    rcases hresult : stepManager s.bus handler.call outcome handler.pc with ⟨bus', pc' | answer⟩
    · rw [hresult] at hregistry hsettled
      refine ⟨hregistry, hsettled, fun next hnext => ?_, h.answers⟩
      cases hnext
      refine ⟨stepManager_ok hresult, fun hearly => ?_⟩
      have hdispatch : handler.pc = .dispatch := by
        by_contra hpc
        exact hearly (stepManager_later hpc hresult)
      have hbus : s.bus = bus' := by
        rw [hdispatch] at hresult
        exact congrArg Prod.fst hresult
      simp [hunchanged (hdispatch ▸ id), hbus]
    · rw [hresult] at hregistry hsettled
      refine ⟨hregistry, hsettled, fun next hnext => (by cases hnext), fun entry hentry hrecordless => ?_⟩
      obtain rfl | hentry := List.mem_cons.mp hentry
      · obtain ⟨hearly, rfl⟩ := stepManager_recordless hresult hrecordless
        simp [hunchanged hearly]
      · exact h.answers entry hentry hrecordless

theorem BusReach.inv {ok : BusWorld → BusAction → Prop} (h : BusReach ok s) : BusInv s := by
  refine h.invariant (fun s hinit => ?_) fun s a s' _ hinv _ hstep => hinv.step hstep
  obtain ⟨hbus, hhandler, hanswers, -⟩ := hinit
  refine ⟨?_, ?_, ?_, ?_⟩
  · rw [hbus]
    exact ⟨List.nodup_nil, fun node hnode => (by cases hnode)⟩
  · rw [hbus]
    intro guid node hfound
    cases hfound
  · rw [hhandler]
    intro handler hnone
    cases hnone
  · rw [hanswers]
    intro entry hentry
    cases hentry

/-- Every acquisition of the bus lock at this step succeeds. -/
def BusAction.Acquires : BusAction → Prop
  | .handle outcome | .advance _ outcome => outcome.acquired = true
  | _ => True

instance (a : BusAction) : Decidable a.Acquires :=
  match a with
  | .handle _ | .advance _ _ => inferInstanceAs (Decidable (_ = _))
  | .dispatch _ | .createDevice _ _ | .pdoCleanup _ _ _ | .forget _ => isTrue trivial

def BusWorld.Excused (s : BusWorld) (guid : Guid) : Prop :=
  ∃ handler, s.handler = some handler ∧ Excuses handler.call handler.pc guid

theorem BusReach.settled {ok : BusWorld → BusAction → Prop} (h : BusReach ok s) (hok : ∀ s a, ok s a → a.Acquires) :
    Settled s.Excused s.bus := by
  refine h.invariant (P := fun s => Settled s.Excused s.bus) (fun s hinit => ?_) ?_
  · rw [hinit.1]
    intro guid node hfound
    cases hfound
  · intro s a s' hreach hsettled haction hstep
    have hinv := BusReach.inv hreach
    have hacquires := hok s a haction
    cases stepBus_cases hstep with
    | dispatch hidle =>
      refine hsettled.mono fun g hg => ?_
      obtain ⟨handler, hhandler, -⟩ := hg
      rw [hidle] at hhandler
      cases hhandler
    | createDevice | pdoCleanup | forget => exact hsettled
    | advance _ hcallback => exact hsettled.stepCallback hinv.registry hcallback
    | @handle outcome handler hhandler =>
      have hexcused : Settled (Excuses handler.call handler.pc) s.bus := by
        refine hsettled.mono fun g hg => ?_
        obtain ⟨handler', hhandler', hg⟩ := hg
        obtain rfl := Option.some.inj (hhandler.symm.trans hhandler')
        exact hg
      have hnext := hexcused.stepManager_acquired hinv.registry (hinv.handler handler hhandler).1 hacquires
      unfold BusWorld.setHandler
      dsimp only
      split
      · rename_i pc hflow
        rw [hflow] at hnext
        exact hnext.mono fun g hg => ⟨_, rfl, hg⟩
      · rename_i answer hflow
        rw [hflow] at hnext
        exact hnext.mono fun g hg => hg.elim

/-- A bus without children and without callbacks. -/
def BusWorld.initial : BusWorld where
  bus := .initial
  handler := none
  thr := fun _ => .idle
  answers := []

theorem BusWorld.initial_reach (ok : BusWorld → BusAction → Prop) : BusReach ok .initial :=
  .init ⟨rfl, rfl, rfl, fun _ => rfl⟩

/-- A well-formed request. -/
def managerCall (operation : BitVec 16) (guid : Guid) : ManagerCall where
  ioctl := managerIoctl
  outputLength := 592
  inputLength := 40
  inputStatus := statusSuccess
  actualInputLength := 40
  outputStatus := statusSuccess
  actualOutputLength := 592
  request :=
    { version := managerProtocolVersion
      operation := operation
      length := 40
      requestId := 1
      adapterGuid := guid
      cursor := 0
      requestedMtu := 0 }

/-- The next step of the request, with a framework call that returns the status. -/
def handleWith (status : NtStatus) : BusAction := .handle ⟨true, true, status⟩

def guidOf (n : BitVec 32) : Guid := ⟨n, 0, 0, .replicate 8 0⟩

def sampleGuid : Guid := ⟨1, 0, 0, .replicate 8 0⟩

/-- A creation whose child list call returns the status. -/
def createWith (status : NtStatus) : List BusAction :=
  [.dispatch (managerCall 1 sampleGuid), handleWith statusSuccess, handleWith statusSuccess,
    handleWith status, handleWith statusSuccess, handleWith statusSuccess]

/-- A creation that the child list takes, but whose PDO the framework cannot create. -/
def createWithoutPdo (guid : Guid) : List BusAction :=
  [.dispatch (managerCall 1 guid), handleWith statusSuccess, handleWith statusSuccess, handleWith statusSuccess,
    handleWith statusSuccess, .createDevice 0 guid, .advance 0 ⟨true, true, statusSuccess⟩,
    .advance 0 ⟨true, true, statusInsufficientResources⟩, .advance 0 ⟨true, true, statusSuccess⟩]

-- Without the lock the reclaim does nothing: the removal is answered, and its node stays behind.
example :
    let s := busSystem.after .initial (createWithoutPdo sampleGuid ++ .dispatch (managerCall 2 sampleGuid) ::
      .replicate 3 (handleWith statusSuccess) ++ [.handle ⟨false, true, statusSuccess⟩, handleWith statusSuccess])
    s.handler = none ∧ s.bus.children.map (fun node => (node.lifecycle, node.pdo)) = [(.removing, none)] := by
  decide +kernel

end WinTap.Bus

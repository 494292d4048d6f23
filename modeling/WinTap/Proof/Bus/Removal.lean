import WinTap.Proof.Bus.Registry

/-!
# Getting rid of a failed child

A node without a PDO that nobody works on has failed. A removal gets rid of it when the child list still has
the description of the child; when it does not, the child list call fails, the node is marked as failed once
more, and nothing can ever remove it. A creation that comes too late with its PDO does more harm: it deletes
the PDO under the bus lock, which the cleanup of the PDO waits for, and the bus answers nothing any more.
-/

namespace WinTap.Bus

variable {th th' : Callback} {call : ManagerCall} {pc pc' : ManagerPc} {bus bus' : BusState} {outcome : Outcome}
  {g guid : Guid} {s s' s₀ : BusWorld} {a : BusAction} {acts : List BusAction}

/-! ### Nodes that are being created -/

/-- A node that is being created and has no PDO yet. -/
def ChildNode.Awaits (node : ChildNode) : Prop :=
  node.lifecycle = .creating ∧ node.pdo = none

def Creating (bus : BusState) (guid : Guid) : Prop :=
  ∃ node, findChild bus guid = some node ∧ node.Awaits

theorem Creating.of_update {f : ChildNode → Option ChildNode} {p : Prop} (hupdates : UpdatesChild guid f bus bus')
    (hnode : ∀ n n', f n = some n' → n'.Awaits → n.Awaits ∧ p) (h : Creating bus' g) :
    Creating bus g ∧ (g = guid → p) := by
  obtain ⟨node, hfound, hawaits⟩ := h
  rw [hupdates] at hfound
  split at hfound
  · rename_i hg
    obtain ⟨old, hold, hnew⟩ := Option.bind_eq_some_iff.mp hfound
    obtain ⟨hbefore, hp⟩ := hnode old node hnew hawaits
    exact ⟨⟨old, hg ▸ hold, hbefore⟩, fun _ => hp⟩
  · rename_i hg
    exact ⟨⟨node, hfound, hawaits⟩, fun heq => absurd heq hg⟩

theorem Creating.of_markChildFailure {status : NtStatus} (h : Creating (markChildFailure bus guid status) g) :
    Creating bus g ∧ (g = guid → False) := by
  refine h.of_update (updates_markChildFailure status) fun n n' hn' hawaits => ?_
  cases hn'
  cases hawaits.1

theorem Creating.of_reclaimRemovedChildWithoutPdo (hbus : RegistryOk bus.children)
    (h : Creating (reclaimRemovedChildWithoutPdo bus guid) g) : Creating bus g := by
  refine (h.of_update (p := True) (updates_reclaimRemovedChildWithoutPdo hbus) ?_).1
  intro n n' hn' hawaits
  unfold reclaimNode at hn'
  split at hn'
  · cases hn'
  · cases hn'
    exact ⟨hawaits, trivial⟩

theorem Creating.of_childRecordFor (h : Creating (childRecordFor bus guid).1 g) : Creating bus g := by
  refine (h.of_update (p := True) updates_childRecordFor fun n n' hn' hawaits => ⟨?_, trivial⟩).1
  cases hn'
  unfold activateChild at hawaits
  split at hawaits
  · cases hawaits.1
  · exact hawaits

theorem Creating.of_evtChildPdoCleanup (hbus : RegistryOk bus.children) (hacquired : outcome.acquired = true)
    (h : Creating (evtChildPdoCleanup bus guid outcome).1 g) : Creating bus g ∧ (g = guid → False) := by
  refine h.of_update (updates_evtChildPdoCleanup hbus) fun n n' hn' hawaits => ?_
  rw [if_pos hacquired, settlePdo] at hn'
  split at hn'
  · cases hn'
  · split at hn'
    · cases hn'
      cases hawaits.1
    · rename_i hother
      cases hn'
      exact absurd (.inl hawaits.1) hother

/-- A creation of the framework that ends has given the node its PDO, or has failed it. -/
theorem Creating.of_evtChildListCreateDevice {pc : CreateDevicePc} (hbus : RegistryOk bus.children)
    (hacquired : outcome.acquired = true) (h : Creating (evtChildListCreateDevice bus guid outcome pc).1 g) :
    Creating bus g ∧ (g = guid → ∃ pc', (evtChildListCreateDevice bus guid outcome pc).2 = .run pc') := by
  have hupdates : UpdatesChild guid (createDeviceNode outcome pc) bus
      (evtChildListCreateDevice bus guid outcome pc).1 := updates_evtChildListCreateDevice hbus pc
  cases pc with
  | check =>
    refine ⟨h, fun hg => ⟨.assign .deviceId, ?_⟩⟩
    obtain ⟨node, hfound, -⟩ := h
    obtain ⟨hnode, hguid⟩ := Keyed.find_mem hfound
    have hvalid := (hbus.valid node hnode).guid
    rw [hguid, hg] at hvalid
    exact if_pos hvalid
  | assign id => exact ⟨h, fun _ => ⟨_, rfl⟩⟩
  | context pdo => exact ⟨h, fun _ => ⟨_, rfl⟩⟩
  | createPdo =>
    simp only [evtChildListCreateDevice] at h ⊢
    split at h <;> rename_i hstatus
    · rw [if_pos hstatus]
      exact ⟨h, fun _ => ⟨_, rfl⟩⟩
    · rw [if_neg hstatus]
      exact ⟨h, fun _ => ⟨_, rfl⟩⟩
  | publish pdo =>
    have hfalse := h.of_update (p := False) hupdates fun n n' hn' hawaits => by
      cases hn'
      simp only [hacquired, if_true] at hawaits
      cases hawaits.2
    exact ⟨hfalse.1, fun hg => (hfalse.2 hg).elim⟩
  | delete locked =>
    have hcleaned : Creating (evtChildPdoCleanup bus guid outcome).1 g := by
      simp only [evtChildListCreateDevice] at h
      split at h <;> exact h
    obtain ⟨hbefore, hfalse⟩ := hcleaned.of_evtChildPdoCleanup hbus hacquired
    exact ⟨hbefore, fun hg => (hfalse hg).elim⟩
  | markFailure status =>
    have hfalse := h.of_update (p := False) hupdates fun n n' hn' hawaits => by
      cases hn'
      simp only [hacquired, if_true] at hawaits
      cases hawaits.1
    exact ⟨hfalse.1, fun hg => (hfalse.2 hg).elim⟩

/-! ### The child list

Only the child list calls of a request change what the framework knows. -/

/-- The section leaves the child list alone. -/
structure KeepsList (bus bus' : BusState) : Prop where
  childList : bus'.childList = bus.childList
  owed : bus'.owed = bus.owed

theorem keepsList_markChildFailure (bus : BusState) (guid : Guid) (status : NtStatus) :
    KeepsList bus (markChildFailure bus guid status) := by
  unfold markChildFailure
  split <;> exact ⟨rfl, rfl⟩

theorem keepsList_reclaimRemovedChildWithoutPdo (bus : BusState) (guid : Guid) :
    KeepsList bus (reclaimRemovedChildWithoutPdo bus guid) := by
  unfold reclaimRemovedChildWithoutPdo
  repeat' split
  all_goals exact ⟨rfl, rfl⟩

theorem keepsList_childRecordFor (bus : BusState) (guid : Guid) :
    KeepsList bus (childRecordFor bus guid).1 := by
  unfold childRecordFor
  split <;> exact ⟨rfl, rfl⟩

theorem keepsList_evtChildPdoCleanup (bus : BusState) (guid : Guid) (outcome : Outcome) :
    KeepsList bus (evtChildPdoCleanup bus guid outcome).1 := by
  simp only [evtChildPdoCleanup, underLock]
  repeat' split
  all_goals exact ⟨rfl, rfl⟩

theorem keepsList_stepCallback (hstep : stepCallback bus outcome th = some (bus', th')) : KeepsList bus bus' := by
  cases th with
  | idle => cases hstep
  | createDevice guid pc =>
    cases hstep
    cases pc with
    | createPdo =>
      simp only [evtChildListCreateDevice]
      split <;> exact ⟨rfl, rfl⟩
    | publish pdo =>
      simp only [evtChildListCreateDevice, underLock]
      repeat' split
      all_goals exact ⟨rfl, rfl⟩
    | delete locked =>
      have hcleaned := keepsList_evtChildPdoCleanup bus guid outcome
      simp only [evtChildListCreateDevice]
      split <;> exact ⟨hcleaned.childList, hcleaned.owed⟩
    | markFailure status =>
      simp only [evtChildListCreateDevice, underLock]
      split
      · exact keepsList_markChildFailure bus guid status
      · exact ⟨rfl, rfl⟩
    | _ => exact ⟨rfl, rfl⟩
  | pdoCleanup guid =>
    cases hstep
    exact keepsList_evtChildPdoCleanup bus guid outcome

/-! ### The lock -/

theorem evtChildPdoCleanup_held (bus : BusState) (guid : Guid) (outcome : Outcome) :
    (evtChildPdoCleanup bus guid outcome).1.held = bus.held := by
  simp only [evtChildPdoCleanup, underLock]
  repeat' split
  all_goals rfl

theorem stepManager_held (bus : BusState) (call : ManagerCall) (outcome : Outcome) (pc : ManagerPc) :
    (stepManager bus call outcome pc).1.held = bus.held := by
  cases pc <;> simp only [stepManager, underLock, managerCreate, managerRemove, markChildFailure,
    reclaimRemovedChildWithoutPdo, childRecordFor]
  all_goals repeat' split
  all_goals rfl

/-- Only a publication that finds its node gone keeps the lock. -/
theorem stepCallback_held (hfree : bus.held = false) (hstep : stepCallback bus outcome th = some (bus', th'))
    (hnode : ∀ guid pdo, th = .createDevice guid (.publish pdo) → findChild bus guid ≠ none) : bus'.held = false := by
  cases th with
  | idle => cases hstep
  | pdoCleanup guid =>
    cases hstep
    exact (evtChildPdoCleanup_held bus guid outcome).trans hfree
  | createDevice guid pc =>
    cases hstep
    cases pc with
    | createPdo =>
      simp only [evtChildListCreateDevice]
      split <;> exact hfree
    | publish pdo =>
      obtain ⟨node, hfound⟩ := Option.ne_none_iff_exists'.mp (hnode guid pdo rfl)
      simp only [evtChildListCreateDevice, underLock, hfound]
      split <;> exact hfree
    | delete locked =>
      simp only [evtChildListCreateDevice]
      split
      · rfl
      · exact (evtChildPdoCleanup_held bus guid outcome).trans hfree
    | markFailure status =>
      simp only [evtChildListCreateDevice, underLock, markChildFailure]
      repeat' split
      all_goals exact hfree
    | _ => exact hfree

/-- The request has yet to describe the child it entered, or to mark it as failed. -/
def ManagerPc.Creates : ManagerPc → Prop
  | .addDescription _ | .markFailure _ => True
  | _ => False

/-- The next step of the request drops the description of its child. -/
def ManagerPc.Drops : ManagerPc → Prop
  | .updateAsMissing _ _ => True
  | _ => False

/-- A child that is being created without a PDO has its creation owed, or someone else at work on it, or the
request itself, which is not about to drop it. -/
def Supervised (bus : BusState) (others : Prop) (mine : Prop) (pc : ManagerPc) (g : Guid) : Prop :=
  Creating bus g → (g ∈ bus.owed ∨ others ∨ mine ∧ pc.Creates) ∧ ¬(mine ∧ pc.Drops)

section
variable {others mine mine' : Prop}

theorem Supervised.next (h : Supervised bus others mine pc g) (hpc : mine → ¬pc.Creates)
    (hcreating : Creating bus' g → Creating bus g) (howed : Creating bus g → g ∈ bus.owed → g ∈ bus'.owed)
    (hpc' : Creating bus' g → mine' → ¬pc'.Drops) : Supervised bus' others mine' pc' g := by
  intro hcreating'
  refine ⟨?_, fun hdrops => hpc' hcreating' hdrops.1 hdrops.2⟩
  obtain howned | hothers | ⟨hmine, hcreates⟩ := (h (hcreating hcreating')).1
  · exact .inl (howed (hcreating hcreating') howned)
  · exact .inr (.inl hothers)
  · exact absurd hcreates (hpc hmine)

end

theorem Dispatched.not_drops (h : Dispatched call pc) : ¬pc.Drops := by
  cases h <;> exact id

/-- A step of the request keeps every creation supervised. A request that is answered is past the last step
at which it works on a creation, as one at its record is. -/
theorem stepManager_supervised {others : Prop} (hbus : RegistryOk bus.children) (hacquired : outcome.acquired = true)
    (h : Supervised bus others (g = call.request.adapterGuid) pc g) :
    Supervised (stepManager bus call outcome pc).1 others (g = call.request.adapterGuid)
      ((stepManager bus call outcome pc).2.on id .record) g := by
  cases pc with
  | dispatch =>
    refine h.next (fun _ => id) id (fun _ => id) fun _ _ => ?_
    simp only [stepManager]
    cases hflow : evtManagerDeviceControl call with
    | run pc => exact (dispatched_of_run hflow).2.not_drops
    | ret answer => exact id
  | create mtu =>
    simp only [stepManager, underLock, hacquired, if_true]
    obtain ⟨answer, hanswer⟩ | ⟨-, hentered⟩ := managerCreate_cases hbus call mtu outcome
    · rw [hanswer]
      exact h.next (fun _ => id) id (fun _ => id) fun _ _ => id
    · rw [hentered]
      by_cases hg : g = call.request.adapterGuid
      · exact fun _ => ⟨.inr (.inr ⟨hg, trivial⟩), fun hdrops => hdrops.2⟩
      · refine h.next (fun _ => id) (fun hcreating => ?_) (fun _ => id) fun _ _ => id
        obtain ⟨node, hfound, hawaits⟩ := hcreating
        rw [findChild, Keyed.find_cons] at hfound
        split at hfound
        · rename_i hentered
          exact absurd hentered.symm hg
        · exact ⟨node, hfound, hawaits⟩
  | addDescription mtu =>
    simp only [stepManager]
    split
    · intro hcreating
      refine ⟨?_, fun hdrops => hdrops.2⟩
      obtain howed | hothers | ⟨hg, -⟩ := (h hcreating).1
      · exact .inl (List.mem_cons_of_mem _ howed)
      · exact .inr (.inl hothers)
      · exact .inl (List.mem_cons.mpr (.inl hg))
    · exact h
  | remove =>
    simp only [stepManager, underLock, hacquired, if_true]
    obtain ⟨answer, hanswer⟩ | ⟨node, -, -, hremoved⟩ := managerRemove_cases bus call
    · rw [hanswer]
      exact h.next (fun _ => id) id (fun _ => id) fun _ _ => id
    · rw [hremoved]
      have hwritten : ∀ hcreating : Creating (writeChild bus call.request.adapterGuid (markRemoving call)) g,
          Creating bus g ∧ (g = call.request.adapterGuid → False) := fun hcreating =>
        hcreating.of_update (updates_writeChild fun _ => by rfl) fun n n' hn' hawaits => by
          cases hn'
          cases hawaits.1
      exact h.next (fun _ => id) (fun hcreating => (hwritten hcreating).1) (fun _ => id)
        fun hcreating hg => ((hwritten hcreating).2 hg).elim
  | updateAsMissing mtu removeWithoutPdo =>
    simp only [stepManager]
    split
    · refine h.next (fun _ => id) id (fun hcreating howed => ?_) fun hcreating hg => ?_
      · refine List.mem_filter.mpr ⟨howed, decide_eq_true fun hg => ?_⟩
        exact (h hcreating).2 ⟨hg, trivial⟩
      · exact absurd ⟨hg, trivial⟩ (h hcreating).2
    · refine h.next (fun _ => id) id (fun _ => id) fun _ _ => id
  | markFailure status =>
    simp only [stepManager, underLock, hacquired, if_true]
    intro hcreating
    obtain ⟨hbefore, hother⟩ := hcreating.of_markChildFailure
    refine ⟨?_, fun hdrops => hdrops.2⟩
    obtain howed | hothers | ⟨hg, -⟩ := (h hbefore).1
    · exact .inl ((keepsList_markChildFailure ..).owed.symm ▸ howed)
    · exact .inr (.inl hothers)
    · exact (hother hg).elim
  | reclaim =>
    simp only [stepManager, underLock, hacquired, if_true]
    refine h.next (fun _ => id) (fun hcreating => hcreating.of_reclaimRemovedChildWithoutPdo hbus)
      (fun _ howed => ?_) fun _ _ => id
    rwa [(keepsList_reclaimRemovedChildWithoutPdo ..).owed]
  | record =>
    simp only [stepManager, underLock, hacquired, if_true]
    refine h.next (fun _ => id) Creating.of_childRecordFor (fun _ howed => ?_) fun _ _ => id
    rwa [(keepsList_childRecordFor ..).owed]
  | enumerate =>
    simp only [stepManager, underLock, hacquired, if_true]
    exact h.next (fun _ => id) id (fun _ => id) fun _ _ => id

/-- The child that a callback creates a PDO for. -/
def Callback.creates : Callback → Option Guid
  | .createDevice guid _ => some guid
  | _ => none

/-- The framework is creating a PDO of the child. -/
def BusWorld.InCreation (s : BusWorld) (guid : Guid) : Prop :=
  ∃ t, (s.thr t).creates = some guid

/-- Every creation is supervised, with or without a request in progress. -/
def BusWorld.Supervised (s : BusWorld) : Prop :=
  ∀ g, match s.handler with
    | none => Bus.Supervised s.bus (s.InCreation g) False .record g
    | some handler =>
      Bus.Supervised s.bus (s.InCreation g) (g = handler.call.request.adapterGuid) handler.pc g

theorem BusWorld.Supervised.frame (h : s.Supervised) (hhandler : s'.handler = s.handler)
    (hstep : ∀ g, Creating s'.bus g → Creating s.bus g ∧
      (g ∈ s.bus.owed ∨ s.InCreation g → g ∈ s'.bus.owed ∨ s'.InCreation g)) : s'.Supervised := by
  have hframe : ∀ g mine pc, Bus.Supervised s.bus (s.InCreation g) mine pc g →
      Bus.Supervised s'.bus (s'.InCreation g) mine pc g := by
    intro g mine pc hg hcreating
    obtain ⟨hbefore, hkept⟩ := hstep g hcreating
    refine ⟨?_, (hg hbefore).2⟩
    obtain howed | hothers | hmine := (hg hbefore).1
    · exact (hkept (.inl howed)).imp_right .inl
    · exact (hkept (.inr hothers)).imp_right .inl
    · exact .inr (.inr hmine)
  intro g
  have hg := h g
  rw [hhandler]
  split <;> rename_i hsome <;> rw [hsome] at hg <;> exact hframe g _ _ hg

/-- A callback that stops working on a creation has finished it. -/
theorem Creating.of_stepCallback (hbus : RegistryOk bus.children) (hacquired : outcome.acquired = true)
    (hstep : stepCallback bus outcome th = some (bus', th')) (h : Creating bus' g) :
    Creating bus g ∧ (th.creates = some g → th'.creates = some g) := by
  cases th with
  | idle => cases hstep
  | createDevice guid pc =>
    cases hstep
    obtain ⟨hbefore, hrun⟩ := h.of_evtChildListCreateDevice hbus hacquired
    refine ⟨hbefore, fun hcreates => ?_⟩
    obtain ⟨pc', hpc'⟩ := hrun (Option.some.inj hcreates).symm
    rw [hpc']
    exact hcreates
  | pdoCleanup guid =>
    cases hstep
    exact ⟨(h.of_evtChildPdoCleanup hbus hacquired).1, fun hcreates => (by cases hcreates)⟩

theorem BusReach.supervised {ok : BusWorld → BusAction → Prop} (h : BusReach ok s) (hok : ∀ s a, ok s a → a.Acquires) :
    s.Supervised := by
  refine h.invariant (P := BusWorld.Supervised) (fun s hinit => ?_) ?_
  · intro g
    rw [hinit.2.1]
    rintro ⟨node, hfound, -⟩
    rw [hinit.1] at hfound
    cases hfound
  · intro s a s' hreach hbefore haction hstep
    have hbus := (BusReach.inv hreach).registry
    have hacquires := hok s a haction
    cases stepBus_cases hstep with
    | dispatch hidle =>
      intro g
      have hg := hbefore g
      rw [hidle] at hg
      exact hg.next False.elim id (fun _ => id) fun _ _ => id
    | @createDevice t guid hidle =>
      refine hbefore.frame rfl fun g hcreating => ⟨hcreating, fun hpending => ?_⟩
      by_cases hg : g = guid
      · exact .inr (Machine.exists_update_self (congrArg some hg.symm))
      · refine hpending.imp (fun howed => List.mem_filter.mpr ⟨howed, decide_eq_true hg⟩) fun hothers => ?_
        exact Machine.exists_update hothers fun hcreates => by rw [hidle] at hcreates; cases hcreates
    | pdoCleanup hidle =>
      refine hbefore.frame rfl fun g hcreating => ⟨hcreating, fun hpending => hpending.imp_right fun hothers => ?_⟩
      exact Machine.exists_update hothers fun hcreates => by rw [hidle] at hcreates; cases hcreates
    | forget => exact hbefore.frame rfl fun g hcreating => ⟨hcreating, id⟩
    | advance _ hcallback =>
      refine hbefore.frame rfl fun g hcreating => ?_
      obtain ⟨hcreating, hcreates⟩ := Creating.of_stepCallback hbus hacquires hcallback hcreating
      refine ⟨hcreating, fun hpending => hpending.imp (fun howed => ?_) fun hothers => ?_⟩
      · exact (keepsList_stepCallback hcallback).owed.symm ▸ howed
      · exact Machine.exists_update hothers hcreates
    | @handle outcome handler hhandler =>
      intro g
      have hg := hbefore g
      rw [hhandler] at hg
      have hnext := stepManager_supervised hbus hacquires hg
      rcases hresult : stepManager s.bus handler.call outcome handler.pc with ⟨bus', pc' | answer⟩
      · rw [hresult] at hnext
        exact hnext
      · rw [hresult] at hnext
        exact hnext.next (fun _ => id) id (fun _ => id) fun _ => False.elim

/-! ### Removing a child that failed -/

/-- The child list has a description of the child. -/
def Described (bus : BusState) (guid : Guid) : Prop :=
  guid ∈ bus.childList.map ChildIdentification.guid

instance (bus : BusState) (guid : Guid) : Decidable (Described bus guid) :=
  inferInstanceAs (Decidable (_ ∈ _))

/-- What `WdfChildListUpdateChildDescriptionAsMissing` returns. -/
def missingStatus (bus : BusState) (guid : Guid) : NtStatus :=
  if Described bus guid then statusSuccess else statusNoSuchDevice

instance (pc : ManagerPc) : Decidable pc.Drops :=
  match pc with
  | .updateAsMissing _ _ => isTrue trivial
  | .dispatch | .create _ | .addDescription _ | .remove | .markFailure _ | .reclaim | .record
  | .enumerate => isFalse id

/-- What is assumed of the framework: the bus lock is acquired whenever it is asked for, and a description is
dropped if the child list has it. -/
def Conforms (s : BusWorld) : BusAction → Prop
  | .handle outcome =>
    outcome.acquired = true ∧ ∀ handler ∈ s.handler, handler.pc.Drops →
      outcome.status = missingStatus s.bus handler.call.request.adapterGuid
  | .advance _ outcome => outcome.acquired = true
  | _ => True

instance (s : BusWorld) (a : BusAction) : Decidable (Conforms s a) :=
  match a with
  | .handle _ => inferInstanceAs (Decidable (_ ∧ _))
  | .advance _ _ => inferInstanceAs (Decidable (_ = _))
  | .dispatch _ | .createDevice _ _ | .pdoCleanup _ _ _ | .forget _ => isTrue trivial

theorem Conforms.acquires (h : Conforms s a) : a.Acquires := by
  cases a with
  | handle outcome => exact h.1
  | _ => exact h

/-- The GUID has a node without a PDO, and nobody is at work: no request is in progress, no PDO of the child
is being created, and the framework owes it none. -/
structure BusWorld.Quiet (s : BusWorld) (guid : Guid) : Prop where
  handler : s.handler = none
  owed : guid ∉ s.bus.owed
  idle : ¬s.InCreation guid
  node : ∃ node, findChild s.bus guid = some node ∧ node.pdo = none

/-- A failed node without a PDO. -/
def ChildNode.Abandoned (node : ChildNode) : Prop := node.lifecycle = .failed ∧ node.pdo = none

/-- Nothing but a failure leaves a node without a PDO behind. -/
theorem BusWorld.Quiet.abandoned (hquiet : s.Quiet guid) (hreach : BusReach Conforms s) :
    ∃ node, findChild s.bus guid = some node ∧ node.Abandoned := by
  obtain ⟨node, hfound, hpdo⟩ := hquiet.node
  refine ⟨node, hfound, ?_, hpdo⟩
  have hsettled := BusReach.settled hreach (fun _ _ => Conforms.acquires) guid node hfound hpdo
  cases hlifecycle : node.lifecycle with
  | absent =>
    exact absurd hlifecycle ((BusReach.inv hreach).registry.valid node (Keyed.find_mem hfound).1).present
  | creating =>
    have hsupervised := BusReach.supervised hreach (fun _ _ => Conforms.acquires) guid
    rw [hquiet.handler] at hsupervised
    obtain howed | hothers | ⟨hmine, -⟩ := (hsupervised ⟨node, hfound, hlifecycle, hpdo⟩).1
    · exact absurd howed hquiet.owed
    · exact absurd hothers hquiet.idle
    · exact hmine.elim
  | active => exact absurd hlifecycle hsettled.1
  | removing =>
    obtain ⟨handler, hhandler, -⟩ := hsettled.2 hlifecycle
    rw [hquiet.handler] at hhandler
    cases hhandler
  | failed => rfl

/-- What a removal of an abandoned node finds at each of its steps. -/
def ManagerPc.Expects : ManagerPc → Option ChildNode → Prop
  | .dispatch, found | .remove, found => ∃ node, found = some node ∧ node.Abandoned
  | .updateAsMissing _ removeWithoutPdo, found =>
    removeWithoutPdo = true ∧ ∀ node ∈ found, node.lifecycle = .removing ∧ node.pdo = none
  | .reclaim, found => ∀ node ∈ found, node.lifecycle = .removing ∧ node.pdo = none
  | .record, found => found = none
  | .create _, _ | .addDescription _, _ | .markFailure _, _ | .enumerate, _ => False

/-- The description of the child is still to be dropped. -/
def ManagerPc.Undropped : ManagerPc → Prop
  | .dispatch | .remove | .updateAsMissing _ _ => True
  | _ => False

/-- A PDO that is cleaned up meanwhile changes nothing about it. -/
theorem ManagerPc.Expects.settlePdo {found : Option ChildNode} (h : pc.Expects found) :
    pc.Expects (found.bind settlePdo) := by
  have hfailed : (∃ node, found = some node ∧ node.Abandoned) →
      ∃ node, found.bind Bus.settlePdo = some node ∧ node.Abandoned := by
    rintro ⟨node, rfl, hlifecycle, hpdo⟩
    refine ⟨clearPdo node, ?_, hlifecycle, rfl⟩
    simp [Bus.settlePdo, hlifecycle]
  have hremoving : (∀ node ∈ found, node.lifecycle = .removing ∧ node.pdo = none) →
      found.bind Bus.settlePdo = none := by
    intro hall
    cases found with
    | none => rfl
    | some node => exact if_pos (hall node rfl).1
  cases pc with
  | dispatch | remove => exact hfailed h
  | updateAsMissing mtu removeWithoutPdo =>
    refine ⟨h.1, ?_⟩
    rw [hremoving h.2]
    exact fun node hnode => (by cases hnode)
  | reclaim =>
    rw [ManagerPc.Expects, hremoving h]
    exact fun node hnode => (by cases hnode)
  | record =>
    rw [ManagerPc.Expects] at h
    rw [h]
    rfl
  | _ => exact h.elim

theorem findChild_managerRemove_abandoned {node : ChildNode}
    (hfound : findChild bus call.request.adapterGuid = some node) (hnode : node.Abandoned) :
    managerRemove bus call = (writeChild bus call.request.adapterGuid (markRemoving call),
      .run (.updateAsMissing node.mtu true)) := by
  simp only [managerRemove, hfound, hnode.1, hnode.2]
  rfl

theorem stepManager_expects (hbus : RegistryOk bus.children) (hcall : evtManagerDeviceControl call = .run .remove)
    (hacquired : outcome.acquired = true)
    (hstatus : pc.Drops → outcome.status = missingStatus bus call.request.adapterGuid)
    (hdescribed : pc.Undropped → Described bus call.request.adapterGuid)
    (h : pc.Expects (findChild bus call.request.adapterGuid)) : let result := stepManager bus call outcome pc
    (result.2.on id .record).Expects (findChild result.1 call.request.adapterGuid) ∧
      ((result.2.on id .record).Undropped → Described result.1 call.request.adapterGuid) := by
  cases pc with
  | dispatch =>
    simp only [stepManager, hcall]
    exact ⟨h, fun _ => hdescribed trivial⟩
  | remove =>
    obtain ⟨node, hfound, hnode⟩ := h
    simp only [stepManager, underLock, hacquired, if_true]
    rw [findChild_managerRemove_abandoned hfound hnode]
    refine ⟨⟨rfl, fun node' hnode' => ?_⟩, fun _ => hdescribed trivial⟩
    rw [findChild_writeChild (fun _ => by rfl), if_pos rfl, hfound] at hnode'
    cases hnode'
    exact ⟨rfl, hnode.2⟩
  | updateAsMissing mtu removeWithoutPdo =>
    have hsuccess : outcome.status = statusSuccess := by
      rw [hstatus trivial, missingStatus, if_pos (hdescribed trivial)]
    obtain ⟨rfl, hremoving⟩ := h
    simp only [stepManager, hsuccess, if_true]
    exact ⟨hremoving, False.elim⟩
  | reclaim =>
    simp only [stepManager, underLock, hacquired, if_true]
    refine ⟨?_, False.elim⟩
    change findChild _ _ = none
    rw [updates_reclaimRemovedChildWithoutPdo hbus, if_pos rfl]
    cases hfound : findChild bus call.request.adapterGuid with
    | none => rfl
    | some node => exact if_pos (h node hfound)
  | record =>
    simp only [stepManager, underLock, hacquired, if_true]
    refine ⟨?_, False.elim⟩
    have hnone : findChild bus call.request.adapterGuid = none := h
    change findChild _ _ = none
    rw [updates_childRecordFor, if_pos rfl, hnone]
    rfl
  | _ => exact h.elim

/-- The callback creates the child and comes to the section in which it publishes the PDO or marks the node as failed;
or it creates another child, which is gone when it publishes the PDO. -/
def Callback.Disturbs (bus : BusState) (guid : Guid) : Callback → Prop
  | .createDevice g (.publish _) => g = guid ∨ findChild bus g = none
  | .createDevice g (.markFailure _) => g = guid ∧ findChild bus g ≠ none
  | _ => False

/-- What would disturb a removal: another request, a framework that drops the description itself, or a creation. -/
def BusAction.Disturbs (guid : Guid) (s : BusWorld) : BusAction → Prop
  | .dispatch _ => True
  | .forget g => g = guid ∧ Described s.bus guid
  | .advance t _ => (s.thr t).Disturbs s.bus guid
  | .createDevice _ _ | .handle _ | .pdoCleanup _ _ _ => False

def Undisturbed (guid : Guid) (s : BusWorld) (a : BusAction) : Prop :=
  Conforms s a ∧ ¬a.Disturbs guid s

/-- The removal is on its way, or has been answered and the node is gone. -/
structure Recovering (call : ManagerCall) (s : BusWorld) : Prop where
  registry : RegistryOk s.bus.children
  free : s.bus.held = false
  request : ∀ handler, s.handler = some handler → handler.call = call ∧
    handler.pc.Expects (findChild s.bus call.request.adapterGuid) ∧
    (handler.pc.Undropped → Described s.bus call.request.adapterGuid)
  answered : s.handler = none → findChild s.bus call.request.adapterGuid = none

/-- A callback that does not disturb the removal can only clean a PDO of the child up. -/
theorem findChild_stepCallback (hbus : RegistryOk bus.children) (hacquired : outcome.acquired = true)
    (hundisturbed : ¬th.Disturbs bus g) (hstep : stepCallback bus outcome th = some (bus', th')) :
    findChild bus' g = findChild bus g ∨ findChild bus' g = (findChild bus g).bind settlePdo := by
  have hcleanup : ∀ guid, findChild (evtChildPdoCleanup bus guid outcome).1 g = findChild bus g ∨
      findChild (evtChildPdoCleanup bus guid outcome).1 g = (findChild bus g).bind settlePdo := by
    intro guid
    rw [updates_evtChildPdoCleanup hbus, if_pos hacquired]
    split
    · rename_i hg
      rw [hg]
      exact .inr rfl
    · exact .inl rfl
  cases th with
  | idle => cases hstep
  | pdoCleanup guid =>
    cases hstep
    exact hcleanup guid
  | createDevice guid pc =>
    cases hstep
    cases pc with
    | createPdo =>
      simp only [evtChildListCreateDevice]
      split <;> exact .inl rfl
    | publish pdo =>
      have hg : g ≠ guid := fun hg => hundisturbed (.inl hg.symm)
      exact .inl ((updates_evtChildListCreateDevice hbus _ g).trans (if_neg hg))
    | delete locked =>
      simp only [evtChildListCreateDevice]
      split <;> exact hcleanup guid
    | markFailure status =>
      left
      by_cases hg : g = guid
      · have hnone : findChild bus guid = none := by
          by_contra hfound
          exact hundisturbed ⟨hg.symm, hfound⟩
        simp only [evtChildListCreateDevice, underLock, markChildFailure, hnone]
        split <;> rfl
      · exact (updates_evtChildListCreateDevice hbus _ g).trans (if_neg hg)
    | _ => exact .inl rfl

theorem Recovering.step (h : Recovering call s) (hcall : evtManagerDeviceControl call = .run .remove)
    (hok : Undisturbed call.request.adapterGuid s a) (hregistry : RegistryOk s'.bus.children)
    (hstep : busSystem.step s a = some s') : Recovering call s' := by
  obtain ⟨hconforms, hdisturbs⟩ := hok
  cases stepBus_cases hstep with
  | dispatch => exact absurd trivial hdisturbs
  | createDevice | pdoCleanup => exact ⟨hregistry, h.free, h.request, h.answered⟩
  | @forget guid =>
    refine ⟨hregistry, h.free, fun handler hhandler => ?_, h.answered⟩
    obtain ⟨hmine, hexpects, hdescribed⟩ := h.request handler hhandler
    refine ⟨hmine, hexpects, fun hundropped => ?_⟩
    obtain ⟨id, hid, hguid⟩ := List.mem_map.mp (hdescribed hundropped)
    refine List.mem_map.mpr ⟨id, List.mem_filter.mpr ⟨hid, decide_eq_true ?_⟩, hguid⟩
    exact fun heq => hdisturbs ⟨heq.symm.trans hguid, hdescribed hundropped⟩
  | @advance t outcome bus' th' _ hcallback =>
    have hfound := findChild_stepCallback h.registry hconforms hdisturbs hcallback
    have hfree := stepCallback_held h.free hcallback fun guid pdo hpublish hnone => by
      rw [BusAction.Disturbs, hpublish] at hdisturbs
      exact hdisturbs (.inr hnone)
    refine ⟨hregistry, hfree, fun handler hhandler => ?_, ?_⟩
    · obtain ⟨hmine, hexpects, hdescribed⟩ := h.request handler hhandler
      refine ⟨hmine, ?_, fun hundropped => ?_⟩
      · change handler.pc.Expects (findChild bus' _)
        obtain hsame | hsettled := hfound
        · rwa [hsame]
        · rw [hsettled]
          exact hexpects.settlePdo
      · change _ ∈ bus'.childList.map _
        rw [(keepsList_stepCallback hcallback).childList]
        exact hdescribed hundropped
    · intro hnone
      change findChild bus' _ = none
      obtain hsame | hsettled := hfound
      · rw [hsame, h.answered hnone]
      · rw [hsettled, h.answered hnone]
        rfl
  | @handle outcome handler hhandler =>
    obtain ⟨rfl, hexpects, hdescribed⟩ := h.request handler hhandler
    have hnext := stepManager_expects h.registry hcall hconforms.1 (hconforms.2 handler hhandler) hdescribed
      hexpects
    have hfree := (stepManager_held s.bus handler.call outcome handler.pc).trans h.free
    rcases hresult : stepManager s.bus handler.call outcome handler.pc with ⟨bus', pc' | answer⟩
    · rw [hresult] at hnext hregistry hfree
      refine ⟨hregistry, hfree, fun next hrunning => ?_, fun hnone => (by cases hnone)⟩
      cases hrunning
      exact ⟨rfl, hnext⟩
    · rw [hresult] at hnext hregistry hfree
      exact ⟨hregistry, hfree, fun next hrunning => (by cases hrunning), fun _ => hnext.1⟩

/-- A bound on the steps that a request has still to take. -/
def ManagerPc.remaining : ManagerPc → Nat
  | .dispatch => 5
  | .create _ | .remove => 4
  | .addDescription _ | .updateAsMissing _ _ => 3
  | .markFailure _ | .reclaim => 2
  | .record | .enumerate => 1

theorem stepManager_remaining (h : stepManager bus call outcome pc = (bus', .run pc')) :
    pc'.remaining < pc.remaining := by
  cases pc with
  | dispatch => cases (dispatched_of_run (congrArg Prod.snd h)).2 <;> simp [ManagerPc.remaining]
  | create mtu =>
    simp only [stepManager, underLock, managerCreate] at h
    repeat' split at h
    all_goals cases h
    all_goals simp [ManagerPc.remaining]
  | remove =>
    simp only [stepManager, underLock, managerRemove] at h
    repeat' split at h
    all_goals cases h
    all_goals simp [ManagerPc.remaining]
  | addDescription mtu | updateAsMissing mtu removeWithoutPdo =>
    simp only [stepManager] at h
    repeat' split at h
    all_goals cases h
    all_goals simp [ManagerPc.remaining]
  | markFailure status | reclaim | record | enumerate =>
    simp only [stepManager, underLock] at h
    split at h <;> cases h
    all_goals simp [ManagerPc.remaining]

theorem Recovering.path (hcall : evtManagerDeviceControl call = .run .remove) (hreach : BusReach Conforms s₀)
    (h : Recovering call s₀)
    (hpath : Machine.Path busSystem (Undisturbed call.request.adapterGuid) s₀ s) : Recovering call s := by
  refine hpath.invariant (P := Recovering call) h fun s₁ a s₂ hpath₁ h₁ hok hstep => ?_
  have hreach₁ := hpath₁.reach (fun _ _ hok => hok.1) hreach
  exact h₁.step hcall hok (BusReach.inv (.step hreach₁ hok.1 hstep)).registry hstep

theorem exists_path_answered (n : Nat) (hremaining : ∀ handler, s.handler = some handler → handler.pc.remaining ≤ n)
    (hfree : s.bus.held = false) (hpath : Machine.Path busSystem (Undisturbed guid) s₀ s) :
    ∃ s', Machine.Path busSystem (Undisturbed guid) s₀ s' ∧ s'.handler = none := by
  induction n generalizing s with
  | zero =>
    cases hhandler : s.handler with
    | none => exact ⟨s, hpath, hhandler⟩
    | some handler =>
      have hzero := hremaining handler hhandler
      cases hpc : handler.pc <;> simp [hpc, ManagerPc.remaining] at hzero
  | succ n ih =>
    cases hhandler : s.handler with
    | none => exact ⟨s, hpath, hhandler⟩
    | some handler =>
      let outcome : Outcome := ⟨true, true, missingStatus s.bus handler.call.request.adapterGuid⟩
      have hconforms : Conforms s (.handle outcome) := by
        refine ⟨rfl, fun handler' hhandler' _ => ?_⟩
        obtain rfl := Option.some.inj (hhandler.symm.trans hhandler')
        rfl
      have hstep : busSystem.step s (.handle outcome)
          = some (s.setHandler handler (stepManager s.bus handler.call outcome handler.pc)) := by
        simp [busSystem, stepBus, hhandler, BusState.blocks, hfree]
      refine ih (fun next hnext => ?_) ?_ (.step hpath ⟨hconforms, id⟩ hstep)
      swap
      · rw [(setHandler_bus s handler _).1, stepManager_held, hfree]
      rcases hresult : stepManager s.bus handler.call outcome handler.pc with ⟨bus', pc' | answer⟩
      · rw [hresult] at hnext
        cases hnext
        have hless := stepManager_remaining hresult
        have hbound := hremaining handler hhandler
        change pc'.remaining ≤ n
        omega
      · rw [hresult] at hnext
        cases hnext

/-! ### Concrete runs -/

/-- The thread a step belongs to. -/
def BusAction.thread : BusAction → Option ThreadId
  | .createDevice t _ | .pdoCleanup t _ _ | .advance t _ => some t
  | .dispatch _ | .handle _ | .forget _ => none

theorem BusReach.idle {t : ThreadId} (h : BusReach (fun _ a => a.thread ≠ some t) s) : s.thr t = .idle := by
  refine h.invariant (P := fun s => s.thr t = .idle) (fun s hinit => ?_) ?_
  · exact hinit.2.2.2 t
  intro s a s' _ hidle hok hstep
  have hset : ∀ {u : ThreadId} {bus th}, u ≠ t → (s.setThread u bus th).thr t = .idle := by
    intro u bus th hu
    simp only [BusWorld.setThread, Function.update_of_ne (Ne.symm hu), hidle]
  cases stepBus_cases hstep with
  | dispatch | forget => exact hidle
  | createDevice | pdoCleanup | advance => exact hset fun hu => hok (congrArg some hu)
  | @handle outcome handler =>
    rw [(setHandler_bus s handler _).2]
    exact hidle

/-- A schedule with at most one callback, which is over, leaves nobody at work on a creation. -/
theorem not_inCreation_after (hacts : ∀ a ∈ acts, a.thread = none ∨ a.thread = some 0)
    (hidle : (busSystem.after .initial acts).thr 0 = .idle) : ¬(busSystem.after .initial acts).InCreation guid := by
  rintro ⟨t, ht⟩
  have hthr : (busSystem.after .initial acts).thr t = .idle := by
    by_cases hzero : t = 0
    · rw [hzero, hidle]
    · refine BusReach.idle (Machine.System.reach_after_of (fun _ a ha hthread => ?_) (BusWorld.initial_reach _))
      obtain hnone | hsome := hacts a ha
      · cases hnone.symm.trans hthread
      · exact hzero (Option.some.inj (hthread.symm.trans hsome))
  rw [hthr] at ht
  cases ht

instance (bus : BusState) (guid : Guid) (th : Callback) : Decidable (th.Disturbs bus guid) :=
  match th with
  | .createDevice _ (.publish _) => inferInstanceAs (Decidable (_ ∨ _))
  | .createDevice _ (.markFailure _) => inferInstanceAs (Decidable (_ ∧ _))
  | .idle | .pdoCleanup _ | .createDevice _ .check | .createDevice _ (.assign _) | .createDevice _ .createPdo
  | .createDevice _ (.context _) | .createDevice _ (.delete _) => isFalse id

instance (guid : Guid) (s : BusWorld) (a : BusAction) : Decidable (a.Disturbs guid s) :=
  match a with
  | .dispatch _ => isTrue trivial
  | .forget _ => inferInstanceAs (Decidable (_ ∧ _))
  | .advance t _ => inferInstanceAs (Decidable ((s.thr t).Disturbs s.bus guid))
  | .createDevice _ _ | .handle _ | .pdoCleanup _ _ _ => isFalse id

instance (guid : Guid) (s : BusWorld) (a : BusAction) : Decidable (Undisturbed guid s a) :=
  inferInstanceAs (Decidable (_ ∧ _))

/-- The steps of a removal whose child list call returns the status. -/
def removeWith (status : NtStatus) : List BusAction :=
  [handleWith statusSuccess, handleWith statusSuccess, handleWith status, handleWith statusSuccess,
    handleWith statusSuccess]

theorem quiet_after (hacts : ∀ a ∈ acts, a.thread = none ∨ a.thread = some 0)
    (hidle : (busSystem.after .initial acts).thr 0 = .idle) (hhandler : (busSystem.after .initial acts).handler = none)
    (howed : sampleGuid ∉ (busSystem.after .initial acts).bus.owed)
    (hnode : (findChild (busSystem.after .initial acts).bus sampleGuid).map ChildNode.pdo = some none) :
    (busSystem.after .initial acts).Quiet sampleGuid :=
  ⟨hhandler, howed, not_inCreation_after hacts hidle, Option.map_eq_some_iff.mp hnode⟩

/-- A GUID is not wedged as long as the child list has its description and the bus lock is not kept: a removal from a
quiet state can always be answered, and once it is, the node is gone, a query reports the child as absent, and a
creation does not find the GUID in use. Until then no other loss of the description, no section of a creation of the
child and no publication without a node may get in its way. -/
theorem remove_recovers_guid {s s₁ s₂ : BusWorld} {call : ManagerCall} (hreach : BusReach Conforms s)
    (hquiet : s.Quiet call.request.adapterGuid) (hdescribed : Described s.bus call.request.adapterGuid)
    (hfree : s.bus.held = false) (hcall : evtManagerDeviceControl call = .run .remove)
    (hdispatch : busSystem.step s (.dispatch call) = some s₁)
    (hpath : Machine.Path busSystem (Undisturbed call.request.adapterGuid) s₁ s₂) :
    (∃ s₃, Machine.Path busSystem (Undisturbed call.request.adapterGuid) s₂ s₃ ∧ s₃.handler = none) ∧
      (s₂.handler = none →
        findChild s₂.bus call.request.adapterGuid = none ∧
        (childRecordFor s₂.bus call.request.adapterGuid).2
          = (statusSuccess, absentRecord call.request.adapterGuid statusSuccess 0) ∧
        ∀ create mtu outcome, create.request.adapterGuid = call.request.adapterGuid →
          (managerCreate s₂.bus create mtu outcome).2 =
            if outcome.allocated then .run (.addDescription mtu)
            else .ret (completeHeader create statusInsufficientResources)) := by
  have hreach₁ : BusReach Conforms s₁ := .step (a := .dispatch call) hreach trivial hdispatch
  have hstart : Recovering call s₁ := by
    simp only [busSystem, stepBus, if_pos hquiet.handler] at hdispatch
    cases hdispatch
    refine ⟨(BusReach.inv hreach₁).registry, hfree, fun handler hhandler => ?_, fun hnone => ?_⟩
    · cases hhandler
      exact ⟨rfl, hquiet.abandoned hreach, fun _ => hdescribed⟩
    · cases hnone
  have hrecovering := hstart.path hcall hreach₁ hpath
  refine ⟨?_, fun hanswered => ?_⟩
  · refine exists_path_answered 5 (fun handler _ => ?_) hrecovering.free .refl
    cases handler.pc <;> simp [ManagerPc.remaining]
  · have hnone := hrecovering.answered hanswered
    refine ⟨hnone, ?_, fun create mtu outcome hguid => ?_⟩
    · simp only [childRecordFor, hnone]
    · simp only [managerCreate, hguid, hnone]
      split <;> rfl

/-- A child whose PDO could not be created is removed, while the framework starts to create one again. -/
def removeDuringCreation : List BusAction :=
  [handleWith statusSuccess, handleWith statusSuccess, .createDevice 0 sampleGuid,
    .advance 0 ⟨true, true, statusSuccess⟩, handleWith statusSuccess, handleWith statusSuccess,
    handleWith statusSuccess]

theorem remove_recovers_guid_without_pdo :
    let s := busSystem.after .initial (createWithoutPdo sampleGuid)
    let s₁ := busSystem.after s [.dispatch (managerCall 2 sampleGuid)]
    findChild s.bus sampleGuid ≠ none ∧
      findChild (busSystem.after s₁ removeDuringCreation).bus sampleGuid = none := by
  intro s s₁
  have hreach : BusReach Conforms s :=
    Machine.System.reach_after_keeping (by decide +kernel) (BusWorld.initial_reach _)
  have hquiet : s.Quiet sampleGuid :=
    quiet_after (by decide) (by decide +kernel) (by decide +kernel) (by decide +kernel) (by decide +kernel)
  have hdispatch : busSystem.step s (.dispatch (managerCall 2 sampleGuid)) = some s₁ :=
    Machine.System.step_after (by decide +kernel)
  have hpath : Machine.Path busSystem (Undisturbed sampleGuid) s₁ (busSystem.after s₁ removeDuringCreation) :=
    Machine.System.path_after_keeping (by decide +kernel) .refl
  obtain ⟨-, hrecovered⟩ := remove_recovers_guid hreach hquiet (by decide +kernel) (by decide +kernel)
    (by decide +kernel) hdispatch hpath
  exact ⟨by decide +kernel, (hrecovered (by decide +kernel)).1⟩

/-- The child list refuses a new child, so it has no description that a removal could drop: the removal fails,
the node stays, and the next creation finds the GUID in use. -/
theorem undescribed_child_wedges_guid :
    ∃ s s₁ s₂, BusReach Conforms s ∧ s.Quiet sampleGuid ∧
      busSystem.step s (.dispatch (managerCall 2 sampleGuid)) = some s₁ ∧
      Machine.Path busSystem (Undisturbed sampleGuid) s₁ s₂ ∧ s₂.handler = none ∧
      findChild s₂.bus sampleGuid ≠ none ∧
      (managerCreate s₂.bus (managerCall 1 sampleGuid) 1500 ⟨true, true, statusSuccess⟩).2
        = .ret (completeHeader (managerCall 1 sampleGuid) statusDeviceBusy) := by
  refine ⟨busSystem.after .initial (createWith statusInsufficientResources), _,
    busSystem.after (busSystem.after (busSystem.after .initial (createWith statusInsufficientResources))
      [.dispatch (managerCall 2 sampleGuid)]) (removeWith statusNoSuchDevice),
    Machine.System.reach_after_keeping (by decide +kernel) (BusWorld.initial_reach _),
    quiet_after (by decide) (by decide +kernel) (by decide +kernel) (by decide +kernel) (by decide +kernel),
    Machine.System.step_after (by decide +kernel),
    Machine.System.path_after_keeping (by decide +kernel) .refl, ?_, ?_, ?_⟩
  · decide +kernel
  · decide +kernel
  · decide +kernel

/-! ### A lock that is kept -/

end WinTap.Bus

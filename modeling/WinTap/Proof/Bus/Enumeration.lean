import WinTap.Base.Paging
import WinTap.Bus.Enumeration
import WinTap.Proof.Bus.Registry

/-!
# Pages of the registry

What one page holds is a stretch of the registry, and its next cursor is where the stretch ends. The pages of a registry
that does not change therefore tile it. When it changes in between, a new child is put at the head and moves the others
away from the cursor, but a child that leaves from before the cursor moves them towards it, and the child that was to
come next is passed.
-/

namespace WinTap.Bus

variable {node : ChildNode} {listed rest : List ChildNode} {call : ManagerCall} {response : ManagerResponse}
  {write : ChildNode → ChildNode} {guid : Guid} {outcome : Outcome} {s : EnumerationWorld} {a : BusAction}
  {world : BusWorld} {handler : Handler}

/-! ### One page -/

/-- `index` after `n` children, with the saturation of `saturating_add`. -/
def saturated (n : Nat) : BitVec 32 := .ofNat 32 (min n (2 ^ 32 - 1))

theorem saturated_toNat (n : Nat) : (saturated n).toNat = min n (2 ^ 32 - 1) := by
  rw [saturated, BitVec.toNat_ofNat]
  omega

theorem saturated_succ (n : Nat) :
    (if saturated n = .allOnes 32 then saturated n else saturated n + 1) = saturated (n + 1) := by
  have hsaturated := saturated_toNat n
  apply BitVec.eq_of_toNat_eq
  rw [saturated_toNat]
  split
  · rename_i hall
    rw [hall, BitVec.toNat_allOnes] at hsaturated ⊢
    omega
  · rename_i hall
    have hne : (saturated n).toNat ≠ 2 ^ 32 - 1 := fun h =>
      hall (BitVec.eq_of_toNat_eq (h.trans BitVec.toNat_allOnes.symm))
    rw [BitVec.toNat_add, hsaturated]
    change (_ + 1) % _ = _
    omega

theorem le_saturated (cursor : BitVec 32) (n : Nat) : cursor ≤ saturated n ↔ cursor.toNat ≤ n := by
  have hcursor := cursor.isLt
  rw [BitVec.le_def, saturated_toNat]
  omega

theorem listedChildren_of_absent (habsent : node.lifecycle = .absent) :
    listedChildren (node :: rest) = listedChildren rest :=
  List.filter_cons_of_neg (by simpa using habsent)

theorem listedChildren_of_present (hpresent : node.lifecycle ≠ .absent) :
    listedChildren (node :: rest) = node :: listedChildren rest :=
  List.filter_cons_of_pos (by simpa using hpresent)

theorem RegistryOk.listedChildren_eq {children : List ChildNode} (h : RegistryOk children) :
    listedChildren children = children :=
  List.filter_eq_self.mpr fun node hnode => by simpa using (h.valid node hnode).present

/-- What the loop has written and where it stops, with `skip` children before the cursor and `room` for records. -/
structure Stretch (listed : List ChildNode) (passed skip room : Nat) (records : List ManagerRecord)
    (result : List ManagerRecord × BitVec 32) : Prop where
  records : result.1 = records ++ ((listed.drop skip).take room).map writeRecord
  cursor : result.2 = 0 ∧ listed.length ≤ skip + room ∨
    result.2 = saturated (passed + skip + room) ∧ skip + room ≤ listed.length

/-- The loop of `manager_enumerate`. As long as children are skipped there is room. -/
theorem enumerateFrom_stretch (cursor : BitVec 32) (capacity : Nat) (children : List ChildNode) (passed : Nat)
    (records : List ManagerRecord) (hroom : passed < cursor.toNat → records.length < capacity) :
    Stretch (listedChildren children) passed (cursor.toNat - passed) (capacity - records.length) records
      (enumerateFrom cursor capacity children (saturated passed) records) := by
  induction children generalizing passed records with
  | nil => exact ⟨by simp [enumerateFrom, listedChildren], .inl ⟨rfl, Nat.zero_le _⟩⟩
  | cons node rest ih =>
    by_cases hfull : records.length < capacity
    swap
    · have hskip : cursor.toNat - passed = 0 := by
        by_contra hskip
        exact hfull (hroom (by omega))
      have hstop : enumerateFrom cursor capacity (node :: rest) (saturated passed) records
          = (records, saturated passed) := if_neg hfull
      rw [hstop, hskip, Nat.sub_eq_zero_of_le (Nat.not_lt.mp hfull)]
      exact ⟨by simp, .inr ⟨rfl, Nat.zero_le _⟩⟩
    by_cases habsent : node.lifecycle = .absent
    · rw [enumerateFrom, if_pos hfull, if_pos habsent, listedChildren_of_absent habsent]
      exact ih passed records hroom
    rw [enumerateFrom, if_pos hfull, if_neg habsent, listedChildren_of_present habsent, saturated_succ]
    simp only [le_saturated]
    by_cases hreached : cursor.toNat ≤ passed
    · -- The child is on the page.
      rw [if_pos hreached]
      have hrest := ih (passed + 1) (records ++ [writeRecord node]) fun h => absurd h (by omega)
      have hskip : cursor.toNat - (passed + 1) = 0 := by omega
      have hroom' : capacity - records.length = capacity - (records ++ [writeRecord node]).length + 1 := by
        rw [List.length_append, List.length_singleton]
        omega
      rw [hskip] at hrest
      rw [Nat.sub_eq_zero_of_le hreached, hroom']
      refine ⟨?_, ?_⟩
      · rw [hrest.records]
        simp
      · have hcursor := hrest.cursor
        rw [List.length_cons]
        rw [show passed + 0 + (capacity - (records ++ [writeRecord node]).length + 1)
          = passed + 1 + 0 + (capacity - (records ++ [writeRecord node]).length) by omega]
        refine hcursor.imp (fun h => ⟨h.1, ?_⟩) fun h => ⟨h.1, ?_⟩
        · omega
        · omega
    · -- The child stands before the cursor.
      rw [if_neg hreached]
      have hrest := ih (passed + 1) records fun _ => hfull
      have hskip : cursor.toNat - passed = cursor.toNat - (passed + 1) + 1 := by omega
      rw [hskip]
      refine ⟨by rw [hrest.records, List.drop_succ_cons], ?_⟩
      have hcursor := hrest.cursor
      rw [List.length_cons]
      rw [show passed + (cursor.toNat - (passed + 1) + 1) + (capacity - records.length)
        = passed + 1 + (cursor.toNat - (passed + 1)) + (capacity - records.length) by omega]
      refine hcursor.imp (fun h => ⟨h.1, ?_⟩) fun h => ⟨h.1, ?_⟩
      · omega
      · omega

/-- An output buffer that `response_buffer` accepts has room for a record, and for no more than 116. -/
theorem capacity_of_responseBufferError (h : responseBufferError call = none) :
    0 < call.capacity ∧ managerResponseHeaderSize + call.capacity * managerRecordSize ≤ call.outputLength ∧
      call.outputLength ≤ maxManagerOutput := by
  rw [responseBufferError] at h
  split at h
  · cases h
  rename_i hlength
  simp only [not_or, Nat.not_lt] at hlength
  rw [ManagerCall.capacity]
  simp only [managerResponseHeaderSize, managerRecordSize] at hlength ⊢
  refine ⟨by omega, by omega, hlength.2⟩

/-- What a page says. -/
structure PageOf (listed : List ChildNode) (call : ManagerCall) (response : ManagerResponse) : Prop where
  records : response.records = (Paging.page listed call.request.cursor.toNat call.capacity).map writeRecord
  cursor : response.nextCursor = 0 ∧ listed.length ≤ call.request.cursor.toNat + call.capacity ∨
    response.nextCursor = saturated (call.request.cursor.toNat + call.capacity) ∧
      call.request.cursor.toNat + call.capacity ≤ listed.length
  recordCount : response.recordCount = .ofNat 32 response.records.length
  length : response.length = .ofNat 32 (managerResponseHeaderSize + response.records.length * managerRecordSize)

theorem managerEnumerate_page (bus : BusState) (hcall : responseBufferError call = none) :
    ∃ response, managerEnumerate bus call = ⟨call, statusSuccess,
        managerResponseHeaderSize + response.records.length * managerRecordSize, some response⟩ ∧
      PageOf (listedChildren bus.children) call response := by
  have hcapacity := (capacity_of_responseBufferError hcall).1
  have hstretch := enumerateFrom_stretch call.request.cursor call.capacity bus.children 0 [] fun _ => hcapacity
  let result := enumerateFrom call.request.cursor call.capacity bus.children 0 []
  refine ⟨⟨statusSuccess, .ofNat 32 result.1.length, result.2,
    .ofNat 32 (managerResponseHeaderSize + result.1.length * managerRecordSize), result.1⟩, rfl, hstretch.records, ?_,
    rfl, rfl⟩
  have hcursor := hstretch.cursor
  rw [Nat.zero_add, Nat.sub_zero, List.length_nil, Nat.sub_zero] at hcursor
  exact hcursor

theorem PageOf.length_records (h : PageOf listed call response) : response.records.length ≤ call.capacity := by
  rw [h.records, List.length_map]
  exact List.length_take_le ..

/-- A page that is not the last one leads further. -/
theorem PageOf.next (h : PageOf listed call response) (hcall : responseBufferError call = none)
    (hnext : response.nextCursor ≠ 0) :
    response.nextCursor = saturated (call.request.cursor.toNat + call.capacity) ∧ 0 < call.capacity ∧
      call.request.cursor.toNat + call.capacity ≤ listed.length := by
  obtain ⟨hzero, -⟩ | ⟨hcursor, hle⟩ := h.cursor
  · exact absurd hzero hnext
  · exact ⟨hcursor, (capacity_of_responseBufferError hcall).1, hle⟩

theorem PageOf.last (h : PageOf listed call response) (hcall : responseBufferError call = none)
    (hlast : response.nextCursor = 0) : listed.length ≤ call.request.cursor.toNat + call.capacity := by
  obtain ⟨-, hle⟩ | ⟨hcursor, -⟩ := h.cursor
  · exact hle
  · have hpositive := (capacity_of_responseBufferError hcall).1
    have hzero := congrArg BitVec.toNat (hcursor.symm.trans hlast)
    rw [saturated_toNat] at hzero
    change _ = 0 at hzero
    omega

/-! ### A registry that does not change -/

/-- From a cursor on, the pages report the rest of the registry. -/
theorem followCursors_tiles {bus : BusState} (hcount : bus.children.length < 2 ^ 32) {calls : Nat → ManagerCall}
    (hcalls : ∀ page, responseBufferError (calls page) = none) (fuel page : Nat) (cursor : BitVec 32)
    (hcursor : cursor.toNat ≤ (listedChildren bus.children).length)
    (hfuel : (listedChildren bus.children).length < cursor.toNat + fuel) :
    ∃ pages, followCursors bus calls fuel page cursor = some pages ∧
      pages.flatMap ManagerResponse.records
        = ((listedChildren bus.children).drop cursor.toNat).map writeRecord := by
  have hlisted : (listedChildren bus.children).length ≤ bus.children.length := List.length_filter_le ..
  induction fuel generalizing page cursor with
  | zero => omega
  | succ fuel ih =>
    have hcall : responseBufferError ((calls page).withCursor cursor) = none := hcalls page
    obtain ⟨response, hresponse, hpage⟩ := managerEnumerate_page bus hcall
    have hrecords := hpage.records
    change _ = (((listedChildren bus.children).drop cursor.toNat).take _).map writeRecord at hrecords
    by_cases hlast : response.nextCursor = 0
    · have hend := hpage.last hcall hlast
      change _ ≤ cursor.toNat + _ at hend
      refine ⟨[response], ?_, ?_⟩
      · rw [followCursors, hresponse, Option.bind_some, if_pos hlast]
      · rw [List.flatMap_singleton, hrecords, List.take_of_length_le (by rw [List.length_drop]; omega)]
    · obtain ⟨hnext, hpositive, hle⟩ := hpage.next hcall hlast
      change _ = saturated (cursor.toNat + _) at hnext
      change cursor.toNat + _ ≤ _ at hle
      have htoNat : response.nextCursor.toNat = cursor.toNat + ((calls page).withCursor cursor).capacity := by
        rw [hnext, saturated_toNat]
        omega
      obtain ⟨pages, hpages, htiles⟩ := ih (page + 1) response.nextCursor (by omega) (by omega)
      refine ⟨response :: pages, ?_, ?_⟩
      · rw [followCursors, hresponse, Option.bind_some, if_neg hlast, hpages]
        rfl
      · rw [List.flatMap_cons, htiles, hrecords, htoNat, ← List.drop_drop, ← List.map_append, List.take_append_drop]

/-- Following the cursors from 0 ends after at most one page more than there are children, and reports the children in
the order of the registry, each one once. Every page tells how many records it has, is as long as they are and fits the
output buffer, and past the end there is an empty last page. -/
theorem enumeration_tiles_registry (bus : BusState) (hcount : bus.children.length < 2 ^ 32)
    (calls : Nat → ManagerCall) (hcalls : ∀ page, responseBufferError (calls page) = none) :
    (∃ pages, followCursors bus calls (bus.children.length + 1) 0 0 = some pages ∧
      pages.flatMap ManagerResponse.records = (listedChildren bus.children).map writeRecord ∧
      (RegistryOk bus.children → pages.flatMap ManagerResponse.records = bus.children.map writeRecord ∧
        ((pages.flatMap ManagerResponse.records).map ManagerRecord.adapterGuid).Nodup)) ∧
      ∀ page cursor, ∃ response information,
        managerEnumerate bus ((calls page).withCursor cursor)
          = ⟨(calls page).withCursor cursor, statusSuccess, information, some response⟩ ∧
        response.recordCount.toNat = response.records.length ∧
        response.length.toNat = 32 + 560 * response.recordCount.toNat ∧ information = response.length.toNat ∧
        information ≤ (calls page).outputLength ∧
        ((listedChildren bus.children).length ≤ cursor.toNat → response.records = [] ∧ response.nextCursor = 0) := by
  refine ⟨?_, fun page cursor => ?_⟩
  · have hlisted : (listedChildren bus.children).length ≤ bus.children.length := List.length_filter_le ..
    obtain ⟨pages, hpages, htiles⟩ := followCursors_tiles hcount hcalls (bus.children.length + 1) 0 0
      (Nat.zero_le _) (by change _ < 0 + _; omega)
    refine ⟨pages, hpages, htiles, fun hok => ?_⟩
    change _ = (listedChildren bus.children).map writeRecord at htiles
    rw [hok.listedChildren_eq] at htiles
    refine ⟨htiles, ?_⟩
    rw [htiles, List.map_map]
    exact hok.distinct
  · have hcall : responseBufferError ((calls page).withCursor cursor) = none := hcalls page
    obtain ⟨response, hresponse, hpage⟩ := managerEnumerate_page bus hcall
    obtain ⟨hpositive, hfits, hmaximum⟩ := capacity_of_responseBufferError hcall
    have hlength := hpage.length_records
    have hrecordCount := congrArg BitVec.toNat hpage.recordCount
    have hlengthField := congrArg BitVec.toNat hpage.length
    rw [BitVec.toNat_ofNat] at hrecordCount hlengthField
    simp only [managerResponseHeaderSize, managerRecordSize, maxManagerOutput] at hfits hmaximum hlengthField
    change _ ≤ (calls page).outputLength at hfits
    change (calls page).outputLength ≤ _ at hmaximum
    refine ⟨response, _, hresponse, by omega, by omega, ?_, ?_, fun hpast => ?_⟩
    · simp only [managerResponseHeaderSize, managerRecordSize]
      omega
    · exact (Nat.add_le_add_left (Nat.mul_le_mul_right _ hlength) _).trans hfits
    · refine ⟨?_, ?_⟩
      · have hempty : Paging.page (listedChildren bus.children) cursor.toNat (calls page).capacity = [] := by
          rw [Paging.page, List.drop_of_length_le hpast, List.take_nil]
        rw [hpage.records]
        exact congrArg (List.map writeRecord) hempty
      · by_contra hnext
        obtain ⟨-, -, hle⟩ := hpage.next hcall hnext
        change cursor.toNat + _ ≤ _ at hle
        omega

/-- Requests with room for two records, and then for one. -/
def twoThenOne (page : Nat) : ManagerCall :=
  let call := managerCall 3 ⟨0, 0, 0, .replicate 8 0⟩
  if page = 0 then { call with outputLength := 1152, actualOutputLength := 1152 } else call

/-- A registry with three children. -/
def threeChildren : BusState :=
  { BusState.initial with
    children := [3, 2, 1].map fun n => newChild (managerCall 1 (guidOf n)).request 1500 }

theorem enumeration_tiles_registry_three :
    threeChildren.children.length < 2 ^ 32 ∧ (∀ page, responseBufferError (twoThenOne page) = none) ∧
      ∃ pages, followCursors threeChildren twoThenOne 4 0 0 = some pages ∧
        pages.flatMap ManagerResponse.records = (listedChildren threeChildren.children).map writeRecord := by
  have hcount : threeChildren.children.length < 2 ^ 32 := by decide
  have hcalls : ∀ page, responseBufferError (twoThenOne page) = none := by
    intro page
    unfold twoThenOne
    split <;> decide
  obtain ⟨⟨pages, hpages, htiles, -⟩, -⟩ := enumeration_tiles_registry threeChildren hcount twoThenOne hcalls
  exact ⟨hcount, hcalls, pages, hpages, htiles⟩

/-! ### How a step changes the registry -/

theorem guids_writeChild (bus : BusState) (guid : Guid) (hwrite : ∀ n, (write n).guid = n.guid) :
    (writeChild bus guid write).guids = bus.guids :=
  Keyed.map_modify hwrite

theorem change_writeChild (bus : BusState) (guid : Guid) (hwrite : ∀ n, (write n).guid = n.guid) :
    Paging.Change bus.guids (writeChild bus guid write).guids := by
  rw [guids_writeChild bus guid hwrite]
  exact .same

theorem change_reclaimChild {bus : BusState} (found : findChild bus guid = some node) :
    Paging.Change bus.guids (reclaimChild bus guid).guids := by
  have hguids : (reclaimChild bus guid).guids = bus.guids.erase guid := Keyed.map_remove
  rw [hguids]
  obtain ⟨hmem, rfl⟩ := Keyed.find_mem found
  exact .leave (List.mem_map_of_mem hmem)

theorem change_underLock {π : Type} {bus : BusState} {refused : π} {body : BusState × π} {guids : List Guid}
    (hbus : bus.guids = guids) (hbody : Paging.Change guids body.1.guids) :
    Paging.Change guids (underLock bus outcome refused body).1.guids := by
  unfold underLock
  split
  · exact hbody
  · rw [hbus]
    exact .same

theorem change_markChildFailure (bus : BusState) (guid : Guid) (status : NtStatus) :
    Paging.Change bus.guids (markChildFailure bus guid status).guids := by
  unfold markChildFailure
  split
  · exact .same
  · exact change_writeChild bus guid fun _ => rfl

theorem change_childRecordFor (bus : BusState) (guid : Guid) :
    Paging.Change bus.guids (childRecordFor bus guid).1.guids := by
  unfold childRecordFor
  split
  · exact .same
  · exact change_writeChild bus guid fun n => (activateChild_same n).1

theorem change_stepManager {bus : BusState} (hbus : RegistryOk bus.children) (call : ManagerCall) (pc : ManagerPc)
    (outcome : Outcome) : Paging.Change bus.guids (stepManager bus call outcome pc).1.guids := by
  cases pc with
  | dispatch => exact .same
  | create mtu =>
    refine change_underLock rfl ?_
    obtain ⟨answer, hanswer⟩ | ⟨fresh, hentered⟩ := managerCreate_cases hbus call mtu outcome
    · rw [hanswer]
      exact .same
    · rw [hentered]
      refine .enter fun hmem => ?_
      obtain ⟨node, hnode, hguid⟩ := List.mem_map.mp hmem
      exact Keyed.find_eq_none.mp fresh node hnode hguid
  | remove =>
    refine change_underLock rfl ?_
    obtain ⟨answer, hanswer⟩ | ⟨node, -, -, hremoved⟩ := managerRemove_cases bus call
    · rw [hanswer]
      exact .same
    · rw [hremoved]
      exact change_writeChild bus _ fun _ => rfl
  | addDescription mtu | updateAsMissing mtu removeWithoutPdo =>
    simp only [stepManager]
    split <;> exact .same
  | markFailure status => exact change_underLock rfl (change_markChildFailure bus _ status)
  | reclaim =>
    refine change_underLock rfl ?_
    unfold reclaimRemovedChildWithoutPdo
    split
    · exact .same
    · rename_i found
      split
      · exact change_reclaimChild found
      · exact .same
  | record => exact change_underLock rfl (change_childRecordFor bus _)
  | enumerate => exact change_underLock rfl .same

theorem change_evtChildPdoCleanup (bus : BusState) (guid : Guid) (outcome : Outcome) :
    Paging.Change bus.guids (evtChildPdoCleanup bus guid outcome).1.guids := by
  refine change_underLock rfl ?_
  split
  · exact .same
  rename_i node found
  have hguids : (writeChild bus guid clearPdo).guids = bus.guids := guids_writeChild bus guid fun _ => rfl
  have hcleared : findChild (writeChild bus guid clearPdo) guid = some (clearPdo node) := by
    rw [findChild_writeChild (fun _ => by rfl), if_pos rfl, found, Option.map_some]
  rw [← hguids]
  dsimp only
  split
  · exact change_reclaimChild hcleared
  · split
    · exact change_writeChild _ guid fun _ => rfl
    · exact .same

theorem change_stepCallback {bus bus' : BusState} {th th' : Callback}
    (h : stepCallback bus outcome th = some (bus', th')) : Paging.Change bus.guids bus'.guids := by
  cases th with
  | idle => cases h
  | pdoCleanup guid =>
    cases h
    exact change_evtChildPdoCleanup bus guid outcome
  | createDevice guid pc =>
    cases h
    cases pc with
    | createPdo =>
      simp only [evtChildListCreateDevice]
      split <;> exact .same
    | publish pdo =>
      refine change_underLock rfl ?_
      split
      · exact .same
      · exact change_writeChild { bus with pdos := (pdo, guid) :: bus.pdos } guid fun _ => rfl
    | delete locked =>
      simp only [evtChildListCreateDevice]
      split <;> exact change_evtChildPdoCleanup bus guid outcome
    | markFailure status => exact change_underLock rfl (change_markChildFailure bus guid status)
    | _ => exact .same

/-- A step of the bus leaves the order of the registry, puts a child at its head or takes one out. -/
theorem stepBus_change {s s' : BusWorld} (hbus : RegistryOk s.bus.children) (hstep : stepBus s a = some s') :
    Paging.Change s.bus.guids s'.bus.guids := by
  cases stepBus_cases hstep with
  | dispatch | createDevice | pdoCleanup | forget => exact .same
  | @handle outcome handler =>
    rw [(setHandler_bus s handler _).1]
    exact change_stepManager hbus handler.call handler.pc outcome
  | advance _ hcallback => exact change_stepCallback hcallback

/-! ### A registry that changes between the pages -/

/-- A child is taken from before the cursor only when the child at the cursor, which takes its place, was reported. -/
def Spares (s : EnumerationWorld) : EnumerationAction → Prop
  | .page _ => True
  | .bus a =>
    match s.progress, stepBus s.world a with
    | .next cursor, some world =>
      ∀ guid ∈ s.world.bus.guids, guid ∉ world.bus.guids → s.world.bus.guids.idxOf guid < cursor.toNat →
        ∀ next ∈ s.world.bus.guids[cursor.toNat]?, next ∈ s.reported.map ManagerRecord.adapterGuid
    | _, _ => True

instance (s : EnumerationWorld) (a : EnumerationAction) : Decidable (Spares s a) := by
  unfold Spares
  split
  · infer_instance
  · split <;> infer_instance

/-- A request reads its page only after `response_buffer` has accepted its output buffer. -/
def AcceptedPages (s : BusWorld) : Prop :=
  ∀ handler, s.handler = some handler → handler.pc = .enumerate → responseBufferError handler.call = none

theorem BusReach.acceptedPages {ok : BusWorld → BusAction → Prop} {s : BusWorld} (h : BusReach ok s) :
    AcceptedPages s := by
  refine h.invariant (fun s hinit handler hhandler => ?_) fun s a s' _ hpages _ hstep => ?_
  · rw [hinit.2.1] at hhandler
    cases hhandler
  cases stepBus_cases hstep with
  | dispatch =>
    intro handler hhandler hpc
    cases hhandler
    cases hpc
  | createDevice | pdoCleanup | advance | forget => exact hpages
  | @handle outcome handler =>
    rcases hresult : stepManager s.bus handler.call outcome handler.pc with ⟨bus', pc' | answer⟩
    · intro next hnext hpc
      cases hnext
      cases hpc
      have hdispatch : handler.pc = .dispatch := by
        by_contra hlater
        exact stepManager_later hlater hresult
      rw [hdispatch] at hresult
      exact (dispatched_of_run (congrArg Prod.snd hresult)).1
    · intro next hnext
      cases hnext

theorem EnumerationReach.bus {ok : EnumerationWorld → EnumerationAction → Prop} (h : EnumerationReach ok s) :
    BusReach Machine.Free s.world := by
  refine h.simulate EnumerationWorld.world (fun s hinit => ?_) fun s a s' _ hreach _ hstep => ?_
  · exact hinit.1
  cases a with
  | bus a =>
    obtain ⟨world, hworld, rfl⟩ := Option.map_eq_some_iff.mp hstep
    exact hreach.step trivial hworld
  | page outcome =>
    obtain ⟨response, -, hstep⟩ := Option.bind_eq_some_iff.mp hstep
    obtain ⟨world, hworld, rfl⟩ := Option.map_eq_some_iff.mp hstep
    exact Machine.Reach.step (a := BusAction.handle outcome) hreach trivial hworld

/-- The request whose page the client reads. -/
theorem readPage_eq_some (h : s.readPage outcome = some response) :
    ∃ handler, s.world.handler = some handler ∧ handler.pc = .enumerate ∧
      s.progress.cursor = some handler.call.request.cursor ∧
      (managerEnumerate s.world.bus handler.call).response = some response := by
  unfold EnumerationWorld.readPage at h
  split at h
  · rename_i call changed hhandler
    split at h
    · rename_i hclient
      exact ⟨_, hhandler, rfl, hclient.2, h⟩
    · cases h
  · cases h

/-- Reading a page leaves the registry alone. -/
theorem bus_of_enumerate {s world : BusWorld} (hhandler : s.handler = some handler) (hpc : handler.pc = .enumerate)
    (hstep : stepBus s (.handle outcome) = some world) : world.bus = s.bus := by
  cases stepBus_cases hstep with
  | handle hhandler' =>
    obtain rfl := Option.some.inj (hhandler.symm.trans hhandler')
    rw [(setHandler_bus s handler _).1, hpc, stepManager, underLock]
    split <;> rfl

/-- Where the survivors are: every one that was not reported yet stands at or past the cursor. -/
structure Following (s : EnumerationWorld) : Prop where
  present : ∀ guid ∈ s.survivors, guid ∈ s.world.bus.guids
  ahead : ∀ cursor, s.progress = .next cursor → ∀ guid ∈ s.survivors,
    guid ∈ s.reported.map ManagerRecord.adapterGuid ∨ cursor.toNat ≤ s.world.bus.guids.idxOf guid
  complete : s.progress = .finished → ∀ guid ∈ s.survivors, guid ∈ s.reported.map ManagerRecord.adapterGuid

theorem mem_surviving : guid ∈ s.surviving world ↔ guid ∈ s.survivors ∧ guid ∈ world.bus.guids := by
  simp [EnumerationWorld.surviving]

theorem Following.bus (h : Following s) (hbus : RegistryOk s.world.bus.children) (hok : Spares s (.bus a))
    (hstep : stepBus s.world a = some world) : Following { s with world := world, survivors := s.surviving world } := by
  refine ⟨fun guid hguid => (mem_surviving.mp hguid).2, fun cursor hcursor guid hguid => ?_, fun hend guid hguid =>
    h.complete hend guid (mem_surviving.mp hguid).1⟩
  obtain ⟨hsurvivor, hpresent⟩ := mem_surviving.mp hguid
  by_cases hreported : guid ∈ s.reported.map ManagerRecord.adapterGuid
  · exact .inl hreported
  right
  have hcursor : s.progress = .next cursor := hcursor
  have hahead := (h.ahead cursor hcursor guid hsurvivor).resolve_left hreported
  refine (stepBus_change hbus hstep).ahead (h.present guid hsurvivor) hpresent hbus.distinct hahead ?_
  intro gone hgone hleft hbefore hnext
  simp only [Spares, hcursor, hstep] at hok
  exact hreported (hok gone hgone hleft hbefore guid hnext)

/-- The GUIDs on a page. -/
theorem PageOf.guids {bus : BusState} (h : PageOf bus.children call response) :
    response.records.map ManagerRecord.adapterGuid
      = Paging.page bus.guids call.request.cursor.toNat call.capacity := by
  rw [h.records, List.map_map, Paging.page, Paging.page, BusState.guids, ← List.map_drop, ← List.map_take]
  rfl

/-- The survivors at a page were reported before, or stand at or past its cursor. -/
theorem Following.receive (h : Following s) (hcall : responseBufferError handler.call = none)
    (hworld : world.bus = s.world.bus) (hcursor : s.progress.cursor = some handler.call.request.cursor)
    (hpage : PageOf s.world.bus.children handler.call response) : Following (s.receive world response) := by
  have hsurvivors : ∀ guid ∈ (s.receive world response).survivors, guid ∈ s.world.bus.guids ∧
      (guid ∈ s.reported.map ManagerRecord.adapterGuid ∨
        handler.call.request.cursor.toNat ≤ s.world.bus.guids.idxOf guid) := by
    intro guid hguid
    cases hprogress : s.progress with
    | first =>
      rw [hprogress] at hcursor
      rw [EnumerationWorld.receive, if_pos hprogress, hworld] at hguid
      rw [← Option.some.inj hcursor]
      exact ⟨hguid, .inr (Nat.zero_le _)⟩
    | next cursor =>
      rw [hprogress] at hcursor
      have hlater : s.progress ≠ .first := by
        rw [hprogress]
        exact Progress.noConfusion
      have hguid : guid ∈ s.surviving world := by
        rwa [EnumerationWorld.receive, if_neg hlater] at hguid
      obtain ⟨hsurvivor, hpresent⟩ := mem_surviving.mp hguid
      rw [← Option.some.inj hcursor]
      exact ⟨h.present guid hsurvivor, h.ahead cursor hprogress guid hsurvivor⟩
    | finished =>
      rw [hprogress] at hcursor
      cases hcursor
  have hreported : ∀ guid, guid ∈ s.reported.map ManagerRecord.adapterGuid ∨
      guid ∈ Paging.page s.world.bus.guids handler.call.request.cursor.toNat handler.call.capacity →
      guid ∈ (s.receive world response).reported.map ManagerRecord.adapterGuid := by
    intro guid hguid
    rw [EnumerationWorld.receive, List.map_append, hpage.guids]
    exact List.mem_append.mpr hguid
  refine ⟨fun guid hguid => hworld ▸ (hsurvivors guid hguid).1, fun cursor hnext guid hguid => ?_,
    fun hend guid hguid => ?_⟩
  · have hmore : response.nextCursor ≠ 0 := by
      intro hzero
      rw [EnumerationWorld.receive, if_pos hzero] at hnext
      cases hnext
    rw [EnumerationWorld.receive, if_neg hmore] at hnext
    cases hnext
    obtain ⟨hnextCursor, -, -⟩ := hpage.next hcall hmore
    obtain ⟨hpresent, hbefore | hahead⟩ := hsurvivors guid hguid
    · exact .inl (hreported guid (.inl hbefore))
    by_cases hon : s.world.bus.guids.idxOf guid < handler.call.request.cursor.toNat + handler.call.capacity
    · exact .inl (hreported guid (.inr (Paging.mem_page hpresent hahead hon)))
    · right
      rw [hnextCursor, saturated_toNat]
      change _ ≤ world.bus.guids.idxOf guid
      rw [hworld]
      omega
  · have hlast : response.nextCursor = 0 := by
      by_contra hmore
      rw [EnumerationWorld.receive, if_neg hmore] at hend
      cases hend
    have hall := hpage.last hcall hlast
    obtain ⟨hpresent, hbefore | hahead⟩ := hsurvivors guid hguid
    · exact hreported guid (.inl hbefore)
    refine hreported guid (.inr (Paging.mem_page hpresent hahead ?_))
    have hposition := List.idxOf_lt_length_iff.mpr hpresent
    rw [BusState.guids, List.length_map] at hposition
    exact Nat.lt_of_lt_of_le hposition hall

theorem EnumerationReach.following (h : EnumerationReach Spares s) : Following s := by
  refine h.invariant (fun s hinit => ?_) fun s a s' hreach hfollowing hok hstep => ?_
  · obtain ⟨-, hprogress, -, hsurvivors⟩ := hinit
    refine ⟨fun guid hguid => ?_, fun cursor hnext => ?_, fun hend => ?_⟩
    · rw [hsurvivors] at hguid
      cases hguid
    · rw [hprogress] at hnext
      cases hnext
    · rw [hprogress] at hend
      cases hend
  have hbus := EnumerationReach.bus hreach
  have hregistry := (BusReach.inv hbus).registry
  cases a with
  | bus a =>
    obtain ⟨world, hworld, rfl⟩ := Option.map_eq_some_iff.mp hstep
    exact hfollowing.bus hregistry hok hworld
  | page outcome =>
    obtain ⟨response, hresponse, hstep⟩ := Option.bind_eq_some_iff.mp hstep
    obtain ⟨world, hworld, rfl⟩ := Option.map_eq_some_iff.mp hstep
    obtain ⟨handler, hhandler, hpc, hcursor, hresponse⟩ := readPage_eq_some hresponse
    have hcall := BusReach.acceptedPages hbus handler hhandler hpc
    obtain ⟨response', hresponse', hpage⟩ := managerEnumerate_page s.world.bus hcall
    rw [hresponse'] at hresponse
    cases hresponse
    rw [hregistry.listedChildren_eq] at hpage
    exact hfollowing.receive hcall (bus_of_enumerate hhandler hpc hworld) hcursor hpage

/-- As long as no child is taken from before the cursor while the child at the cursor was not reported, an enumeration
that has come to its end has reported every child that was in the registry all the time. -/
theorem enumeration_reports_survivors (s : EnumerationWorld) (h : EnumerationReach Spares s)
    (hend : s.progress = .finished) : ∀ guid ∈ s.survivors, guid ∈ s.reported.map ManagerRecord.adapterGuid :=
  (EnumerationReach.following h).complete hend

def EnumerationWorld.initial : EnumerationWorld where
  world := .initial
  progress := .first
  reported := []
  survivors := []

theorem EnumerationWorld.initial_reach (ok : EnumerationWorld → EnumerationAction → Prop) :
    EnumerationReach ok .initial :=
  .init ⟨⟨rfl, rfl, rfl, fun _ => rfl⟩, rfl, rfl, rfl⟩

/-- A page of one record. -/
def onePage (cursor : BitVec 32) : List EnumerationAction :=
  [.bus (.dispatch ((managerCall 3 ⟨0, 0, 0, .replicate 8 0⟩).withCursor cursor)), .bus (handleWith statusSuccess),
    .page ⟨true, true, statusSuccess⟩]

/-- A child that stays in creation. -/
def enterChild (guid : Guid) : List EnumerationAction :=
  .bus (.dispatch (managerCall 1 guid)) :: .replicate 4 (.bus (handleWith statusSuccess))

/-- A child whose PDO could not be created, so that it can be removed. -/
def enterFailed (guid : Guid) : List EnumerationAction := (createWithoutPdo guid).map .bus

def removeChild (guid : Guid) : List EnumerationAction :=
  .bus (.dispatch (managerCall 2 guid)) :: .replicate 5 (.bus (handleWith statusSuccess))

/-- A child leaves from behind the cursor and another one enters between the pages. -/
def changedBehindCursor : List EnumerationAction :=
  enterFailed (guidOf 1) ++ enterChild (guidOf 2) ++ enterChild (guidOf 3) ++ onePage 0 ++ removeChild (guidOf 1) ++
    enterChild (guidOf 4) ++ onePage 1 ++ onePage 2

theorem enumeration_reports_survivors_changed :
    let s := enumerationSystem.after .initial changedBehindCursor
    s.progress = .finished ∧ s.survivors = [guidOf 3, guidOf 2] ∧
      ∀ guid ∈ s.survivors, guid ∈ s.reported.map ManagerRecord.adapterGuid := by
  have hreach : EnumerationReach Spares (enumerationSystem.after .initial changedBehindCursor) :=
    Machine.System.reach_after_keeping (by decide +kernel) (EnumerationWorld.initial_reach _)
  exact ⟨by decide +kernel, by decide +kernel, enumeration_reports_survivors _ hreach (by decide +kernel)⟩

/-- The child on the first page is removed before the second one: the child after it is in the registry all the time and
on neither page. -/
theorem enumeration_omits_survivor :
    ∃ s, EnumerationReach Machine.Free s ∧ s.progress = .finished ∧ guidOf 2 ∈ s.survivors ∧
      guidOf 2 ∉ s.reported.map ManagerRecord.adapterGuid := by
  refine ⟨enumerationSystem.after .initial (enterChild (guidOf 1) ++ enterChild (guidOf 2) ++ enterFailed (guidOf 3) ++
      onePage 0 ++ removeChild (guidOf 3) ++ onePage 1),
    Machine.System.reach_after (EnumerationWorld.initial_reach _) _, ?_⟩
  decide +kernel

end WinTap.Bus

import WinTap.Switch.History

/-!
# The switch meets its specification

After any calls the database is the bounded table of what those calls showed, so a lookup answers with what
the calls alone determine.
-/

namespace WinTap.SwitchCore

variable {after before switch : Switch} {calls : List Call} {parsed : ParsedFrame} {key : FdbKey}
  {result : Except ForwardingError (List EndpointId)}
variable {endpoints : List EndpointId}

theorem ForwardingDatabase.learn_eq (fdb : ForwardingDatabase) (parsed : ParsedFrame)
    (endpoint : EndpointId) :
    fdb.learn parsed endpoint =
      { fdb with entries := fdb.entries.learn fdb.capacity parsed.sourceKey endpoint } := by
  simp only [ForwardingDatabase.learn, BoundedTable.learn, ParsedFrame.sourceKey]
  by_cases hmem : (⟨parsed.source, parsed.vlan⟩ : FdbKey) ∈ fdb.entries
  · simp only [hmem, if_true, true_or]
  · simp only [hmem, if_false, false_or]
    split <;> rfl

/-- The switch that these calls leave, whatever it was asked before. -/
structure Knows (endpoints : List EndpointId) (switch : Switch) (calls : List Call) : Prop where
  ids : switch.endpoints.endpoints = endpoints
  capacity : switch.fdb.capacity = fdbCapacity
  entries : switch.fdb.entries = BoundedTable.learnAll fdbCapacity (sightings endpoints calls)

theorem Knows.contains (h : Knows endpoints switch calls) (endpoint : EndpointId) :
    switch.endpoints.contains endpoint = true ↔ endpoint ∈ endpoints := by
  rw [EndpointSet.contains, h.ids, decide_eq_true_eq]

theorem Switch.call_accepted {call : Call} (h : Knows endpoints switch calls) (hsource : call.source ∈ endpoints)
    (hparsed : parseFrame call.frame = .ok parsed) :
    (switch.call call).1 = { switch with fdb := switch.fdb.learn parsed call.source } ∧
      (switch.call call).2 = .ok ((switch.call call).1.recipients call.source parsed) := by
  rw [Switch.call, Switch.forward, if_pos ((h.contains call.source).mpr hsource), hparsed]
  exact ⟨rfl, rfl⟩

theorem Switch.call_refused {call : Call} (h : Knows endpoints switch calls) (hrefused : Refused endpoints call) :
    (switch.call call).1 = switch := by
  rw [Switch.call, Switch.forward]
  split
  · rename_i hsource
    obtain hunknown | ⟨error, herror⟩ := hrefused
    · exact absurd ((h.contains call.source).mp hsource) hunknown
    · rw [herror]
  · rfl

theorem sightings_append (calls : List Call) (call : Call) :
    sightings endpoints (calls ++ [call]) =
      sightings endpoints calls ++ (sighting endpoints call).toList := by
  rw [sightings, List.filterMap_append]
  cases hseen : sighting endpoints call <;> simp [sightings, hseen]

theorem sightings_accepted {call : Call} (calls : List Call) (hsource : call.source ∈ endpoints)
    (hparsed : parseFrame call.frame = .ok parsed) :
    sightings endpoints (calls ++ [call]) =
      sightings endpoints calls ++ [(parsed.sourceKey, call.source)] := by
  rw [sightings_append, sighting, if_pos hsource, hparsed]
  rfl

theorem sightings_refused {call : Call} (calls : List Call) (hrefused : Refused endpoints call) :
    sightings endpoints (calls ++ [call]) = sightings endpoints calls := by
  rw [sightings_append, sighting]
  split
  · obtain hunknown | ⟨error, herror⟩ := hrefused
    · contradiction
    · rw [herror, Option.toList_none, List.append_nil]
  · rw [Option.toList_none, List.append_nil]

/-- Every frame parses or does not, so every call is refused or shows a key. -/
theorem refused_or_accepted (endpoints : List EndpointId) (call : Call) :
    Refused endpoints call ∨
      call.source ∈ endpoints ∧ ∃ parsed, parseFrame call.frame = .ok parsed := by
  by_cases hsource : call.source ∈ endpoints
  · cases hparsed : parseFrame call.frame with
    | error error => exact .inl (.inr ⟨error, hparsed⟩)
    | ok parsed => exact .inr ⟨hsource, parsed, rfl⟩
  · exact .inl (.inl hsource)

theorem Knows.call (h : Knows endpoints switch calls) (call : Call) :
    Knows endpoints (switch.call call).1 (calls ++ [call]) := by
  obtain hrefused | ⟨hsource, parsed, hparsed⟩ := refused_or_accepted endpoints call
  · rw [Switch.call_refused h hrefused]
    exact ⟨h.ids, h.capacity, by rw [h.entries, sightings_refused calls hrefused]⟩
  · rw [(Switch.call_accepted h hsource hparsed).1, ForwardingDatabase.learn_eq]
    refine ⟨h.ids, h.capacity, ?_⟩
    rw [sightings_accepted calls hsource hparsed, BoundedTable.learnAll_append, ← h.entries, h.capacity]

theorem Knows.after_calls (hnew : Switch.fromEndpoints endpoints = .ok switch) (calls : List Call) :
    Knows endpoints (switch.afterCalls calls) calls := by
  induction calls using List.reverseRecOn with
  | nil =>
    rw [Switch.fromEndpoints, EndpointSet.fromIds] at hnew
    split at hnew
    · cases hnew
    · cases hnew
      exact ⟨rfl, rfl, rfl⟩
  | append_singleton calls call ih =>
    rw [Switch.afterCalls, List.foldl_append]
    exact ih.call call

/-! ### The recipients -/

theorem classify_eq_unicast (destination : MacAddress) :
    classify destination = .unicast ↔ isGroup destination = false := by
  have hfirst : destination.get 0 = destination[0] := rfl
  unfold classify isGroup
  rw [hfirst]
  split
  · rename_i hbroadcast
    subst hbroadcast
    decide
  · by_cases hbit : destination[0] &&& 1 = 0 <;> simp [hbit]

theorem parseFrame_class {frame : List UInt8} (h : parseFrame frame = .ok parsed) :
    parsed.frameClass = classify parsed.destination := by
  unfold parseFrame at h
  split at h
  · dsimp only at h
    repeat' split at h
    all_goals first | (cases h; rfl) | cases h
  · cases h

theorem lastEndpoint_mem {endpoint : EndpointId} (h : lastEndpoint endpoints calls key = some endpoint) :
    endpoint ∈ endpoints := by
  rw [lastEndpoint, BoundedTable.lastSeen, Option.map_eq_some_iff] at h
  obtain ⟨seen, hfound, rfl⟩ := h
  have hseen := List.mem_reverse.mp (List.mem_of_find?_eq_some hfound)
  obtain ⟨call, -, hcall⟩ := List.mem_filterMap.mp hseen
  unfold sighting at hcall
  split at hcall
  · rename_i hsource
    split at hcall
    · cases hcall
      exact hsource
    · cases hcall
  · cases hcall

theorem lastEndpoint_of_admitted (h : key ∈ admittedKeys endpoints calls) :
    ∃ endpoint, lastEndpoint endpoints calls key = some endpoint := by
  obtain ⟨seen, hseen, rfl⟩ := List.mem_map.mp (BoundedTable.mem_of_mem_admitted h)
  have hfound : (sightings endpoints calls).reverse.find? (fun s => s.1 = seen.1) ≠ none := by
    intro hnone
    simpa using List.find?_eq_none.mp hnone seen (List.mem_reverse.mpr hseen)
  obtain ⟨found, hfound⟩ := Option.ne_none_iff_exists'.mp hfound
  exact ⟨found.2, by rw [lastEndpoint, BoundedTable.lastSeen, hfound, Option.map_some]⟩

/-- The recipients of a frame that was learned, by what the calls up to it showed. -/
theorem Knows.recipients (h : Knows endpoints switch calls) (hclass : parsed.frameClass = classify parsed.destination)
    (source : EndpointId) :
    switch.recipients source parsed =
      if isGroup parsed.destination = false ∧ parsed.destinationKey ∈ admittedKeys endpoints calls then
        match lastEndpoint endpoints calls parsed.destinationKey with
        | some last => if last = source then [] else [last]
        | none => []
      else endpoints.filter fun endpoint => endpoint ≠ source := by
  have hlookup : switch.fdb.lookup parsed =
      if parsed.destinationKey ∈ admittedKeys endpoints calls then
        lastEndpoint endpoints calls parsed.destinationKey
      else none := by
    rw [ForwardingDatabase.lookup, h.entries]
    exact BoundedTable.lookup_learnAll _ _
  simp only [Switch.recipients, hclass, classify_eq_unicast, hlookup, EndpointSet.peers, h.ids]
  by_cases hunicast : isGroup parsed.destination = false
  · by_cases hadmitted : parsed.destinationKey ∈ admittedKeys endpoints calls
    · obtain ⟨last, hlast⟩ := lastEndpoint_of_admitted hadmitted
      have hcontains := (h.contains last).mpr (lastEndpoint_mem hlast)
      simp only [hunicast, hadmitted, hlast, hcontains, and_self, if_true, and_true, ne_eq, ite_not]
    · simp only [hunicast, hadmitted, if_true, if_false, and_false]
  · rw [if_neg hunicast, if_neg (fun h => hunicast h.1)]

theorem Knows.forward (h : Knows endpoints switch calls) (call : Call) :
    ForwardSpec endpoints calls call switch (switch.call call).1 (switch.call call).2 where
  unknown hsource := by
    rw [Switch.call, Switch.forward, if_neg (mt (h.contains call.source).mp hsource)]
  invalid hsource error herror := by
    rw [Switch.call, Switch.forward, if_pos ((h.contains call.source).mpr hsource), herror]
  refused := Switch.call_refused h
  known hsource parsed hparsed hunicast hadmitted := by
    obtain ⟨last, hlast⟩ := lastEndpoint_of_admitted hadmitted
    refine ⟨last, hlast, ?_⟩
    rw [(Switch.call_accepted h hsource hparsed).2, (h.call call).recipients (parseFrame_class hparsed),
      if_pos ⟨hunicast, hadmitted⟩, hlast]
  flooded hsource parsed hparsed hflood := by
    rw [(Switch.call_accepted h hsource hparsed).2, (h.call call).recipients (parseFrame_class hparsed),
      if_neg]
    rintro ⟨hunicast, hadmitted⟩
    obtain hgroup | hnew := hflood
    · rw [hunicast] at hgroup
      cases hgroup
    · exact hnew hadmitted

theorem ForwardSpec.recipients {call : Call} {recipients : List EndpointId}
    (h : ForwardSpec endpoints calls call before after result) (hresult : result = .ok recipients) :
    (∃ last, recipients = if last = call.source then [] else [last]) ∨
      recipients = endpoints.filter fun endpoint => endpoint ≠ call.source := by
  obtain (hunknown | ⟨error, herror⟩) | ⟨hsource, parsed, hparsed⟩ := refused_or_accepted endpoints call
  · cases hresult.symm.trans (h.unknown hunknown)
  · by_cases hsource : call.source ∈ endpoints
    · cases hresult.symm.trans (h.invalid hsource error herror)
    · cases hresult.symm.trans (h.unknown hsource)
  · by_cases hknown : isGroup parsed.destination = false ∧
        parsed.destinationKey ∈ admittedKeys endpoints (calls ++ [call])
    · obtain ⟨last, -, hlast⟩ := h.known hsource parsed hparsed hknown.1 hknown.2
      exact .inl ⟨last, Except.ok.inj (hresult.symm.trans hlast)⟩
    · refine .inr (Except.ok.inj (hresult.symm.trans (h.flooded hsource parsed hparsed ?_)))
      by_cases hgroup : isGroup parsed.destination = true
      · exact .inl hgroup
      · exact .inr fun hadmitted => hknown ⟨Bool.eq_false_iff.mpr hgroup, hadmitted⟩

/-- A frame is never sent back, nor twice, and of two endpoints only the other one gets it. -/
theorem ForwardSpec.no_reflection {call : Call} {recipients : List EndpointId} (hdistinct : endpoints.Nodup)
    (hsource : call.source ∈ endpoints) (h : ForwardSpec endpoints calls call before after result)
    (hresult : result = .ok recipients) :
    call.source ∉ recipients ∧ recipients.Nodup ∧ (endpoints.length = 2 → recipients.length ≤ 1) := by
  obtain ⟨last, rfl⟩ | rfl := h.recipients hresult
  · split
    · simp
    · rename_i hother
      simpa using Ne.symm hother
  · refine ⟨?_, hdistinct.filter _, fun hpair => ?_⟩
    · simp
    · have hlt : (endpoints.filter fun endpoint => endpoint ≠ call.source).length < endpoints.length :=
        List.length_filter_lt_length_iff_exists.mpr ⟨call.source, hsource, by simp⟩
      omega

/-- For every list of distinct endpoints, the switch does on every sequence of calls what its
specification says. -/
theorem switch_meets_specification (endpoints : List EndpointId) (hnonempty : endpoints ≠ [])
    (hdistinct : endpoints.Nodup) :
    ∃ switch, Switch.fromEndpoints endpoints = .ok switch ∧ ∀ (calls : List Call) (call : Call),
      let before := switch.afterCalls calls
      let result := (before.call call).2
      ForwardSpec endpoints calls call before (before.call call).1 result ∧
      before.fdbLen ≤ 4096 ∧
      ∀ recipients, result = .ok recipients →
        call.source ∉ recipients ∧ recipients.Nodup ∧ (endpoints.length = 2 → recipients.length ≤ 1) := by
  have hnew : Switch.fromEndpoints endpoints = .ok ⟨⟨endpoints, hnonempty⟩, .new⟩ := by
    rw [Switch.fromEndpoints, EndpointSet.fromIds, dif_neg hnonempty]
    rfl
  refine ⟨_, hnew, fun calls call => ?_⟩
  have hknows := Knows.after_calls hnew calls
  have hspec := hknows.forward call
  refine ⟨hspec, ?_, fun recipients hresult => ?_⟩
  · rw [Switch.fdbLen, ForwardingDatabase.len, hknows.entries]
    exact BoundedTable.len_learnAll_le _
  · have hsource : call.source ∈ endpoints := by
      by_contra hunknown
      cases hresult.symm.trans (hspec.unknown hunknown)
    exact hspec.no_reflection hdistinct hsource hresult

/-- A switch of two endpoints. -/
theorem switch_meets_specification_pair :
    ∃ switch, Switch.fromEndpoints [1, 2] = .ok switch ∧ ∀ (calls : List Call) (call : Call) recipients,
      ((switch.afterCalls calls).call call).2 = .ok recipients → recipients.length ≤ 1 := by
  obtain ⟨switch, hnew, hspec⟩ := switch_meets_specification [1, 2] (by decide) (by decide)
  refine ⟨switch, hnew, fun calls call recipients hresult => ?_⟩
  exact ((hspec calls call).2.2 recipients hresult).2.2 rfl

end WinTap.SwitchCore

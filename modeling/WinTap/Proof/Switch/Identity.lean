import WinTap.Proof.Switch.Runtime

/-!
# The identities of completions

An operation is named to the I/O ring by one word of 64 bits: its slot in the low 31, its generation in the next 32,
and the top bit left for the request that cancels it. The slots of a pool and the generations that it gives out stay
within these widths, so every read has an identity, and a different one from every other read.
-/

namespace WinTap.SwitchRuntime

open SwitchCore

variable {trace : List (PoolOp × PoolReply)}

/-- What is accepted is made of the slot and the generation that it is taken apart into. -/
theorem encodeCompletion_decode {value : Nat} (hword : value < 2 ^ 64) {slot generation : Nat}
    (h : decodeCompletion value = .ok (slot, generation)) : encodeCompletion slot generation = .ok value := by
  unfold decodeCompletion at h
  split at h
  · cases h
  rename_i hmarker
  have hlt : value < 2 ^ 63 := by
    by_contra hge
    rw [not_not, cancelCompletionMarker, Nat.and_two_pow, Nat.testBit_eq_decide_div_mod_eq,
      show value / 2 ^ 63 = 1 by omega] at hmarker
    simp at hmarker
  dsimp only at h
  split at h
  · cases h
  rename_i hgeneration
  cases h
  have hlow : value &&& slotMask = value % 2 ^ 31 := Nat.and_two_pow_sub_one_eq_mod ..
  have hhigh : value >>> generationShift &&& generationMask = value / 2 ^ 31 := by
    rw [generationMask, Nat.and_two_pow_sub_one_eq_mod, generationShift, Nat.shiftRight_eq_div_pow]
    exact Nat.mod_eq_of_lt (by change value / 2 ^ 31 < 2 ^ 32; omega)
  rw [hhigh] at hgeneration ⊢
  rw [hlow]
  have hexists : ∃ userData, encodeCompletion (value % 2 ^ 31) (value / 2 ^ 31) = .ok userData :=
    exists_encodeCompletion (by change _ ≤ 2 ^ 31 - 1; omega) (Nat.pos_of_ne_zero hgeneration)
      (by change _ ≤ 2 ^ 32 - 1; omega)
  obtain ⟨userData, hencode⟩ := hexists
  obtain ⟨-, -, -, rfl⟩ := encodeCompletion_ok hencode
  rw [hencode]
  exact congrArg _ (Nat.div_add_mod value (2 ^ 31))

theorem encodeCompletion_injective {c c' : SlotCompletion} {userData : UserData}
    (h : encodeCompletion c.slot c.generation = .ok userData)
    (h' : encodeCompletion c'.slot c'.generation = .ok userData) : c = c' := by
  have heq := (decodeCompletion_encode h).symm.trans (decodeCompletion_encode h')
  cases c
  cases c'
  cases heq
  rfl

end WinTap.SwitchRuntime

namespace WinTap.SwitchCore

/-! ### The reads of a run -/

/-- What the reads of a run that succeeded have returned, in order. -/
def readCompletions (trace : List (PoolOp × PoolReply)) : List SlotCompletion :=
  trace.filterMap fun
    | (.beginRead _, .ok (some c)) => some c
    | _ => none

theorem mem_readCompletions {c : SlotCompletion} (h : c ∈ readCompletions trace) :
    ∃ i, (.beginRead i, .ok (some c)) ∈ trace := by
  obtain ⟨⟨op, reply⟩, hentry, heq⟩ := List.mem_filterMap.mp h
  split at heq
  · rename_i i c' hread
    cases hread
    cases heq
    exact ⟨i, hentry⟩
  · cases heq

theorem generations_eq_readCompletions (hreads : ∀ i c, (.beginRead i, .ok (some c)) ∈ trace → c.slot = i)
    (slot : Nat) :
    generations slot trace = ((readCompletions trace).filter fun c => c.slot = slot).map SlotCompletion.generation := by
  induction trace with
  | nil => rfl
  | cons entry trace ih =>
    have hrest := ih fun i c hc => hreads i c (List.mem_cons_of_mem _ hc)
    by_cases hread : ∃ i c, entry = (.beginRead i, .ok (some c))
    · obtain ⟨i, c, rfl⟩ := hread
      have hslot := hreads i c List.mem_cons_self
      have hcompletions : readCompletions ((.beginRead i, .ok (some c)) :: trace) = c :: readCompletions trace := rfl
      rw [hcompletions, List.filter_cons]
      by_cases hi : i = slot
      · have hgenerations : generations slot ((.beginRead i, .ok (some c)) :: trace)
            = c.generation :: generations slot trace := List.filterMap_cons_some (if_pos hi)
        rw [hgenerations, hrest, if_pos (decide_eq_true (hslot.trans hi)), List.map_cons]
      · have hgenerations : generations slot ((.beginRead i, .ok (some c)) :: trace) = generations slot trace :=
          List.filterMap_cons_none (if_neg hi)
        rw [hgenerations, hrest, if_neg (by simpa [hslot] using hi)]
    · have hnone : readCompletions (entry :: trace) = readCompletions trace ∧
          generations slot (entry :: trace) = generations slot trace := by
        constructor <;>
        · refine List.filterMap_cons_none ?_
          split
          · rename_i i c
            exact absurd ⟨i, c, rfl⟩ hread
          · rfl
      rw [hnone.1, hnone.2, hrest]

theorem PoolInv.readCompletions_nodup {p : BufferPool} (h : PoolInv p trace) : (readCompletions trace).Nodup := by
  refine List.nodup_iff_count_le_one.mpr fun c => ?_
  obtain ⟨n, -, hgenerations⟩ := h.counts c.slot
  have hnodup : (generations c.slot trace).Nodup := hgenerations ▸ List.nodup_range'
  calc (readCompletions trace).count c
    _ = ((readCompletions trace).filter fun c' => c'.slot = c.slot).count c := (List.count_filter (by simp)).symm
    _ ≤ (generations c.slot trace).count c.generation := by
      rw [generations_eq_readCompletions h.reads]
      exact List.count_le_count_map
    _ ≤ 1 := List.nodup_iff_count_le_one.mp hnodup c.generation

theorem BufferPool.apply_length (p : BufferPool) (op : PoolOp) : (p.apply op).2.slots.length = p.slots.length := by
  have happlied := p.applied op
  generalize (p.apply op).1 = reply at happlied
  generalize (p.apply op).2 = p' at happlied
  cases happlied with
  | refused => rfl
  | began | moved => exact List.length_set

theorem BufferPool.run_length (p : BufferPool) (ops : List PoolOp) : (p.run ops).2.slots.length = p.slots.length := by
  induction ops generalizing p with
  | nil => rfl
  | cons op ops ih => exact (ih (p.apply op).2).trans (p.apply_length op)

end WinTap.SwitchCore

namespace WinTap.SwitchRuntime

open SwitchCore

/-- In every run of a pool whose slots fit into an identity: every read that succeeds has one, no two of them the same;
identities and the words that `decode_completion` accepts correspond; and the word that cancels an operation is the
identity of none, is not accepted, and gives the identity of the operation back. -/
theorem completion_identities_faithful {count : Nat} (hcount : count ≤ 2 ^ 31) {allocated : Bool} {p : BufferPool}
    (hnew : BufferPool.tryNew count allocated = .ok p) (ops : List PoolOp) :
    (∀ c ∈ readCompletions (p.run ops).1, ∃ id, encodeCompletion c.slot c.generation = .ok id ∧ id < 2 ^ 64 ∧
      decodeCompletion id = .ok (c.slot, c.generation)) ∧
    ((readCompletions (p.run ops).1).map fun c => encodeCompletion c.slot c.generation).Nodup ∧
    (∀ value < 2 ^ 64, ∀ slot generation, decodeCompletion value = .ok (slot, generation) →
      encodeCompletion slot generation = .ok value) ∧
    ∀ slot generation id, encodeCompletion slot generation = .ok id →
      (∀ slot' generation', encodeCompletion slot' generation' ≠ .ok (cancelCompletionMarker ||| id)) ∧
      (∃ e, decodeCompletion (cancelCompletionMarker ||| id) = .error e) ∧
      (cancelCompletionMarker ||| id) &&& cancelCompletionRest = id := by
  have h := (poolInv_tryNew hnew).run ops
  rw [List.nil_append] at h
  have hlength : (p.run ops).2.slots.length = count := by
    rw [p.run_length]
    unfold BufferPool.tryNew at hnew
    split at hnew <;> cases hnew
    exact List.length_replicate
  have hencodes : ∀ c ∈ readCompletions (p.run ops).1, ∃ id, encodeCompletion c.slot c.generation = .ok id := by
    intro c hc
    obtain ⟨i, hread⟩ := mem_readCompletions hc
    obtain rfl := h.reads i c hread
    obtain ⟨s, hslot, hpos, hle⟩ := h.returned hread
    have hlt : c.slot < count := hlength ▸ (List.getElem?_eq_some_iff.mp hslot).1
    exact exists_encodeCompletion (by change _ ≤ 2 ^ 31 - 1; omega) hpos (hle.trans (h.counted hslot).2.1)
  have hmarked : ∀ id, (cancelCompletionMarker ||| id) &&& cancelCompletionMarker ≠ 0 := marker_or_and_marker
  refine ⟨fun c hc => ?_, ?_, fun value hword slot generation => encodeCompletion_decode hword, ?_⟩
  · obtain ⟨id, hid⟩ := hencodes c hc
    exact ⟨id, hid, (encodeCompletion_lt hid).trans (by decide), decodeCompletion_encode hid⟩
  · refine List.Nodup.map_on (fun c hc c' hc' heq => ?_) h.readCompletions_nodup
    obtain ⟨id, hid⟩ := hencodes c hc
    exact encodeCompletion_injective hid (heq ▸ hid)
  · intro slot generation id hid
    refine ⟨fun slot' generation' hid' => ?_, ⟨_, if_pos (hmarked id)⟩, marker_or_and_rest (encodeCompletion_lt hid)⟩
    exact hmarked id (and_marker_of_lt (encodeCompletion_lt hid'))

/-- Two reads of the only slot of a pool. -/
theorem completion_identities_faithful_two :
    ∃ p, BufferPool.tryNew 1 true = .ok p ∧
      readCompletions (p.run [.beginRead 0, .cancel ⟨0, 1⟩, .beginRead 0]).1 = [⟨0, 1⟩, ⟨0, 2⟩] ∧
      ([⟨0, 1⟩, ⟨0, 2⟩].map fun c : SlotCompletion => encodeCompletion c.slot c.generation).Nodup :=
  ⟨⟨[⟨0, .free⟩]⟩, rfl, by decide,
    (completion_identities_faithful (by decide) (show BufferPool.tryNew 1 true = _ from rfl)
      [.beginRead 0, .cancel ⟨0, 1⟩, .beginRead 0]).2.1⟩

end WinTap.SwitchRuntime

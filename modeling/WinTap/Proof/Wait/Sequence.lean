import WinTap.Proof.Wait.Effects

/-!
# The sequence of the record

The sequence is advanced when a registration begins and again when its record is retired, so it numbers
the registrations as long as it does not wrap. A word observed in one registration can then be exchanged
in that registration only. The satisfied mask is followed through the same steps: it is the union of the
bits claimed for the published request.
-/

namespace WinTap

/-! ### Masks -/

/-- Every bit of the first mask is in the second. -/
def Within (bits mask : Mask) : Prop := bits &&& mask = bits

instance (bits mask : Mask) : Decidable (Within bits mask) := inferInstanceAs (Decidable (_ = _))

theorem Within.or {a b mask : Mask} (ha : Within a mask) (hb : Within b mask) : Within (a ||| b) mask := by
  unfold Within at *
  rw [BitVec.and_comm, BitVec.and_or_distrib_left, BitVec.and_comm mask a, BitVec.and_comm mask b, ha, hb]

theorem Within.trans {a b mask : Mask} (ha : Within a b) (hb : Within b mask) : Within a mask := by
  unfold Within at *
  rw [← ha, BitVec.and_assoc, hb]

theorem within_and_right (a mask : Mask) : Within (a &&& mask) mask := by
  unfold Within
  rw [BitVec.and_assoc, BitVec.and_self]

theorem within_or_left (a b : Mask) : Within a (a ||| b) := by
  unfold Within
  ext i
  simp only [BitVec.getElem_and, BitVec.getElem_or]
  cases a[i] <;> rfl

theorem within_zero (mask : Mask) : Within 0 mask := by
  simp [Within]

/-! ### The fields of a word -/

variable {observed word : Word}

theorem waitRecordSequence_lt (word : Word) : (waitRecordSequence word).toNat < 2 ^ 48 := by
  simp only [waitRecordSequence, waitRecordSequenceShift, BitVec.toNat_ushiftRight, Nat.shiftRight_eq_div_pow]
  have := word.isLt
  omega

@[simp] theorem waitRecordSequence_keep (word : Word) (satisfied : Mask) (state : BitVec 8) :
    waitRecordSequence (waitRecordWord (waitRecordSequence word) satisfied state)
      = waitRecordSequence word := by
  apply BitVec.eq_of_toNat_eq
  rw [waitRecordSequence_word, Nat.mod_eq_of_lt (waitRecordSequence_lt word)]

theorem waitRecordSequence_next (word : Word) (satisfied : Mask) (state : BitVec 8)
    (hlt : (waitRecordSequence word).toNat + 1 < 2 ^ 48) :
    (waitRecordSequence (waitRecordWord (waitRecordSequence word + 1) satisfied state)).toNat
      = (waitRecordSequence word).toNat + 1 := by
  rw [waitRecordSequence_word, BitVec.toNat_add]
  have hone : (1 : Word).toNat = 1 := rfl
  rw [hone, Nat.mod_eq_of_lt (show (waitRecordSequence word).toNat + 1 < 2 ^ 64 by omega),
    Nat.mod_eq_of_lt hlt]

theorem within_byte (word : Word) : Within (waitRecordSatisfied word) 0xFF#32 := by
  unfold Within
  apply BitVec.eq_of_getLsbD_eq
  intro bit hbit
  have hmask : (0xFF#32).getLsbD bit = decide (bit < 8) := by
    rw [BitVec.getLsbD_ofNat, show 255 = 2 ^ 8 - 1 from rfl, Nat.testBit_two_pow_sub_one]
    simp [hbit]
  by_cases hlow : bit < 8
  · simp [hmask, hlow]
  · simp only [waitRecordSatisfied, waitRecordSatisfiedMask, waitRecordSatisfiedShift,
      BitVec.getLsbD_and, BitVec.getLsbD_setWidth, BitVec.getLsbD_ushiftRight, BitVec.getLsbD_shiftLeft,
      getLsbD_byteMask]
    simp [hlow]

@[simp] theorem waitRecordSatisfied_shifted (word : Word) (target : BitVec 8) :
    waitRecordSatisfied (shiftedWord word target) = waitRecordSatisfied word := by
  rw [shiftedWord, waitRecordSatisfied_word]
  exact within_byte word

@[simp] theorem waitRecordSequence_shifted (word : Word) (target : BitVec 8) :
    waitRecordSequence (shiftedWord word target) = waitRecordSequence word :=
  waitRecordSequence_keep word _ target

@[simp] theorem waitRecordSequence_claimed (word : Word) (bits : Mask) :
    waitRecordSequence (claimedWord word bits) = waitRecordSequence word :=
  waitRecordSequence_keep word _ waitScheduled

/-- The satisfied field has room for every bit that can be asked for. -/
theorem waitRecordSatisfied_claimed (word : Word) {bits : Mask}
    (hbits : Within bits adaptiveInterestSupported) :
    waitRecordSatisfied (claimedWord word bits) = waitRecordSatisfied word ||| bits := by
  rw [claimedWord, waitRecordSatisfied_word]
  exact Within.or (within_byte word) (hbits.trans (by decide))

/-! ### The registration a claim belongs to -/

variable {m m' : Ledger} {t : ThreadId} {th : WaitThread} {r : Request} {c c' : Core}

/-- The sequence counts the registrations begun and the records retired. -/
def Counted (m : Ledger) : Prop :=
  (waitRecordSequence m.word).toNat + (if waitRecordState m.word = waitFree then 0 else 1)
    = 2 * m.registrations

/-- The word was observed in the registration the record is in, after it became pending, or in an
earlier one. -/
def Follows (m : Ledger) (observed : Word) : Prop :=
  (waitRecordSequence observed).toNat ≤ (waitRecordSequence m.word).toNat
    ∧ (waitRecordSequence observed = waitRecordSequence m.word →
      waitRecordState m.word ≠ waitRegistering ∧ waitRecordState m.word ≠ waitTeardown)

/-- What a thread is about to store advances the sequence of the record it retires. -/
def Storing (m : Ledger) (th : WaitThread) : Prop :=
  ∀ observed, th.storing = some observed → waitRecordSequence observed = waitRecordSequence m.word

/-- Bits claimed for a word fit the interest while the word can still be exchanged. -/
def Fits (m : Ledger) (observed : Word) (bits : Mask) : Prop :=
  bits ≠ 0 ∧ (waitRecordSequence observed = waitRecordSequence m.word →
    waitRecordState m.word = waitPending ∨ waitRecordState m.word = waitScheduled →
    Within bits m.interest)

theorem Shift.source_ne_free {source target : BitVec 8} (h : Shift source target) :
    source ≠ waitFree ∧ target ≠ waitFree ∧ target ≠ waitPending ∧ target ≠ waitScheduled
      ∧ target ≠ waitRegistering ∧ (target = waitTeardown → source = waitRegistering) := by
  rcases h with ⟨rfl, rfl | rfl⟩ | ⟨rfl, rfl | rfl⟩ | ⟨rfl | rfl, rfl | rfl⟩ <;> decide

/-- A claim may still succeed. -/
def Open (word : Word) : Prop := waitRecordState word = waitPending ∨ waitRecordState word = waitScheduled

/-- The record of an owner is neither free nor open. -/
theorem StageOk.not_open {c : Core} {x : Stage} (hx : StageOk c.view x) (hown : x.owns = true) :
    waitRecordState c.waitState ≠ waitFree ∧ ¬ Open c.waitState := by
  obtain ⟨hfree, hpending, hscheduled, -⟩ := hx.of_owns hown
  refine ⟨fun h => hfree (view_state h), ?_⟩
  rintro (h | h)
  · exact hpending (view_state h)
  · exact hscheduled (view_state h)

/-- A step within one registration, or between two. -/
structure Stays (m m' : Ledger) : Prop where
  sequence : waitRecordSequence m'.word = waitRecordSequence m.word
  registrations : m'.registrations = m.registrations
  free : waitRecordState m.word = waitFree ↔ waitRecordState m'.word = waitFree
  later : waitRecordState m.word ≠ waitRegistering ∧ waitRecordState m.word ≠ waitTeardown →
    waitRecordState m'.word ≠ waitRegistering ∧ waitRecordState m'.word ≠ waitTeardown
  still : Open m'.word → waitRecordState m.word = waitRegistering ∨ Open m.word

theorem Stays.same (hword : m'.word = m.word) (hregs : m'.registrations = m.registrations) :
    Stays m m' := by
  constructor <;> simp_all

/-- One step stays in the registration or advances the sequence by one. -/
theorem Effect.sequence (h : Effect t m th m') (hcount : Counted m) (hstore : Storing m th)
    (hretire : waitRecordState m.word = waitFree → th.storing = none)
    (hbound : m'.registrations < 2 ^ 47) :
    Stays m m'
    ∨ ((waitRecordSequence m'.word).toNat = (waitRecordSequence m.word).toNat + 1 ∧ Counted m') := by
  unfold Counted at hcount
  cases h with
  | «begin» r hstage hfree =>
    right
    dsimp only at hbound
    rw [if_pos hfree] at hcount
    have hnext := waitRecordSequence_next m.word 0 waitRegistering (by omega)
    refine ⟨hnext, ?_⟩
    unfold Counted
    rw [hnext, if_neg (by rw [waitRecordState_word]; decide)]
    dsimp only
    omega
  | retire r completes observed hstage hstoring =>
    right
    dsimp only at hbound
    have hne : waitRecordState m.word ≠ waitFree := fun hfree => by simp [hretire hfree] at hstoring
    rw [if_neg hne] at hcount
    have hsame := hstore observed hstoring
    have hnext := waitRecordSequence_next observed 0 waitFree (by rw [hsame]; omega)
    rw [hsame] at hnext ⊢
    refine ⟨hnext, ?_⟩
    unfold Counted
    dsimp only
    rw [hnext, if_pos (waitRecordState_word _ _ _)]
    omega
  | pend r hstage hstate =>
    left
    constructor
    all_goals simp [hstate, Open]
    decide
  | shift target hshift =>
    obtain ⟨hsource, htarget, hpending, hscheduled, hregistering, htorn⟩ := hshift.source_ne_free
    left
    constructor <;> simp_all [Open]
    tauto
  | claim bits hbits hstate =>
    left
    have hscheduled : waitRecordState (claimedWord m.word bits) = waitScheduled :=
      waitRecordState_word _ _ _
    refine ⟨waitRecordSequence_claimed _ _, rfl, ?_, fun _ => ?_, fun _ => .inr hstate⟩
    · rw [hscheduled]
      refine iff_of_false (fun hfree => ?_) (by decide)
      rcases hstate with h | h <;> exact absurd (hfree.symm.trans h) (by decide)
    · rw [hscheduled]
      decide
  | _ => all_goals exact .inl (.same rfl rfl)

theorem Stays.counted (h : Stays m m') (hcount : Counted m) : Counted m' := by
  unfold Counted at *
  rw [h.sequence, h.registrations, ← hcount]
  simp only [← h.free]

theorem Effect.counted (h : Effect t m th m') (hcount : Counted m) (hstore : Storing m th)
    (hretire : waitRecordState m.word = waitFree → th.storing = none)
    (hbound : m'.registrations < 2 ^ 47) : Counted m' :=
  (h.sequence hcount hstore hretire hbound).elim (·.counted hcount) And.right

theorem Stays.follows (h : Stays m m') (hobs : Follows m observed) : Follows m' observed := by
  refine ⟨h.sequence ▸ hobs.1, fun hsame => h.later (hobs.2 ?_)⟩
  rw [hsame, h.sequence]

theorem Follows.advanced (hobs : Follows m observed)
    (hnext : (waitRecordSequence m'.word).toNat = (waitRecordSequence m.word).toNat + 1) :
    Follows m' observed ∧ waitRecordSequence observed ≠ waitRecordSequence m'.word := by
  have hle := hobs.1
  have hne : waitRecordSequence observed ≠ waitRecordSequence m'.word := by
    intro hsame
    rw [hsame] at hle
    omega
  exact ⟨⟨by omega, fun hsame => absurd hsame hne⟩, hne⟩

/-! ### The history of a request -/

/-- The union of the bits claimed for a request. -/
def claimedBits (r : Request) : List Call → Mask
  | [] => 0
  | .claim _ (some q) bits _ :: earlier =>
    if q = r then bits ||| claimedBits r earlier else claimedBits r earlier
  | _ :: earlier => claimedBits r earlier

/-- The mask is what a request is answered with: the bits claimed for it, and those of its interest that
were ready when the worker looked. -/
def Answer (calls : List Call) (r : Request) (mask : Mask) : Prop :=
  ∃ interest ready, .dispatch r interest ∈ calls ∧ .refresh r ready ∈ calls
    ∧ mask = claimedBits r calls ||| (ready &&& interest)
    ∧ claimedBits r calls ≠ 0 ∧ Within (claimedBits r calls) interest

/-- The record carries the registration of a request. -/
def Registered (m : Ledger) (r : Request) : Prop :=
  .dispatch r m.interest ∈ m.calls ∧ Within m.interest adaptiveInterestSupported
    ∧ waitRecordSatisfied m.word = claimedBits r m.calls ∧ Within (claimedBits r m.calls) m.interest

/-- The record carries no bits yet. -/
def Blank (m : Ledger) (r : Request) : Prop :=
  claimedBits r m.calls = 0 ∧ waitRecordSatisfied m.word = 0

/-- The worker took the record with this word. -/
def Taken (m : Ledger) (r : Request) (claimed : Word) : Prop :=
  Registered m r ∧ waitRecordSatisfied claimed = claimedBits r m.calls ∧ claimedBits r m.calls ≠ 0

theorem claimedBits_plain {call : Call} (h : ∀ u q bits pending, call ≠ .claim u (some q) bits pending)
    (r : Request) (calls : List Call) : claimedBits r (call :: calls) = claimedBits r calls := by
  cases call with
  | claim u q bits pending =>
    cases q with
    | none => rfl
    | some q => exact absurd rfl (h u q bits pending)
  | _ => all_goals rfl

/-- Nothing a request's mask depends on changed. -/
structure Framed (m m' : Ledger) : Prop where
  interest : m'.interest = m.interest
  sequence : waitRecordSequence m'.word = waitRecordSequence m.word
  satisfied : waitRecordSatisfied m'.word = waitRecordSatisfied m.word
  slot : m'.slot = m.slot
  claimed : ∀ r, claimedBits r m'.calls = claimedBits r m.calls
  calls : ∀ call ∈ m.calls, call ∈ m'.calls

theorem Effect.calls (h : Effect t m th m') : ∀ call ∈ m.calls, call ∈ m'.calls := by
  intro call hcall
  cases h <;> first | exact hcall | exact List.mem_cons_of_mem _ hcall

/-- Only a claim on the published request adds bits. -/
theorem Effect.claimed (h : Effect t m th m') (hr : m.slot = some r → ¬ Open m.word) :
    claimedBits r m'.calls = claimedBits r m.calls := by
  cases h with
  | note call hplain =>
    refine claimedBits_plain ?_ r m.calls
    rintro u q bits pending rfl
    simp [Call.plain] at hplain
  | claim bits hbits hopen =>
    dsimp only
    cases hslot : m.slot with
    | none => rfl
    | some q =>
      have hne : q ≠ r := fun hq => hr (hq ▸ hslot) hopen
      simp [claimedBits, hne]
  | _ => all_goals rfl

/-- A thread that does not own the record leaves the owner's registration alone. -/
theorem Effect.framed (h : Effect t m th m') (hguest : th.stage.owns = false)
    (hfree : waitRecordState m.word ≠ waitFree) (hopen : ¬ Open m.word) : Framed m m' := by
  have hclaimed : ∀ r, claimedBits r m'.calls = claimedBits r m.calls := fun r =>
    h.claimed fun _ => hopen
  have hcalls := h.calls
  cases h with
  | «begin» r hstage hstate => exact absurd hstate hfree
  | claim bits hbits hstate => exact absurd hstate hopen
  | publish r hstage | unpublish r completes hstage | retire r completes observed hstage
  | pend r hstage =>
    all_goals simp [hstage, Stage.owns] at hguest
  | interest interest hown => simp [hown] at hguest
  | shift target hshift =>
    exact ⟨rfl, waitRecordSequence_shifted _ _, waitRecordSatisfied_shifted _ _, rfl, hclaimed, hcalls⟩
  | _ => all_goals exact ⟨rfl, rfl, rfl, rfl, hclaimed, hcalls⟩

theorem Framed.registered (h : Framed m m') (hreg : Registered m r) : Registered m' r := by
  obtain ⟨hasked, hsupported, hsat, hwithin⟩ := hreg
  refine ⟨?_, ?_, ?_, ?_⟩
  · rw [h.interest]
    exact h.calls _ hasked
  · rwa [h.interest]
  · rw [h.satisfied, h.claimed, hsat]
  · rwa [h.interest, h.claimed]

theorem Framed.blank (h : Framed m m') (hblank : Blank m r) : Blank m' r :=
  ⟨(h.claimed r).trans hblank.1, h.satisfied.trans hblank.2⟩

theorem Framed.taken (h : Framed m m') (htaken : Taken m r observed) : Taken m' r observed := by
  obtain ⟨hreg, hsat, hne⟩ := htaken
  exact ⟨h.registered hreg, by rw [hsat, h.claimed], by rwa [h.claimed]⟩

theorem Answer.keep {calls calls' : List Call} {mask : Mask} (h : Answer calls r mask)
    (hclaimed : claimedBits r calls' = claimedBits r calls) (hcalls : ∀ call ∈ calls, call ∈ calls') :
    Answer calls' r mask := by
  obtain ⟨interest, ready, hasked, hready, hmask, hne, hwithin⟩ := h
  exact ⟨interest, ready, hcalls _ hasked, hcalls _ hready, by rw [hmask, hclaimed], by rwa [hclaimed],
    by rwa [hclaimed]⟩

end WinTap

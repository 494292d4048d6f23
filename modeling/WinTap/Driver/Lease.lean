import WinTap.Wait.Record

/-!
# Callback leases

Each direction of the datapath has one atomic word that holds the number of live leases in its low 61
bits and a closer bit for each quiesce scope above them. A lease is granted only by a word without
closers, and closing sets a bit of that same word, so no lease is granted after admission closed.

The compare-exchange loop of `acquire` installs what it computed from the word it last observed, so a
whole acquisition is one step here.
-/

namespace WinTap

/-- A quiesce scope. Each one has a closer bit of its own. -/
inductive Closer where
  | power
  | hardware
  | owner
  deriving DecidableEq, Repr

def Closer.bit : Closer → Nat
  | .power => 63
  | .hardware => 62
  | .owner => 61

/-- `DATAPATH_CLOSED_*`. -/
def Closer.mask (c : Closer) : Word := 1#64 <<< c.bit

def datapathClosedAny : Word := Closer.power.mask ||| Closer.hardware.mask ||| Closer.owner.mask
def datapathLeaseCount : Word := ~~~datapathClosedAny

/-- The number of live leases. -/
def leaseCount (w : Word) : Nat := (w &&& datapathLeaseCount).toNat

/-- Whether a scope has closed admission. -/
def closedBy (w : Word) (c : Closer) : Prop := w &&& c.mask ≠ 0#64

instance (w : Word) (c : Closer) : Decidable (closedBy w c) := inferInstanceAs (Decidable (_ ≠ _))

/-- `DatapathLease::acquire`. -/
def acquireLease (w : Word) : Option Word :=
  if w &&& datapathClosedAny ≠ 0#64 ∨ w &&& datapathLeaseCount = datapathLeaseCount then none
  else some (w + 1#64)

/-- The drop of a `DatapathLease`. -/
def dropLease (w : Word) : Word := w - 1#64

def shutLeases (w : Word) (c : Closer) : Word := w ||| c.mask

def resumeLeases (w : Word) (c : Closer) : Word := w &&& ~~~c.mask

/-! ### The two fields of the word -/

theorem datapathLeaseCount_eq : datapathLeaseCount = BitVec.ofNat 64 (2 ^ 61 - 1) := by decide

theorem leaseCount_eq (w : Word) : leaseCount w = w.toNat % 2 ^ 61 := by
  rw [leaseCount, datapathLeaseCount_eq, BitVec.toNat_and, BitVec.toNat_ofNat,
    Nat.mod_eq_of_lt (by decide), Nat.and_two_pow_sub_one_eq_mod]

theorem Closer.mask_eq (c : Closer) : c.mask = BitVec.twoPow 64 c.bit := by
  cases c <;> decide

/-- A closer is one bit of the word. -/
theorem closedBy_iff (w : Word) (c : Closer) : closedBy w c ↔ w.getLsbD c.bit = true := by
  rw [closedBy, Closer.mask_eq, BitVec.and_twoPow]
  have hmask : BitVec.twoPow 64 c.bit ≠ 0#64 := by cases c <;> decide
  cases w.getLsbD c.bit
  · simp
  · simpa using hmask

/-- The closers lie above the count. -/
theorem closedBy_iff_testBit (w : Word) (c : Closer) :
    closedBy w c ↔ (w.toNat / 2 ^ 61).testBit (c.bit - 61) = true := by
  have hbit : 61 ≤ c.bit := by cases c <;> decide
  rw [closedBy_iff, Nat.testBit_div_two_pow, Nat.sub_add_cancel hbit]
  rfl

theorem closedBy_congr {w w' : Word} (h : w'.toNat / 2 ^ 61 = w.toNat / 2 ^ 61) (c : Closer) :
    closedBy w' c ↔ closedBy w c := by
  rw [closedBy_iff_testBit, closedBy_iff_testBit, h]

theorem leaseCount_lt (w : Word) : leaseCount w < 2 ^ 61 := by
  rw [leaseCount_eq]
  exact Nat.mod_lt _ (by decide)

/-! ### What the operations do to them -/

theorem acquireLease_eq {w w' : Word} (h : acquireLease w = some w') :
    leaseCount w' = leaseCount w + 1 ∧ (∀ c, closedBy w' c ↔ closedBy w c) ∧ ∀ c, ¬closedBy w c := by
  unfold acquireLease at h
  split at h
  · cases h
  rename_i hopen
  obtain ⟨hany, hfull⟩ := not_or.mp hopen
  rw [not_not] at hany
  obtain rfl : w + 1#64 = w' := Option.some.inj h
  have hcount : leaseCount w ≠ 2 ^ 61 - 1 := by
    intro hmax
    refine hfull (BitVec.eq_of_toNat_eq ?_)
    rw [datapathLeaseCount_eq]
    exact hmax
  have hlt := leaseCount_lt w
  rw [leaseCount_eq] at hcount hlt
  have hsum : (w + 1#64).toNat = w.toNat + 1 := by
    rw [BitVec.toNat_add]
    have := w.isLt
    refine Nat.mod_eq_of_lt ?_
    change w.toNat + 1 < 2 ^ 64
    omega
  refine ⟨?_, ?_, ?_⟩
  · rw [leaseCount_eq, leaseCount_eq, hsum]
    omega
  · refine closedBy_congr ?_
    rw [hsum]
    omega
  · intro c hc
    refine hc ?_
    have hsub : w &&& c.mask = (w &&& datapathClosedAny) &&& c.mask := by
      rw [BitVec.and_assoc]
      congr 1
      cases c <;> decide
    rw [hsub, hany, BitVec.zero_and]

theorem dropLease_eq {w : Word} (h : 0 < leaseCount w) :
    leaseCount (dropLease w) + 1 = leaseCount w ∧ ∀ c, closedBy (dropLease w) c ↔ closedBy w c := by
  rw [leaseCount_eq] at h
  have hdiff : (dropLease w).toNat = w.toNat - 1 := by
    rw [dropLease, BitVec.toNat_sub_of_le]
    · rfl
    · rw [BitVec.le_def]
      change 1 ≤ w.toNat
      omega
  refine ⟨?_, closedBy_congr ?_⟩
  · rw [leaseCount_eq, leaseCount_eq, hdiff]
    omega
  · rw [hdiff]
    omega

theorem shutLeases_eq (w : Word) (c : Closer) :
    leaseCount (shutLeases w c) = leaseCount w ∧
      ∀ c', closedBy (shutLeases w c) c' ↔ closedBy w c' ∨ c' = c := by
  refine ⟨?_, fun c' => ?_⟩
  · rw [leaseCount, leaseCount, shutLeases, BitVec.and_comm, BitVec.and_comm w]
    have hzero : datapathLeaseCount &&& c.mask = 0#64 := by cases c <;> decide
    rw [BitVec.and_or_distrib_left, hzero, BitVec.or_zero]
  · rw [closedBy_iff, closedBy_iff, shutLeases, BitVec.getLsbD_or, Bool.or_eq_true]
    have hmask : c.mask.getLsbD c'.bit = true ↔ c' = c := by cases c <;> cases c' <;> decide
    rw [hmask]

theorem resumeLeases_eq (w : Word) (c : Closer) :
    leaseCount (resumeLeases w c) = leaseCount w ∧
      ∀ c', closedBy (resumeLeases w c) c' ↔ closedBy w c' ∧ c' ≠ c := by
  refine ⟨?_, fun c' => ?_⟩
  · rw [leaseCount, leaseCount, resumeLeases, BitVec.and_assoc]
    have hmask : ~~~c.mask &&& datapathLeaseCount = datapathLeaseCount := by cases c <;> decide
    rw [hmask]
  · rw [closedBy_iff, closedBy_iff, resumeLeases, BitVec.getLsbD_and, Bool.and_eq_true]
    have hmask : (~~~c.mask).getLsbD c'.bit = true ↔ c' ≠ c := by cases c <;> cases c' <;> decide
    rw [hmask]

end WinTap

import Mathlib.Data.BitVec

/-!
# The packed adaptive-wait record

The record of the one adaptive wait is a single 64-bit word: the state in the low byte, the satisfied
readiness bits in the next byte, and above them the registration sequence, which keeps the 48 bits that
the shift leaves it. This file has the codec of that word and the three facts the rest of the proof
uses of it: each field reads back what `waitRecordWord` packed.
-/

namespace WinTap

/-- A 64-bit machine word. -/
abbrev Word := BitVec 64

/-- A readiness or interest mask. -/
abbrev Mask := BitVec 32

/-- The status codes of the framework. Any value may come back from a framework call. -/
abbrev NtStatus := BitVec 32

def statusSuccess : NtStatus := 0x00000000#32
def statusCancelled : NtStatus := 0xC0000120#32
def statusDeviceNotReady : NtStatus := 0xC00000A3#32
def statusInsufficientResources : NtStatus := 0xC000009A#32
def statusInvalidParameter : NtStatus := 0xC000000D#32
def statusInvalidDeviceRequest : NtStatus := 0xC0000010#32
def statusInvalidBufferSize : NtStatus := 0xC0000206#32
def statusBufferTooSmall : NtStatus := 0xC0000023#32
def statusNotSupported : NtStatus := 0xC00000BB#32
def statusNoMoreEntries : NtStatus := 0x8000001A#32
def statusDeviceBusy : NtStatus := 0x80000011#32

/-! ### States of the record -/

/-- No wait is registered; the request slot is free. -/
def waitFree : BitVec 8 := 0#8
/-- The dispatch path owns the request and has not marked it cancelable yet. -/
def waitRegistering : BitVec 8 := 1#8
/-- The request is marked cancelable and published for atomic claiming. -/
def waitPending : BitVec 8 := 2#8
/-- A queue transition claimed the wait; the passive worker owns the unmark. -/
def waitScheduled : BitVec 8 := 3#8
/-- A single owner is inside `WdfRequestUnmarkCancelable` for this request. -/
def waitUnmarking : BitVec 8 := 4#8
/-- Teardown claimed a registration that has not finished marking. -/
def waitTeardown : BitVec 8 := 5#8
/-- The cancellation callback owns or performed terminal completion. -/
def waitCancelled : BitVec 8 := 6#8

/-! ### The codec -/

def waitRecordStateMask : Word := 0xFF#64
def waitRecordSatisfiedShift : Nat := 8
def waitRecordSatisfiedMask : Word := 0xFF#64 <<< waitRecordSatisfiedShift
def waitRecordSequenceShift : Nat := 16

def waitRecordState (word : Word) : BitVec 8 :=
  (word &&& waitRecordStateMask).setWidth 8

def waitRecordSatisfied (word : Word) : Mask :=
  ((word &&& waitRecordSatisfiedMask) >>> waitRecordSatisfiedShift).setWidth 32

def waitRecordSequence (word : Word) : Word :=
  word >>> waitRecordSequenceShift

def waitRecordWord (sequence : Word) (satisfied : Mask) (state : BitVec 8) : Word :=
  (sequence <<< waitRecordSequenceShift)
    ||| ((satisfied.setWidth 64 <<< waitRecordSatisfiedShift) &&& waitRecordSatisfiedMask)
    ||| state.setWidth 64

theorem getLsbD_byteMask (bit : Nat) : (0xFF#64).getLsbD bit = decide (bit < 8) := by
  rw [BitVec.getLsbD_ofNat, show 255 = 2 ^ 8 - 1 from rfl, Nat.testBit_two_pow_sub_one]
  by_cases hbit : bit < 8
  · simp [hbit, show bit < 64 by omega]
  · simp [hbit]

@[simp] theorem waitRecordState_word (sequence : Word) (satisfied : Mask) (state : BitVec 8) :
    waitRecordState (waitRecordWord sequence satisfied state) = state := by
  apply BitVec.eq_of_getLsbD_eq
  intro bit hbit
  simp only [waitRecordState, waitRecordWord, waitRecordStateMask, waitRecordSatisfiedShift,
    waitRecordSatisfiedMask, waitRecordSequenceShift, BitVec.getLsbD_setWidth, BitVec.getLsbD_and,
    BitVec.getLsbD_or, BitVec.getLsbD_shiftLeft, getLsbD_byteMask]
  simp [hbit, show bit < 16 by omega, show bit < 64 by omega]

@[simp] theorem waitRecordSatisfied_word (sequence : Word) (satisfied : Mask) (state : BitVec 8) :
    waitRecordSatisfied (waitRecordWord sequence satisfied state) = satisfied &&& 0xFF#32 := by
  apply BitVec.eq_of_getLsbD_eq
  intro bit hbit
  have hmask : (0xFF#32).getLsbD bit = decide (bit < 8) := by
    rw [BitVec.getLsbD_ofNat, show 255 = 2 ^ 8 - 1 from rfl, Nat.testBit_two_pow_sub_one]
    simp [hbit]
  simp only [waitRecordSatisfied, waitRecordWord, waitRecordSatisfiedShift, waitRecordSatisfiedMask,
    waitRecordSequenceShift, BitVec.getLsbD_setWidth, BitVec.getLsbD_and, BitVec.getLsbD_or,
    BitVec.getLsbD_shiftLeft, BitVec.getLsbD_ushiftRight, getLsbD_byteMask, hmask]
  by_cases hlow : bit < 8
  · simp [hbit, hlow, show 8 + bit < 64 by omega, show 8 + bit < 16 by omega,
      show ¬ 8 + bit < 8 by omega, show bit < 64 by omega]
  · simp [hlow]

theorem waitRecordSequence_word (sequence : Word) (satisfied : Mask) (state : BitVec 8) :
    (waitRecordSequence (waitRecordWord sequence satisfied state)).toNat = sequence.toNat % 2 ^ 48 := by
  have hfield : waitRecordSequence (waitRecordWord sequence satisfied state)
      = (sequence.setWidth 48).setWidth 64 := by
    apply BitVec.eq_of_getLsbD_eq
    intro bit hbit
    have hstate : state.getLsbD (16 + bit) = false := BitVec.getLsbD_of_ge _ _ (by omega)
    simp only [waitRecordSequence, waitRecordWord, waitRecordSatisfiedShift, waitRecordSatisfiedMask,
      waitRecordSequenceShift, BitVec.getLsbD_setWidth, BitVec.getLsbD_and, BitVec.getLsbD_or,
      BitVec.getLsbD_shiftLeft, BitVec.getLsbD_ushiftRight, getLsbD_byteMask, hstate]
    by_cases hlow : bit < 48
    · simp [hbit, hlow, show 16 + bit < 64 by omega, show ¬ 16 + bit - 8 < 8 by omega]
    · simp [hlow, show ¬ 16 + bit < 64 by omega]
  rw [hfield, BitVec.toNat_setWidth, BitVec.toNat_setWidth]
  have hlt : sequence.toNat % 2 ^ 48 < 2 ^ 64 := by omega
  exact Nat.mod_eq_of_lt hlt

end WinTap

import WinTap.Base.Digits
import WinTap.Proof.Bus.HardwareId
import WinTap.Switch.EndpointGuid

/-!
# The three readings of a GUID

The switch cuts the text of a GUID at its hyphens and reads five numbers. The driver of a child gathers 32 digits and
passes the hyphens. The bus writes the digits out of the fields. A text that the switch accepts gives the fields whose
digits are the ones in the text, so the bus writes the text again, in upper case, and the driver reads the fields from
it.
-/

namespace WinTap.SwitchRuntime

variable {b : Byte} {i v0 v1 v2 v3 v4 w : Nat} {l part part0 part1 part2 part3 part4 s : List Byte}

/-! ### Bytes -/

/-- The byte as a character of a hardware ID. -/
def widen (b : Byte) : Wide := b.setWidth 16

theorem toDigit_of_hexdigit (h : isAsciiHexdigit b = true) :
    ∃ d, toDigit b = some d ∧ d < 16 ∧ Bus.hex (.ofNat 8 d) = widen (toAsciiUppercase b) ∧
      b ≠ byte '-' ∧ b ≠ byte '+' ∧ toDigit (toAsciiLowercase b) = toDigit b ∧
      isAsciiHexdigit (toAsciiLowercase b) = true := by
  revert b
  decide +kernel

theorem widen_hexdigit (h : isAsciiHexdigit b = true) :
    widen b ≠ wide '}' ∧ widen b ≠ wide '-' ∧ widen (toAsciiUppercase b) ≠ wide '}' ∧
      widen (toAsciiUppercase b) ≠ wide '-' ∧ hexNibble (widen b) = hexNibble (widen (toAsciiUppercase b)) := by
  revert b
  decide +kernel

theorem toAsciiLowercase_hyphen : toAsciiLowercase (byte '-') = byte '-' := by decide

/-! ### The parts of an accepted text -/

/-- Where `is_guid` expects a hyphen. -/
def HyphenIndex (i : Nat) : Prop := i = 8 ∨ i = 13 ∨ i = 18 ∨ i = 23

theorem isGuidByte_hyphen (h : isGuidByte (b, i) = true) (hi : HyphenIndex i) : b = byte '-' := by
  have hif : isGuidByte (b, i) = decide (b = byte '-') := if_pos hi
  rw [hif] at h
  exact of_decide_eq_true h

theorem isGuidByte_hexdigit (h : isGuidByte (b, i) = true) (hi : ¬HyphenIndex i) : isAsciiHexdigit b = true := by
  have hif : isGuidByte (b, i) = isAsciiHexdigit b := if_neg hi
  rwa [hif] at h

/-- A part of a text that `is_guid` accepts. -/
def HexPart (part : List Byte) : Prop := ∀ b ∈ part, isAsciiHexdigit b = true

/-- A part ends at the next hyphen. -/
theorem exists_part {k n : Nat} (hall : (l.zipIdx k).all isGuidByte = true) (hlength : n < l.length)
    (hhex : ∀ i < n, ¬HyphenIndex (k + i)) (hhyphen : HyphenIndex (k + n)) :
    ∃ part rest, l = part ++ byte '-' :: rest ∧ part.length = n ∧ HexPart part ∧
      (rest.zipIdx (k + n + 1)).all isGuidByte = true := by
  induction n generalizing k l with
  | zero =>
    cases l with
    | nil => cases hlength
    | cons b rest =>
      rw [List.zipIdx_cons, List.all_cons, Bool.and_eq_true] at hall
      obtain rfl := isGuidByte_hyphen hall.1 hhyphen
      exact ⟨[], rest, rfl, rfl, fun b hb => (by cases hb), hall.2⟩
  | succ n ih =>
    cases l with
    | nil => cases hlength
    | cons b rest =>
      rw [List.zipIdx_cons, List.all_cons, Bool.and_eq_true] at hall
      have hindex : ∀ i, k + 1 + i = k + (i + 1) := fun i => by omega
      obtain ⟨part, after, rfl, rfl, hpart, hafter⟩ := ih hall.2 (Nat.lt_of_succ_lt_succ hlength)
        (fun i hi => hindex i ▸ hhex (i + 1) (Nat.succ_lt_succ hi)) (hindex n ▸ hhyphen)
      refine ⟨b :: part, after, rfl, rfl, fun b' hb' => ?_, ?_⟩
      · obtain rfl | hb' := List.mem_cons.mp hb'
        · exact isGuidByte_hexdigit hall.1 (hhex 0 (Nat.succ_pos _))
        · exact hpart b' hb'
      · rwa [hindex] at hafter

/-- The last part has no hyphen. -/
theorem hexPart_of_all {k : Nat} (hall : (l.zipIdx k).all isGuidByte = true) (hhex : ∀ i, k ≤ i → ¬HyphenIndex i) :
    HexPart l := by
  intro b hb
  obtain ⟨i, hi, rfl⟩ := List.getElem_of_mem hb
  have hentry : (l[i], k + i) ∈ l.zipIdx k := List.mk_add_mem_zipIdx_iff_getElem?.mpr (List.getElem?_eq_getElem hi)
  exact isGuidByte_hexdigit (List.all_eq_true.mp hall _ hentry) (hhex _ (Nat.le_add_right _ _))

/-- The five parts of a text. -/
structure GuidParts (s part0 part1 part2 part3 part4 : List Byte) : Prop where
  text : s = part0 ++ byte '-' :: (part1 ++ byte '-' :: (part2 ++ byte '-' :: (part3 ++ byte '-' :: part4)))
  lengths : part0.length = 8 ∧ part1.length = 4 ∧ part2.length = 4 ∧ part3.length = 4 ∧ part4.length = 12
  hex : HexPart part0 ∧ HexPart part1 ∧ HexPart part2 ∧ HexPart part3 ∧ HexPart part4

theorem exists_guidParts (h : isGuid s = true) :
    ∃ part0 part1 part2 part3 part4, GuidParts s part0 part1 part2 part3 part4 := by
  rw [isGuid, Bool.and_eq_true, decide_eq_true_eq] at h
  obtain ⟨hlength, hall⟩ := h
  obtain ⟨part0, rest, rfl, hlength0, hpart0, hall⟩ := exists_part (n := 8) hall (by omega)
    (by unfold HyphenIndex; omega) (by unfold HyphenIndex; omega)
  rw [List.length_append, List.length_cons] at hlength
  obtain ⟨part1, rest, rfl, hlength1, hpart1, hall⟩ := exists_part (n := 4) hall (by omega)
    (by unfold HyphenIndex; omega) (by unfold HyphenIndex; omega)
  rw [List.length_append, List.length_cons] at hlength
  obtain ⟨part2, rest, rfl, hlength2, hpart2, hall⟩ := exists_part (n := 4) hall (by omega)
    (by unfold HyphenIndex; omega) (by unfold HyphenIndex; omega)
  rw [List.length_append, List.length_cons] at hlength
  obtain ⟨part3, part4, rfl, hlength3, hpart3, hall⟩ := exists_part (n := 4) hall (by omega)
    (by unfold HyphenIndex; omega) (by unfold HyphenIndex; omega)
  rw [List.length_append, List.length_cons] at hlength
  have hpart4 := hexPart_of_all hall (by unfold HyphenIndex; omega)
  exact ⟨part0, part1, part2, part3, part4, rfl, ⟨hlength0, hlength1, hlength2, hlength3, by omega⟩,
    hpart0, hpart1, hpart2, hpart3, hpart4⟩

/-! ### Reading a part -/

/-- The digits of a part. -/
def partDigits (part : List Byte) : List Nat := part.map fun b => (toDigit b).getD 0

/-- The number that a part stands for. -/
def partValue (part : List Byte) : Nat := Digits.value 16 (partDigits part)

theorem length_partDigits (part : List Byte) : (partDigits part).length = part.length := List.length_map _

theorem HexPart.digits_lt (h : HexPart part) : ∀ d ∈ partDigits part, d < 16 := by
  intro d hd
  obtain ⟨b, hb, rfl⟩ := List.mem_map.mp hd
  obtain ⟨d, hdigit, hlt, -⟩ := toDigit_of_hexdigit (h b hb)
  rwa [hdigit]

theorem HexPart.value_lt (h : HexPart part) : partValue part < 16 ^ part.length := by
  rw [← length_partDigits]
  exact Digits.value_lt (by decide) h.digits_lt

theorem readDigits_eq (h : HexPart part) (start : Nat) (hbound : start * 16 ^ part.length + partValue part < 2 ^ 64) :
    readDigits start part = some (start * 16 ^ part.length + partValue part) := by
  induction part generalizing start with
  | nil => simp [readDigits, partValue, partDigits, Digits.value]
  | cons b part ih =>
    obtain ⟨d, hdigit, -⟩ := toDigit_of_hexdigit (h b List.mem_cons_self)
    have hrest : HexPart part := fun b' hb' => h b' (List.mem_cons_of_mem b hb')
    have hvalue : partValue (b :: part) = 16 ^ part.length * d + partValue part := by
      rw [partValue, partDigits, List.map_cons, hdigit, Option.getD_some, Digits.value_cons, List.length_map]
      rfl
    have hsplit : start * 16 ^ (b :: part).length + partValue (b :: part)
        = (start * 16 + d) * 16 ^ part.length + partValue part := by
      rw [hvalue, List.length_cons, Nat.pow_succ]
      ring
    rw [hsplit] at hbound ⊢
    have hle : start * 16 + d ≤ (start * 16 + d) * 16 ^ part.length :=
      Nat.le_mul_of_pos_right _ (Nat.pow_pos (by decide))
    rw [readDigits, checked, if_pos (by omega), hdigit]
    simp only [Option.bind_eq_bind, Option.bind_some]
    rw [checked, if_pos (by omega), Option.bind_some, ih hrest _ hbound]

theorem parsePart_eq (h : HexPart part) (hne : part ≠ []) {width : Nat} (hwidth : 16 ^ part.length ≤ 2 ^ width)
    (hmachine : 2 ^ width ≤ 2 ^ 64) : parsePart width part = some (.ofNat width (partValue part)) := by
  have hlt := h.value_lt
  have hread := readDigits_eq h 0 (by omega)
  rw [Nat.zero_mul, Nat.zero_add] at hread
  have hfrom : fromStrRadix part = some (partValue part) := by
    cases part with
    | nil => exact absurd rfl hne
    | cons b part =>
      obtain ⟨d, -, -, -, hhyphen, hplus, -⟩ := toDigit_of_hexdigit (h b List.mem_cons_self)
      rw [fromStrRadix, if_neg (by simp [hhyphen, hplus]), if_neg hplus, hread]
  rw [parsePart, hfrom, Option.bind_some, if_pos (by omega)]

theorem HexPart.not_hyphen (h : HexPart part) : ∀ b ∈ part, (b == byte '-') = false := by
  intro b hb
  obtain ⟨d, -, -, -, hhyphen, -⟩ := toDigit_of_hexdigit (h b hb)
  exact beq_false_of_ne hhyphen

/-- The GUID that `parse_guid` makes of the numbers. -/
def guidOfValues (v0 v1 v2 v3 v4 : Nat) : Guid where
  data1 := .ofNat 32 v0
  data2 := .ofNat 16 v1
  data3 := .ofNat 16 v2
  data4 := #v[(BitVec.ofNat 16 v3 >>> 8).setWidth 8, (BitVec.ofNat 16 v3).setWidth 8,
    (BitVec.ofNat 64 v4 >>> 40).setWidth 8, (BitVec.ofNat 64 v4 >>> 32).setWidth 8,
    (BitVec.ofNat 64 v4 >>> 24).setWidth 8, (BitVec.ofNat 64 v4 >>> 16).setWidth 8,
    (BitVec.ofNat 64 v4 >>> 8).setWidth 8, (BitVec.ofNat 64 v4).setWidth 8]

theorem GuidParts.parseGuid_eq (h : GuidParts s part0 part1 part2 part3 part4) :
    parseGuid s = .ok (guidOfValues (partValue part0) (partValue part1) (partValue part2) (partValue part3)
      (partValue part4)) := by
  obtain ⟨rfl, ⟨hlength0, hlength1, hlength2, hlength3, hlength4⟩, hhex0, hhex1, hhex2, hhex3, hhex4⟩ := h
  have hsplit : (part0 ++ byte '-' :: (part1 ++ byte '-' :: (part2 ++ byte '-' ::
      (part3 ++ byte '-' :: part4)))).splitOn (byte '-') = [part0, part1, part2, part3, part4] := by
    rw [List.splitOn, List.splitOnP_append_cons_of_forall_mem hhex0.not_hyphen _ (by simp),
      List.splitOnP_append_cons_of_forall_mem hhex1.not_hyphen _ (by simp),
      List.splitOnP_append_cons_of_forall_mem hhex2.not_hyphen _ (by simp),
      List.splitOnP_append_cons_of_forall_mem hhex3.not_hyphen _ (by simp),
      List.splitOnP_eq_singleton hhex4.not_hyphen]
  have hne : ∀ {part : List Byte} {n : Nat}, part.length = n + 1 → part ≠ [] := by
    rintro part n hlength rfl
    cases hlength
  rw [parseGuid, hsplit]
  simp only [hlength0, hlength1, hlength2, hlength3, hlength4, ne_eq, not_true_eq_false, or_self, if_false]
  rw [parsePart_eq hhex0 (hne hlength0) (by rw [hlength0]; decide) (by decide),
    parsePart_eq hhex1 (hne hlength1) (by rw [hlength1]; decide) (by decide),
    parsePart_eq hhex2 (hne hlength2) (by rw [hlength2]; decide) (by decide),
    parsePart_eq hhex3 (hne hlength3) (by rw [hlength3]; decide) (by decide),
    parsePart_eq hhex4 (hne hlength4) (by rw [hlength4]; decide) (by decide)]
  rfl

/-! ### Writing the digits -/

/-- A number as the bus writes it. -/
def hexText (count v : Nat) : List Wide :=
  (List.range count).map fun i => Bus.hex (.ofNat 8 (v / 16 ^ (count - 1 - i) % 16))

/-- The bus writes the digits of a part in upper case. -/
theorem HexPart.hexText_eq (h : HexPart part) :
    hexText part.length (partValue part) = part.map fun b => widen (toAsciiUppercase b) := by
  have hdigits := Digits.eq_map_range (by decide) h.digits_lt
  rw [length_partDigits] at hdigits
  have hwritten : hexText part.length (partValue part) = (partDigits part).map fun d => Bus.hex (.ofNat 8 d) := by
    rw [hdigits, List.map_map]
    rfl
  rw [hwritten, partDigits, List.map_map]
  refine List.map_congr_left fun b hb => ?_
  obtain ⟨d, hdigit, -, hupper, -⟩ := toDigit_of_hexdigit (h b hb)
  rw [Function.comp_apply, hdigit, Option.getD_some, hupper]

theorem and_mask (n : Nat) : n &&& 15 = n % 16 := Nat.and_two_pow_sub_one_eq_mod n 4

theorem field_nibble (hw : 4 ≤ w) (x : BitVec w) (k : Nat) :
    ((x >>> k) &&& 0xf).setWidth 8 = BitVec.ofNat 8 (x.toNat / 2 ^ k % 16) := by
  have hmask : (0xf : BitVec w).toNat = 15 :=
    Nat.mod_eq_of_lt (Nat.lt_of_lt_of_le (by decide) (Nat.pow_le_pow_right (by decide) hw))
  apply BitVec.eq_of_toNat_eq
  rw [BitVec.toNat_setWidth, BitVec.toNat_and, BitVec.toNat_ushiftRight, BitVec.toNat_ofNat, hmask, and_mask,
    Nat.shiftRight_eq_div_pow]

theorem field_low_nibble (hw : 4 ≤ w) (x : BitVec w) :
    (x &&& 0xf).setWidth 8 = BitVec.ofNat 8 (x.toNat / 2 ^ 0 % 16) := by
  have h := field_nibble hw x 0
  rwa [BitVec.ushiftRight_zero] at h

/-- The two digits of a byte of a number. -/
theorem byte_nibbles (x : BitVec w) (k : Nat) :
    (x >>> k).setWidth 8 >>> 4 = BitVec.ofNat 8 (x.toNat / 2 ^ (k + 4) % 16) ∧
      (x >>> k).setWidth 8 &&& 0xf = BitVec.ofNat 8 (x.toNat / 2 ^ k % 16) := by
  refine ⟨?_, ?_⟩ <;> apply BitVec.eq_of_toNat_eq
  · rw [BitVec.toNat_ushiftRight, BitVec.toNat_setWidth, BitVec.toNat_ushiftRight, BitVec.toNat_ofNat,
      Nat.shiftRight_eq_div_pow, Nat.shiftRight_eq_div_pow, Nat.pow_add, ← Nat.div_div_eq_div_mul]
    omega
  · rw [BitVec.toNat_and, BitVec.toNat_setWidth, BitVec.toNat_ushiftRight, BitVec.toNat_ofNat,
      Nat.shiftRight_eq_div_pow]
    change _ &&& 15 = _
    rw [and_mask]
    omega

theorem byte_low_nibbles (x : BitVec w) :
    x.setWidth 8 >>> 4 = BitVec.ofNat 8 (x.toNat / 2 ^ 4 % 16) ∧
      x.setWidth 8 &&& 0xf = BitVec.ofNat 8 (x.toNat / 2 ^ 0 % 16) := by
  have h := byte_nibbles x 0
  rwa [BitVec.ushiftRight_zero] at h

/-- The bus writes the numbers that `parse_guid` has read. -/
theorem nibbleTexts_guidOfValues (h0 : v0 < 2 ^ 32) (h1 : v1 < 2 ^ 16) (h2 : v2 < 2 ^ 16) :
    (Bus.guidNibbles (guidOfValues v0 v1 v2 v3 v4)).zipIdx.flatMap nibbleText =
      hexText 8 v0 ++ wide '-' :: (hexText 4 v1 ++ wide '-' :: (hexText 4 v2 ++ [wide '-'])) := by
  have hv0 : (BitVec.ofNat 32 v0).toNat = v0 := Nat.mod_eq_of_lt h0
  have hv1 : (BitVec.ofNat 16 v1).toNat = v1 := Nat.mod_eq_of_lt h1
  have hv2 : (BitVec.ofNat 16 v2).toNat = v2 := Nat.mod_eq_of_lt h2
  simp only [Bus.guidNibbles, guidOfValues, field_nibble (show 4 ≤ 32 by decide),
    field_low_nibble (show 4 ≤ 32 by decide), field_nibble (show 4 ≤ 16 by decide),
    field_low_nibble (show 4 ≤ 16 by decide), hv0, hv1, hv2]
  rfl

theorem byteTexts_guidOfValues (h3 : v3 < 2 ^ 16) (h4 : v4 < 2 ^ 64) :
    (guidOfValues v0 v1 v2 v3 v4).data4.toList.zipIdx.flatMap byteText =
      hexText 4 v3 ++ wide '-' :: hexText 12 v4 := by
  have hv3 : (BitVec.ofNat 16 v3).toNat = v3 := Nat.mod_eq_of_lt h3
  have hv4 : (BitVec.ofNat 64 v4).toNat = v4 := Nat.mod_eq_of_lt h4
  simp only [guidOfValues, Vector.toList_mk, List.zipIdx_cons, List.flatMap_cons, byteText, byte_nibbles, hv3, hv4]
  simp only [byte_low_nibbles, hv3, hv4]
  rfl

/-! ### Agreement -/

/-- The bus writes an accepted text in upper case. -/
theorem GuidParts.guidDigitsText_eq (h : GuidParts s part0 part1 part2 part3 part4) :
    guidDigitsText (guidOfValues (partValue part0) (partValue part1) (partValue part2) (partValue part3)
      (partValue part4)) = s.map fun b => widen (toAsciiUppercase b) := by
  obtain ⟨rfl, ⟨hlength0, hlength1, hlength2, hlength3, hlength4⟩, hhex0, hhex1, hhex2, hhex3, hhex4⟩ := h
  have hhyphen : widen (toAsciiUppercase (byte '-')) = wide '-' := by decide
  have hlt0 := hhex0.value_lt
  have hlt1 := hhex1.value_lt
  have hlt2 := hhex2.value_lt
  have hlt3 := hhex3.value_lt
  have hlt4 := hhex4.value_lt
  have htext0 := hhex0.hexText_eq
  have htext1 := hhex1.hexText_eq
  have htext2 := hhex2.hexText_eq
  have htext3 := hhex3.hexText_eq
  have htext4 := hhex4.hexText_eq
  rw [hlength0] at hlt0 htext0
  rw [hlength1] at hlt1 htext1
  rw [hlength2] at hlt2 htext2
  rw [hlength3] at hlt3 htext3
  rw [hlength4] at hlt4 htext4
  rw [guidDigitsText, nibbleTexts_guidOfValues (by omega) (by omega) (by omega),
    byteTexts_guidOfValues (by omega) (by omega), htext0, htext1, htext2, htext3, htext4]
  simp [hhyphen]

theorem map_part (hpart : HexPart part) :
    HexPart (part.map toAsciiLowercase) ∧ partValue (part.map toAsciiLowercase) = partValue part := by
  refine ⟨fun b hb => ?_, ?_⟩
  · obtain ⟨b', hb', rfl⟩ := List.mem_map.mp hb
    obtain ⟨d, -, -, -, -, -, -, hlower⟩ := toDigit_of_hexdigit (hpart b' hb')
    exact hlower
  · rw [partValue, partDigits, List.map_map, partValue, partDigits]
    refine congrArg _ (List.map_congr_left fun b hb => ?_)
    obtain ⟨d, -, -, -, -, -, hdigit, -⟩ := toDigit_of_hexdigit (hpart b hb)
    rw [Function.comp_apply, hdigit]

theorem GuidParts.lower (h : GuidParts s part0 part1 part2 part3 part4) :
    GuidParts (s.map toAsciiLowercase) (part0.map toAsciiLowercase) (part1.map toAsciiLowercase)
      (part2.map toAsciiLowercase) (part3.map toAsciiLowercase) (part4.map toAsciiLowercase) := by
  obtain ⟨rfl, hlengths, hhex0, hhex1, hhex2, hhex3, hhex4⟩ := h
  refine ⟨by simp [toAsciiLowercase_hyphen], by simpa using hlengths, (map_part hhex0).1, (map_part hhex1).1,
    (map_part hhex2).1, (map_part hhex3).1, (map_part hhex4).1⟩

theorem parseGuidDigits_upper (h : HexPart part) (digits : Cursor (BitVec 8) 32) {rest rest' : List Wide}
    (hrest : ∀ digits, parseGuidDigits digits rest = parseGuidDigits digits rest') :
    parseGuidDigits digits (part.map widen ++ rest)
      = parseGuidDigits digits (part.map (fun b => widen (toAsciiUppercase b)) ++ rest') := by
  induction part generalizing digits with
  | nil => exact hrest digits
  | cons b part ih =>
    obtain ⟨hclose, hhyphen, hclose', hhyphen', hnibble⟩ := widen_hexdigit (h b List.mem_cons_self)
    have htail : HexPart part := fun b' hb' => h b' (List.mem_cons_of_mem b hb')
    simp only [List.map_cons, List.cons_append, parseGuidDigits, if_neg hclose, if_neg hhyphen, if_neg hclose',
      if_neg hhyphen', hnibble]
    cases hexNibble (widen (toAsciiUppercase b)) with
    | none => rfl
    | some value =>
      simp only
      cases digits.push value with
      | none => rfl
      | some digits => exact ih htail digits

/-- The driver of the child reads both cases alike. -/
theorem GuidParts.parseGuidDigits_eq (h : GuidParts s part0 part1 part2 part3 part4)
    (digits : Cursor (BitVec 8) 32) (rest : List Wide) :
    parseGuidDigits digits (s.map widen ++ rest)
      = parseGuidDigits digits (s.map (fun b => widen (toAsciiUppercase b)) ++ rest) := by
  obtain ⟨rfl, -, hhex0, hhex1, hhex2, hhex3, hhex4⟩ := h
  have hupper : widen (toAsciiUppercase (byte '-')) = wide '-' := by decide
  have hsame : widen (byte '-') = wide '-' := by decide
  simp only [List.map_append, List.map_cons, List.append_assoc, List.cons_append, hupper, hsame]
  refine parseGuidDigits_upper hhex0 digits fun digits => ?_
  rw [parseGuidDigits_hyphen, parseGuidDigits_hyphen]
  refine parseGuidDigits_upper hhex1 digits fun digits => ?_
  rw [parseGuidDigits_hyphen, parseGuidDigits_hyphen]
  refine parseGuidDigits_upper hhex2 digits fun digits => ?_
  rw [parseGuidDigits_hyphen, parseGuidDigits_hyphen]
  refine parseGuidDigits_upper hhex3 digits fun digits => ?_
  rw [parseGuidDigits_hyphen, parseGuidDigits_hyphen]
  exact parseGuidDigits_upper hhex4 digits fun digits => rfl

/-- A GUID that the switch accepts is read by it in any letter case, the driver of the child reads the same fields from
the device ID with the text in braces, and the bus writes that device ID for the fields, in upper case. -/
theorem guid_codecs_agree (s : List Byte) (h : isGuid s = true) :
    ∃ guid, parseGuid s = .ok guid ∧ parseGuid (s.map toAsciiLowercase) = .ok guid ∧
      parseChildGuidFromHardwareId (Bus.childDevicePrefix ++ wide '{' :: (s.map widen ++ [wide '}'])) = some guid ∧
      ∃ deviceId, Bus.childDeviceId guid = some deviceId ∧ Bus.unicodeString deviceId.toList =
        Bus.childDevicePrefix ++ wide '{' :: (s.map (fun b => widen (toAsciiUppercase b)) ++ [wide '}']) := by
  obtain ⟨part0, part1, part2, part3, part4, hparts⟩ := exists_guidParts h
  have htext := hparts.guidDigitsText_eq
  obtain ⟨hhex0, hhex1, hhex2, hhex3, hhex4⟩ := hparts.hex
  generalize hguid : guidOfValues (partValue part0) (partValue part1) (partValue part2) (partValue part3)
    (partValue part4) = guid at htext
  refine ⟨guid, ?_, ?_, ?_, _, childDeviceId_eq guid, ?_⟩
  · rw [hparts.parseGuid_eq, hguid]
  · rw [hparts.lower.parseGuid_eq, (map_part hhex0).2, (map_part hhex1).2, (map_part hhex2).2, (map_part hhex3).2,
      (map_part hhex4).2, hguid]
  · have hread := parseChildGuidFromHardwareId_deviceIdText guid
    rw [deviceIdText, htext] at hread
    rw [← hread, parseChildGuidFromHardwareId, parseChildGuidFromHardwareId, if_pos (by rfl), if_pos (by rfl)]
    exact hparts.parseGuidDigits_eq _ _
  · rw [unicodeString_filled (by rw [length_deviceIdText]; decide) fun c hc => deviceIdText_ne_zero hc, deviceIdText,
      htext]

/-- A text in mixed case. -/
theorem guid_codecs_agree_mixed :
    isGuid (text "25d32EDF-7c8C-4f09-901F-650b232E864d") = true ∧
      ∃ guid, parseGuid (text "25d32EDF-7c8C-4f09-901F-650b232E864d") = .ok guid ∧ guid.data1 = 0x25d32edf := by
  have haccepted : isGuid (text "25d32EDF-7c8C-4f09-901F-650b232E864d") = true := by decide +kernel
  obtain ⟨guid, hguid, -⟩ := guid_codecs_agree _ haccepted
  refine ⟨haccepted, guid, hguid, ?_⟩
  have hdata : (parseGuid (text "25d32EDF-7c8C-4f09-901F-650b232E864d")).map Guid.data1 = .ok 0x25d32edf := by
    decide +kernel
  rw [hguid] at hdata
  exact Except.ok.inj hdata

end WinTap.SwitchRuntime

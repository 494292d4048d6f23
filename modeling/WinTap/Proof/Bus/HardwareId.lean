import WinTap.Bus.HardwareId
import Mathlib.Data.Nat.Digits.Lemmas
import Mathlib.Tactic.IntervalCases

/-!
# The bus and the child agree on a child

What the encoders write is a list of characters that fits, and the decoder of the child reads the GUID and
the MTU back from it. Both sides are followed string by string: the device ID digit by digit, the MTU
through the decimal digits of the number.
-/

namespace WinTap

open Cursor

variable {n : Nat} {v : BitVec 8} {guid : Guid} {c : Wide} {written : List Wide} {mtu : BitVec 32}

/-! ### Hexadecimal digits -/

/-- A digit that stands for four bits. -/
def IsNibble (v : BitVec 8) : Prop := v.toNat < 16

theorem isNibble_and (b : BitVec 8) : IsNibble (b &&& 0xf) := by
  rw [IsNibble, BitVec.toNat_and]
  exact Nat.lt_of_le_of_lt Nat.and_le_right (by decide)

theorem isNibble_setWidth (hn : 8 ≤ n) (x : BitVec n) : IsNibble ((x &&& 0xf).setWidth 8) := by
  have hmask : (0xf : BitVec n).toNat = 15 := by
    refine (BitVec.toNat_ofNat ..).trans (Nat.mod_eq_of_lt ?_)
    exact Nat.lt_of_lt_of_le (by decide) (Nat.pow_le_pow_right (by decide) hn)
  have hle : (x &&& 0xf).toNat ≤ 15 := by
    rw [BitVec.toNat_and, hmask]
    exact Nat.and_le_right
  rw [IsNibble, BitVec.toNat_setWidth]
  omega

theorem isNibble_ushiftRight (b : BitVec 8) : IsNibble (b >>> 4) := by
  have := b.isLt
  rw [IsNibble, BitVec.toNat_ushiftRight, Nat.shiftRight_eq_div_pow]
  omega

/-- The decoder reads what the encoder wrote, and takes it for neither punctuation. -/
theorem hexNibble_hex (hv : IsNibble v) :
    hexNibble (Bus.hex v) = some v ∧ Bus.hex v ≠ wide '}' ∧ Bus.hex v ≠ wide '-' ∧ Bus.hex v ≠ 0 := by
  have hvalue : v = BitVec.ofNat 8 v.toNat := (BitVec.ofNat_toNat 8 v).symm ▸ (BitVec.setWidth_eq v).symm
  rw [IsNibble] at hv
  rw [hvalue]
  generalize v.toNat = k at hv
  interval_cases k <;> decide

theorem low_nibble (hn : 8 ≤ n) (x : BitVec n) : (x &&& 0xf).setWidth 8 = (x.setWidth 4).setWidth 8 := by
  have hmask : ∀ i, i < 8 → (0xf : BitVec n).getLsbD i = (15).testBit i := by
    intro i hi
    refine (BitVec.getLsbD_ofNat ..).trans ?_
    rw [decide_eq_true (Nat.lt_of_lt_of_le hi hn), Bool.true_and]
  refine BitVec.eq_of_getLsbD_eq fun i hi => ?_
  rw [BitVec.getLsbD_setWidth, BitVec.getLsbD_and, hmask i hi, BitVec.getLsbD_setWidth,
    BitVec.getLsbD_setWidth]
  interval_cases i <;> simp [Nat.testBit]

theorem join_nibbles (hn : 8 ≤ n) (x : BitVec n) (k : Nat) :
    ((x >>> (k + 4)) &&& 0xf).setWidth 8 <<< 4 ||| ((x >>> k) &&& 0xf).setWidth 8 =
      (x >>> k).setWidth 8 := by
  rw [low_nibble hn, low_nibble hn]
  refine BitVec.eq_of_getLsbD_eq fun i hi => ?_
  interval_cases i <;> simp [Nat.add_assoc]

theorem join_low_nibbles (hn : 8 ≤ n) (x : BitVec n) :
    ((x >>> 4) &&& 0xf).setWidth 8 <<< 4 ||| (x &&& 0xf).setWidth 8 = x.setWidth 8 := by
  simpa using join_nibbles hn x 0

theorem join_byte (b : BitVec 8) : (b >>> 4) <<< 4 ||| (b &&& 0xf) = b := by
  refine BitVec.eq_of_getLsbD_eq fun i hi => ?_
  interval_cases i <;> simp

theorem join_word (x : BitVec 16) :
    ((x >>> 8).setWidth 8).setWidth 16 <<< 8 ||| (x.setWidth 8).setWidth 16 = x := by
  refine BitVec.eq_of_getLsbD_eq fun i hi => ?_
  interval_cases i <;> simp

theorem join_dword (x : BitVec 32) :
    ((x >>> 24).setWidth 8).setWidth 32 <<< 24 ||| ((x >>> 16).setWidth 8).setWidth 32 <<< 16 |||
      ((x >>> 8).setWidth 8).setWidth 32 <<< 8 ||| (x.setWidth 8).setWidth 32 = x := by
  refine BitVec.eq_of_getLsbD_eq fun i hi => ?_
  interval_cases i <;> simp

/-! ### The text of a GUID -/

/-- What the first loop of `guid_text` writes for a digit. -/
def nibbleText (entry : BitVec 8 × Nat) : List Wide :=
  Bus.hex entry.1 :: if entry.2 = 7 ∨ entry.2 = 11 ∨ entry.2 = 15 then [wide '-'] else []

/-- What the second loop of `guid_text` writes for a byte. -/
def byteText (entry : BitVec 8 × Nat) : List Wide :=
  Bus.hex (entry.1 >>> 4) :: Bus.hex (entry.1 &&& 0xf) :: if entry.2 = 1 then [wide '-'] else []

/-- The digits of a GUID with their hyphens. -/
def guidDigitsText (guid : Guid) : List Wide :=
  (Bus.guidNibbles guid).zipIdx.flatMap nibbleText ++ guid.data4.toList.zipIdx.flatMap byteText

theorem exists_data4 (data4 : Vector (BitVec 8) 8) :
    ∃ b₀ b₁ b₂ b₃ b₄ b₅ b₆ b₇, data4 = #v[b₀, b₁, b₂, b₃, b₄, b₅, b₆, b₇] := by
  refine ⟨data4[0], data4[1], data4[2], data4[3], data4[4], data4[5], data4[6], data4[7], ?_⟩
  ext i hi
  interval_cases i <;> rfl

theorem length_guidDigitsText (guid : Guid) : (guidDigitsText guid).length = 36 := by
  obtain ⟨data1, data2, data3, data4⟩ := guid
  obtain ⟨b₀, b₁, b₂, b₃, b₄, b₅, b₆, b₇, rfl⟩ := exists_data4 data4
  rfl

theorem pushNibble_eq (c : Cursor Wide 64) (entry : BitVec 8 × Nat) :
    Bus.pushNibble c entry = c.pushAll (nibbleText entry) := by
  rw [nibbleText, Cursor.pushAll_cons]
  simp only [Bus.pushNibble, Option.bind_eq_bind]
  split <;> simp only [Cursor.pushAll_cons, Cursor.pushAll_nil, Option.bind_fun_some]

theorem pushByte_eq (c : Cursor Wide 64) (entry : BitVec 8 × Nat) :
    Bus.pushByte c entry = c.pushAll (byteText entry) := by
  rw [byteText, Cursor.pushAll_cons]
  simp only [Bus.pushByte, Option.bind_eq_bind, Cursor.pushAll_cons]
  split <;> simp only [Cursor.pushAll_cons, Cursor.pushAll_nil, Option.bind_fun_some]

/-- What `guid_text` writes before the terminator. -/
def guidWritten (guid : Guid) (leading : List Wide) : List Wide :=
  leading.takeWhile (fun c => c ≠ 0) ++ wide '{' :: (guidDigitsText guid ++ [wide '}'])

theorem guidText_eq_pushAll (guid : Guid) (leading : List Wide) :
    Bus.guidText guid leading =
      ((Cursor.start 0).pushAll (guidWritten guid leading ++ [0])).map Cursor.text := by
  simp only [Bus.guidText, Cursor.foldlM_eq_pushAll pushNibble_eq, Cursor.foldlM_eq_pushAll pushByte_eq,
    Bus.pushPrefix, guidWritten, guidDigitsText, List.append_assoc, List.cons_append, List.nil_append,
    Cursor.pushAll_append, Cursor.pushAll_cons, Cursor.pushAll_nil, Option.bind_eq_bind, Option.map_eq_bind,
    Option.bind_assoc, Option.bind_fun_some]
  rfl

theorem isNibble_guidNibbles (hv : v ∈ Bus.guidNibbles guid) : IsNibble v := by
  simp only [Bus.guidNibbles, List.mem_cons, List.not_mem_nil, or_false] at hv
  rcases hv with rfl | rfl | rfl | rfl | rfl | rfl | rfl | rfl | rfl | rfl | rfl | rfl | rfl | rfl | rfl | rfl <;>
    exact isNibble_setWidth (by decide) _

theorem guidDigitsText_ne_zero (hc : c ∈ guidDigitsText guid) : c ≠ 0 := by
  have hhyphen : wide '-' ≠ 0 := by decide
  rw [guidDigitsText, List.mem_append, List.mem_flatMap, List.mem_flatMap] at hc
  obtain ⟨entry, hentry, hc⟩ | ⟨entry, -, hc⟩ := hc
  · have hdigit := hexNibble_hex (isNibble_guidNibbles (List.fst_mem_of_mem_zipIdx hentry))
    rw [nibbleText, List.mem_cons] at hc
    obtain rfl | hc := hc
    · exact hdigit.2.2.2
    · split at hc
      · rw [List.mem_singleton.mp hc]
        exact hhyphen
      · cases hc
  · rw [byteText, List.mem_cons, List.mem_cons] at hc
    obtain rfl | rfl | hc := hc
    · exact (hexNibble_hex (isNibble_ushiftRight entry.1)).2.2.2
    · exact (hexNibble_hex (isNibble_and entry.1)).2.2.2
    · split at hc
      · rw [List.mem_singleton.mp hc]
        exact hhyphen
      · cases hc

theorem unicodeString_filled (hroom : written.length + 1 ≤ n) (hwritten : ∀ c ∈ written, c ≠ 0) :
    Bus.unicodeString (filled 0 (written ++ [0]) : Cursor Wide n).text.toList = written := by
  rw [text_filled (by rwa [List.length_append]), Bus.unicodeString, List.append_assoc,
    List.takeWhile_append_of_pos (by simpa using hwritten)]
  simp

def deviceIdText (guid : Guid) : List Wide :=
  Bus.childDevicePrefix ++ wide '{' :: (guidDigitsText guid ++ [wide '}'])

theorem length_deviceIdText (guid : Guid) : (deviceIdText guid).length = 48 := by
  simp only [deviceIdText, List.length_append, List.length_cons, length_guidDigitsText, List.length_nil]
  rfl

theorem deviceIdText_ne_zero (hc : c ∈ deviceIdText guid) : c ≠ 0 := by
  have hleading : Bus.childDevicePrefix.all (fun c => c ≠ 0) = true := by decide
  rw [deviceIdText, List.mem_append, List.mem_cons, List.mem_append, List.mem_singleton] at hc
  obtain hc | rfl | hc | rfl := hc
  · simpa using List.all_eq_true.mp hleading c hc
  · decide
  · exact guidDigitsText_ne_zero hc
  · decide

/-- `child_device_id` stays within its array. -/
theorem childDeviceId_eq (guid : Guid) :
    Bus.childDeviceId guid = some (filled 0 (deviceIdText guid ++ [0])).text := by
  have hwritten : guidWritten guid (Bus.childDevicePrefix ++ [0]) = deviceIdText guid := by
    rw [guidWritten, deviceIdText]
    rfl
  have hroom : ([] : List Wide).length + (deviceIdText guid ++ [0]).length ≤ 64 := by
    rw [List.length_append, length_deviceIdText]
    decide
  rw [Bus.childDeviceId, guidText_eq_pushAll, hwritten, start_eq_filled, pushAll_filled hroom]
  rfl

/-! ### Reading the GUID back -/

theorem parseGuidDigits_hex (hv : IsNibble v) {digits : List (BitVec 8)} (hroom : digits.length < 32)
    (rest : List Wide) :
    parseGuidDigits (filled 0 digits) (Bus.hex v :: rest) =
      parseGuidDigits (filled 0 (digits ++ [v])) rest := by
  obtain ⟨hvalue, hclose, hhyphen, -⟩ := hexNibble_hex hv
  rw [parseGuidDigits, if_neg hclose, if_neg hhyphen, hvalue]
  simp only [push_filled hroom]

theorem parseGuidDigits_hyphen (digits : Cursor (BitVec 8) 32) (rest : List Wide) :
    parseGuidDigits digits (wide '-' :: rest) = parseGuidDigits digits rest := by
  rw [parseGuidDigits, if_neg (by decide), if_pos rfl]

theorem parseGuidDigits_hyphen_if (p : Prop) [Decidable p] (digits : Cursor (BitVec 8) 32)
    (rest : List Wide) :
    parseGuidDigits digits ((if p then [wide '-'] else []) ++ rest) = parseGuidDigits digits rest := by
  split
  · exact parseGuidDigits_hyphen digits rest
  · rfl

/-- A loop of the encoder, read back: each entry gives its digits. -/
theorem parseGuidDigits_flatMap {β : Type} {emit : β → List Wide} {value : β → List (BitVec 8)}
    {entries : List β}
    (hemit : ∀ b ∈ entries, ∀ (digits : List (BitVec 8)) (rest : List Wide),
      digits.length + (value b).length ≤ 32 →
      parseGuidDigits (filled 0 digits) (emit b ++ rest) =
        parseGuidDigits (filled 0 (digits ++ value b)) rest)
    (digits : List (BitVec 8)) (rest : List Wide)
    (hroom : digits.length + (entries.flatMap value).length ≤ 32) :
    parseGuidDigits (filled 0 digits) (entries.flatMap emit ++ rest) =
      parseGuidDigits (filled 0 (digits ++ entries.flatMap value)) rest := by
  induction entries generalizing digits with
  | nil => simp
  | cons b entries ih =>
    rw [List.flatMap_cons, List.length_append] at hroom
    rw [List.flatMap_cons, List.append_assoc, hemit b List.mem_cons_self _ _ (by omega),
      ih (fun b' hb' => hemit b' (List.mem_cons_of_mem b hb')), List.flatMap_cons, List.append_assoc]
    rw [List.length_append]
    omega

def nibbleDigits (entry : BitVec 8 × Nat) : List (BitVec 8) := [entry.1]

def byteDigits (entry : BitVec 8 × Nat) : List (BitVec 8) := [entry.1 >>> 4, entry.1 &&& 0xf]

theorem parseGuidDigits_nibbleText {entry : BitVec 8 × Nat} (hentry : entry ∈ (Bus.guidNibbles guid).zipIdx)
    (digits : List (BitVec 8)) (rest : List Wide) (hroom : digits.length + (nibbleDigits entry).length ≤ 32) :
    parseGuidDigits (filled 0 digits) (nibbleText entry ++ rest) =
      parseGuidDigits (filled 0 (digits ++ nibbleDigits entry)) rest := by
  rw [nibbleText, List.cons_append,
    parseGuidDigits_hex (isNibble_guidNibbles (List.fst_mem_of_mem_zipIdx hentry)) hroom,
    parseGuidDigits_hyphen_if]
  rfl

theorem parseGuidDigits_byteText (entry : BitVec 8 × Nat) (digits : List (BitVec 8)) (rest : List Wide)
    (hroom : digits.length + (byteDigits entry).length ≤ 32) :
    parseGuidDigits (filled 0 digits) (byteText entry ++ rest) =
      parseGuidDigits (filled 0 (digits ++ byteDigits entry)) rest := by
  have hroom' : digits.length + 2 ≤ 32 := hroom
  rw [byteText, List.cons_append, parseGuidDigits_hex (isNibble_ushiftRight entry.1) (by omega),
    List.cons_append, parseGuidDigits_hex (isNibble_and entry.1), parseGuidDigits_hyphen_if,
    List.append_assoc]
  · rfl
  · rw [List.length_append, List.length_singleton]
    omega

/-- The digits of a GUID, four bits each. -/
def guidDigits (guid : Guid) : List (BitVec 8) :=
  (Bus.guidNibbles guid).zipIdx.flatMap nibbleDigits ++ guid.data4.toList.zipIdx.flatMap byteDigits

theorem length_guidDigits (guid : Guid) : (guidDigits guid).length = 32 := by
  obtain ⟨data1, data2, data3, data4⟩ := guid
  obtain ⟨b₀, b₁, b₂, b₃, b₄, b₅, b₆, b₇, rfl⟩ := exists_data4 data4
  rfl

/-- The decoder gathers the digits that were written. -/
theorem parseGuidDigits_guidDigitsText (guid : Guid) (rest : List Wide) :
    parseGuidDigits (.start 0) (guidDigitsText guid ++ rest) =
      parseGuidDigits (filled 0 (guidDigits guid)) rest := by
  have hlength := length_guidDigits guid
  rw [guidDigits, List.length_append] at hlength
  rw [guidDigitsText, List.append_assoc, start_eq_filled, guidDigits,
    parseGuidDigits_flatMap (fun entry hentry => parseGuidDigits_nibbleText hentry), List.nil_append,
    parseGuidDigits_flatMap (fun entry _ => parseGuidDigits_byteText entry)]
  · exact hlength.le
  · change 0 + ((Bus.guidNibbles guid).zipIdx.flatMap nibbleDigits).length ≤ 32
    omega

theorem guidOfDigits_guidDigits (guid : Guid) : guidOfDigits (filled 0 (guidDigits guid)).text = guid := by
  obtain ⟨data1, data2, data3, data4⟩ := guid
  obtain ⟨b₀, b₁, b₂, b₃, b₄, b₅, b₆, b₇, rfl⟩ := exists_data4 data4
  have hdata1 := join_dword data1
  rw [← join_nibbles (by decide) data1 24, ← join_nibbles (by decide) data1 16,
    ← join_nibbles (by decide) data1 8, ← join_low_nibbles (by decide) data1] at hdata1
  have hdata2 := join_word data2
  rw [← join_nibbles (by decide) data2 8, ← join_low_nibbles (by decide) data2] at hdata2
  have hdata3 := join_word data3
  rw [← join_nibbles (by decide) data3 8, ← join_low_nibbles (by decide) data3] at hdata3
  have hdata4 : #v[b₀, b₁, b₂, b₃, b₄, b₅, b₆, b₇] =
      #v[(b₀ >>> 4) <<< 4 ||| (b₀ &&& 0xf), (b₁ >>> 4) <<< 4 ||| (b₁ &&& 0xf),
        (b₂ >>> 4) <<< 4 ||| (b₂ &&& 0xf), (b₃ >>> 4) <<< 4 ||| (b₃ &&& 0xf),
        (b₄ >>> 4) <<< 4 ||| (b₄ &&& 0xf), (b₅ >>> 4) <<< 4 ||| (b₅ &&& 0xf),
        (b₆ >>> 4) <<< 4 ||| (b₆ &&& 0xf), (b₇ >>> 4) <<< 4 ||| (b₇ &&& 0xf)] := by
    simp only [join_byte]
  simp only [guidOfDigits, filled, Vector.getElem_ofFn, Guid.mk.injEq]
  exact ⟨hdata1, hdata2, hdata3, hdata4.symm⟩

theorem parseChildGuidFromHardwareId_deviceIdText (guid : Guid) :
    parseChildGuidFromHardwareId (deviceIdText guid) = some guid := by
  have hdigits : (deviceIdText guid).drop 11 = guidDigitsText guid ++ [wide '}'] := rfl
  have hcount : (filled 0 (guidDigits guid) : Cursor (BitVec 8) 32).offset = 32 := length_guidDigits guid
  rw [parseChildGuidFromHardwareId, if_pos (by rfl), hdigits, parseGuidDigits_guidDigitsText, parseGuidDigits,
    if_pos rfl, if_neg (not_not.mpr hcount), guidOfDigits_guidDigits]

/-! ### The text of an MTU -/

def digitText (d : Nat) : Wide := wide '0' + BitVec.ofNat 16 d

/-- A digit is no terminator, and the decoder reads it as itself. -/
theorem digitText_spec {d : Nat} (hd : d < 10) :
    digitText d ≠ 0 ∧ (wide '0' ≤ digitText d ∧ digitText d ≤ wide '9') ∧
      (digitText d - wide '0').toNat = d := by
  interval_cases d <;> decide

/-- The digits of a number fill the scratch array from the last one on. -/
theorem decimalDigits_eq {value : BitVec 32} (hpos : 0 < value.toNat)
    (hroom : written.length + (Nat.digits 10 value.toNat).length ≤ 10) :
    Bus.decimalDigits (filled 0 written) value =
      some (filled 0 (written ++ (Nat.digits 10 value.toNat).map digitText)) := by
  induction hn : value.toNat using Nat.strong_induction_on generalizing value written with
  | _ n ih =>
    subst hn
    have hten : (10 : BitVec 32).toNat = 10 := rfl
    have hdigit : wide '0' + (value % 10).setWidth 16 = digitText (value.toNat % 10) := rfl
    rw [Nat.digits_def' (by decide) hpos, List.length_cons] at hroom
    rw [Bus.decimalDigits, hdigit, push_filled (by omega), Nat.digits_def' (by decide) hpos]
    by_cases hlast : value / 10 = 0
    · have hzero : value.toNat / 10 = 0 := by
        rw [← hten, ← BitVec.toNat_udiv, hlast]
        rfl
      simp only [hlast, dite_true, hzero, Nat.digits_zero]
      rfl
    · have hrest : (value / 10).toNat = value.toNat / 10 := by rw [BitVec.toNat_udiv, hten]
      have hmore : 0 < (value / 10).toNat := by
        rw [Nat.pos_iff_ne_zero]
        exact fun hzero => hlast (BitVec.eq_of_toNat_eq hzero)
      simp only [hlast, dite_false]
      rw [ih (value / 10).toNat (by omega) hmore _ rfl, hrest, List.append_assoc]
      · rfl
      · rw [hrest, List.length_append, List.length_singleton]
        omega

theorem pushReversed_eq {digits : List Wide} (hroom : digits.length ≤ 10) (text : Cursor Wide 32)
    {count : Nat} (hcount : count ≤ digits.length) :
    Bus.pushReversed (filled 0 digits).text text count = text.pushAll (digits.take count).reverse := by
  induction count generalizing text with
  | zero => rfl
  | succ count ih =>
    have hdigit : (filled 0 digits : Cursor Wide 10).text[count]? = some digits[count] := by
      rw [Vector.getElem?_eq_getElem (by omega)]
      simp only [filled, Vector.getElem_ofFn, Option.some.injEq]
      exact List.getD_eq_getElem _ _ hcount
    rw [List.take_succ_eq_append_getElem hcount, List.reverse_append, List.reverse_singleton,
      List.singleton_append, pushAll_cons, Bus.pushReversed, hdigit]
    change (text.push digits[count]).bind _ = _
    exact Option.bind_congr fun text' _ => ih text' (by omega)

def mtuIdText (mtu : BitVec 32) : List Wide :=
  Bus.childMtuPrefix ++ ((Nat.digits 10 mtu.toNat).map digitText).reverse

/-- `child_mtu_hardware_id` stays within both of its arrays. -/
theorem childMtuHardwareId_eq (hpos : 0 < mtu.toNat) (hlength : (Nat.digits 10 mtu.toNat).length ≤ 10) :
    Bus.childMtuHardwareId mtu = some (filled 0 (mtuIdText mtu ++ [0])).text := by
  have hleading : (Bus.childMtuPrefix ++ [0]).takeWhile (fun c => c ≠ 0) = Bus.childMtuPrefix := by decide
  have hcount : ((Nat.digits 10 mtu.toNat).map digitText).length ≤ 10 := by rwa [List.length_map]
  have hbegins : Bus.childMtuPrefix.length = 13 := rfl
  rw [Bus.childMtuHardwareId, Bus.pushPrefix, hleading, start_eq_filled, start_eq_filled,
    pushAll_filled (by rw [hbegins]; decide), decimalDigits_eq hpos (by simpa using hlength)]
  simp only [Option.bind_eq_bind, Option.bind_some, List.nil_append]
  have hreversed := pushReversed_eq hcount (filled 0 Bus.childMtuPrefix) (Nat.le_refl _)
  change (Option.bind (Bus.pushReversed _ _ ((Nat.digits 10 mtu.toNat).map digitText).length) _) = _
  rw [hreversed, List.take_length, pushAll_filled, Option.bind_some, push_filled]
  · rfl
  · rw [List.length_append, List.length_reverse, hbegins]
    omega
  · rw [List.length_reverse, hbegins]
    omega

theorem mtuIdText_ne_zero (hc : c ∈ mtuIdText mtu) : c ≠ 0 := by
  have hleading : Bus.childMtuPrefix.all (fun c => c ≠ 0) = true := by decide
  rw [mtuIdText, List.mem_append, List.mem_reverse, List.mem_map] at hc
  obtain hc | ⟨d, hd, rfl⟩ := hc
  · simpa using List.all_eq_true.mp hleading c hc
  · exact (digitText_spec (Nat.digits_lt_base (by decide) hd)).1

/-! ### Reading the MTU back -/

/-- The decoder takes the digits from the first one on, each for the next decimal place. -/
theorem parseMtuDigits_eq {digits : List Nat} (hdigits : ∀ d ∈ digits, d < 10)
    (hbound : Nat.ofDigits 10 digits < 2 ^ 64) (rest : List Wide) :
    parseMtuDigits 0 ((digits.map digitText).reverse ++ rest) =
      parseMtuDigits (Nat.ofDigits 10 digits) rest := by
  induction digits generalizing rest with
  | nil => rfl
  | cons d digits ih =>
    rw [Nat.ofDigits_cons] at hbound ⊢
    obtain ⟨hzero, hrange, hvalue⟩ := digitText_spec (hdigits d List.mem_cons_self)
    rw [List.map_cons, List.reverse_cons, List.append_assoc,
      ih (fun d' hd' => hdigits d' (List.mem_cons_of_mem d hd')) (by omega), List.singleton_append,
      parseMtuDigits, if_neg hzero, if_pos hrange, checked, if_pos (by omega), Option.bind_some, hvalue,
      checked, if_pos (by omega), Nat.add_comm, Nat.mul_comm]

theorem parseChildMtuFromHardwareId_mtuIdText (hmin : defaultMtu ≤ mtu.toNat) (hmax : mtu.toNat ≤ maximumMtu) :
    parseChildMtuFromHardwareId (mtuIdText mtu) = some mtu.toNat := by
  have hdigits : (mtuIdText mtu).drop 13 = ((Nat.digits 10 mtu.toNat).map digitText).reverse ++ [] := by
    rw [List.append_nil]
    rfl
  have hvalue := Nat.ofDigits_digits 10 mtu.toNat
  rw [parseChildMtuFromHardwareId, if_pos (by rfl), hdigits,
    parseMtuDigits_eq (fun d hd => Nat.digits_lt_base (by decide) hd) (by rw [hvalue]; omega), hvalue,
    parseMtuDigits]
  simp only [hmin, hmax, and_self, if_true]

/-! ### The strings of a child -/

theorem scanHardwareIds_cons {id : List Wide} (hid : id ≠ []) (hzero : ∀ c ∈ id, c ≠ 0) (rest : List Wide)
    (guid : Option Guid) (mtu : Option Nat) :
    scanHardwareIds (id ++ 0 :: rest) guid mtu =
      if mtuIdPrefix.isPrefixOf id then
        match parseChildMtuFromHardwareId id with
        | none => .error statusInvalidParameter
        | some value => scanHardwareIds rest ((parseChildGuidFromHardwareId id).or guid) (some value)
      else scanHardwareIds rest ((parseChildGuidFromHardwareId id).or guid) mtu := by
  have hlength : (id ++ 0 :: rest).findIdx? (fun c => c = 0) = some id.length := by
    rw [List.findIdx?_append, List.findIdx?_eq_none_iff.mpr (by simpa using hzero), List.findIdx?_cons]
    simp
  have hrest : (id ++ 0 :: rest).drop (id.length + 1) = rest := by
    rw [← List.drop_drop, List.drop_left]
    rfl
  have hpos : id.length ≠ 0 := fun h => hid (List.length_eq_zero_iff.mp h)
  rw [scanHardwareIds, dif_neg (by simp), hlength]
  change (if id.length = 0 then childProperties guid mtu else _) = _
  rewrite [if_neg hpos, List.take_left, hrest]
  rfl

theorem scanHardwareIds_end (guid : Option Guid) (mtu : Option Nat) :
    scanHardwareIds [0] guid mtu = childProperties guid mtu := by
  rw [scanHardwareIds]
  rfl

def compatibleIdText : List Wide := Bus.unicodeString Bus.childCompatibleId

theorem compatibleIdText_ne_zero (hc : c ∈ compatibleIdText) : c ≠ 0 := by
  have hall : compatibleIdText.all (fun c => c ≠ 0) = true := by decide
  simpa using List.all_eq_true.mp hall c hc

/-- The strings of a child, each terminated, with the final terminator. -/
def hardwareIdsText (guid : Guid) (mtu : BitVec 32) : List Wide :=
  deviceIdText guid ++ 0 :: (mtuIdText mtu ++ 0 :: (compatibleIdText ++ 0 :: [0]))

/-- The loop finds the GUID in the first string, the MTU in the second and nothing in the third. -/
theorem scanHardwareIds_hardwareIdsText (guid : Guid) (hmin : defaultMtu ≤ mtu.toNat) (hmax : mtu.toNat ≤ maximumMtu) :
    scanHardwareIds (hardwareIdsText guid mtu) none none = .ok (guid, mtu.toNat) := by
  have hdevice : mtuIdPrefix.isPrefixOf (deviceIdText guid) = false := by rfl
  have hmtu : mtuIdPrefix.isPrefixOf (mtuIdText mtu) = true := by rfl
  have hnoGuid : parseChildGuidFromHardwareId (mtuIdText mtu) = none := by rfl
  have hcompatible : mtuIdPrefix.isPrefixOf compatibleIdText = false := by decide
  have hneither : parseChildGuidFromHardwareId compatibleIdText = none := by decide
  have hfirst : deviceIdText guid ≠ [] := List.cons_ne_nil _ _
  have hsecond : mtuIdText mtu ≠ [] := List.cons_ne_nil _ _
  have hthird : compatibleIdText ≠ [] := List.cons_ne_nil _ _
  rw [hardwareIdsText, scanHardwareIds_cons hfirst (fun c hc => deviceIdText_ne_zero hc),
    if_neg (by simp [hdevice]), scanHardwareIds_cons hsecond (fun c hc => mtuIdText_ne_zero hc), if_pos hmtu,
    parseChildMtuFromHardwareId_mtuIdText hmin hmax]
  dsimp only
  rw [scanHardwareIds_cons hthird (fun c hc => compatibleIdText_ne_zero hc), if_neg (by simp [hcompatible]),
    scanHardwareIds_end, hneither, hnoGuid, parseChildGuidFromHardwareId_deviceIdText]
  rfl

theorem effectiveMtu_bounds {requestedMtu mtu : BitVec 32} (h : Bus.effectiveMtu requestedMtu = .ok mtu) :
    defaultMtu ≤ mtu.toNat ∧ mtu.toNat ≤ maximumMtu := by
  unfold Bus.effectiveMtu at h
  split at h
  · cases h
    decide
  · split at h
    · cases h
      rename_i hrange
      exact hrange
    · cases h

/-- The bus and the child agree on every child that can be created: no encoder leaves its array, the
strings fit the buffer of the child, and the child reads back the GUID and the MTU, with which its frames
fit the frame storage. -/
theorem child_reads_identity (guid : Guid) (requestedMtu mtu : BitVec 32)
    (hmtu : Bus.effectiveMtu requestedMtu = .ok mtu) :
    ∃ ids, Bus.childHardwareIds guid mtu = some ids ∧ ids.length ≤ 128 ∧
      childPropertiesFromHardwareId (queryHardwareIds ids) = .ok (guid, mtu.toNat) ∧
      mtu.toNat + frameMinimum ≤ frameMaximum := by
  obtain ⟨hmin, hmax⟩ := effectiveMtu_bounds hmtu
  have hpos : 0 < mtu.toNat := Nat.lt_of_lt_of_le (by decide) hmin
  have hdigits : (Nat.digits 10 mtu.toNat).length ≤ 5 :=
    (Nat.digits_length_le_iff (by decide) _).mpr (Nat.lt_of_le_of_lt hmax (by decide))
  have hmtuLength : (mtuIdText mtu).length ≤ 18 := by
    rw [mtuIdText, List.length_append, List.length_reverse, List.length_map]
    exact Nat.add_le_add_left hdigits 13
  have hcompatible : compatibleIdText.length = 21 := by decide
  have hids : Bus.childHardwareIds guid mtu = some (hardwareIdsText guid mtu) := by
    rw [Bus.childHardwareIds, childDeviceId_eq, childMtuHardwareId_eq hpos (by omega)]
    simp only [Option.bind_eq_bind, Option.bind_some]
    rw [unicodeString_filled (by rw [length_deviceIdText]; decide) fun c hc => deviceIdText_ne_zero hc,
      unicodeString_filled (by omega) fun c hc => mtuIdText_ne_zero hc, hardwareIdsText, compatibleIdText]
    simp
  have hlength : (hardwareIdsText guid mtu).length ≤ 128 := by
    simp only [hardwareIdsText, List.length_append, List.length_cons, length_deviceIdText, hcompatible,
      List.length_nil]
    omega
  refine ⟨_, hids, hlength, ?_, ?_⟩
  · have hchars : (filled 0 (hardwareIdsText guid mtu) : Cursor Wide 128).text.toList.take
        (min (2 * (hardwareIdsText guid mtu).length / 2) 128) = hardwareIdsText guid mtu := by
      rw [Nat.mul_div_cancel_left _ (by decide), Nat.min_eq_left hlength, text_filled hlength, List.take_left]
    rw [queryHardwareIds, if_pos hlength, childPropertiesFromHardwareId, if_neg (by simp), if_neg (by simp)]
    dsimp only
    rw [hchars, scanHardwareIds_hardwareIdsText guid hmin hmax]
  · have hstorage : maximumMtu + frameMinimum ≤ frameMaximum := by decide
    omega

/-- A child that asks for no MTU. -/
theorem child_reads_identity_default :
    ∃ ids, Bus.childHardwareIds ⟨1, 2, 3, .replicate 8 4⟩ 1500 = some ids ∧
      childPropertiesFromHardwareId (queryHardwareIds ids) = .ok (⟨1, 2, 3, .replicate 8 4⟩, 1500) := by
  obtain ⟨ids, hids, -, hread, -⟩ := child_reads_identity ⟨1, 2, 3, .replicate 8 4⟩ 0 1500 rfl
  exact ⟨ids, hids, hread⟩

end WinTap

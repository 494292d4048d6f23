import WinTap.Base.Cursor
import WinTap.Driver.System

/-!
# The identity of a child

The bus driver writes the GUID and the MTU of a child into its hardware IDs, and the driver of the child
reads them back from there. The two sides share no code. A text is an array of 16-bit characters that is
written from the front; a write past its end has no result here, where the source would panic.
-/

namespace WinTap

structure Guid where
  data1 : BitVec 32
  data2 : BitVec 16
  data3 : BitVec 16
  data4 : Vector (BitVec 8) 8
  deriving DecidableEq, Repr

/-- A UTF-16 code unit. -/
abbrev Wide := BitVec 16

def wide (c : Char) : Wide := BitVec.ofNat 16 c.toNat

/-! ### The bus driver -/

namespace Bus

def defaultMtu : BitVec 32 := 1500
def minimumMtu : BitVec 32 := 1500
def maximumMtu : BitVec 32 := 65521

def validGuid (guid : Guid) : Bool :=
  guid.data1 ≠ 0 || guid.data2 ≠ 0 || guid.data3 ≠ 0 || guid.data4.any fun byte => byte ≠ 0

/-- `effective_mtu`. -/
def effectiveMtu (requestedMtu : BitVec 32) : Except NtStatus (BitVec 32) :=
  if requestedMtu = 0 then .ok defaultMtu
  else if minimumMtu ≤ requestedMtu ∧ requestedMtu ≤ maximumMtu then .ok requestedMtu
  else .error statusInvalidParameter

def hex (value : BitVec 8) : Wide :=
  if value ≤ 9 then wide '0' + value.setWidth 16 else wide 'A' + (value - 10).setWidth 16

/-- The four-bit groups of the first three fields. -/
def guidNibbles (guid : Guid) : List (BitVec 8) :=
  [((guid.data1 >>> 28) &&& 0xf).setWidth 8, ((guid.data1 >>> 24) &&& 0xf).setWidth 8,
    ((guid.data1 >>> 20) &&& 0xf).setWidth 8, ((guid.data1 >>> 16) &&& 0xf).setWidth 8,
    ((guid.data1 >>> 12) &&& 0xf).setWidth 8, ((guid.data1 >>> 8) &&& 0xf).setWidth 8,
    ((guid.data1 >>> 4) &&& 0xf).setWidth 8, (guid.data1 &&& 0xf).setWidth 8,
    ((guid.data2 >>> 12) &&& 0xf).setWidth 8, ((guid.data2 >>> 8) &&& 0xf).setWidth 8,
    ((guid.data2 >>> 4) &&& 0xf).setWidth 8, (guid.data2 &&& 0xf).setWidth 8,
    ((guid.data3 >>> 12) &&& 0xf).setWidth 8, ((guid.data3 >>> 8) &&& 0xf).setWidth 8,
    ((guid.data3 >>> 4) &&& 0xf).setWidth 8, (guid.data3 &&& 0xf).setWidth 8]

/-- Write a prefix up to its terminator. -/
def pushPrefix {n : Nat} (text : Cursor Wide n) (leading : List Wide) : Option (Cursor Wide n) :=
  text.pushAll (leading.takeWhile fun c => c ≠ 0)

/-- A digit of the first three fields, with the hyphen that ends a field. -/
def pushNibble (text : Cursor Wide 64) (entry : BitVec 8 × Nat) : Option (Cursor Wide 64) := do
  let (value, index) := entry
  let text ← text.push (hex value)
  if index = 7 ∨ index = 11 ∨ index = 15 then text.push (wide '-') else some text

/-- A byte of the last field, with the hyphen after the second one. -/
def pushByte (text : Cursor Wide 64) (entry : BitVec 8 × Nat) : Option (Cursor Wide 64) := do
  let (byte, index) := entry
  let text ← text.push (hex (byte >>> 4))
  let text ← text.push (hex (byte &&& 0xf))
  if index = 1 then text.push (wide '-') else some text

/-- `guid_text`. -/
def guidText (guid : Guid) (leading : List Wide) : Option (Vector Wide 64) := do
  let text ← pushPrefix (.start 0) leading
  let text ← text.push (wide '{')
  let text ← (guidNibbles guid).zipIdx.foldlM pushNibble text
  let text ← guid.data4.toList.zipIdx.foldlM pushByte text
  let text ← text.push (wide '}')
  let text ← text.push 0
  return text.text

/-- `WINTAPBUS\`. -/
def childDevicePrefix : List Wide := ['W', 'I', 'N', 'T', 'A', 'P', 'B', 'U', 'S', '\\'].map wide

/-- `WINTAPBUSMTU\`. -/
def childMtuPrefix : List Wide :=
  ['W', 'I', 'N', 'T', 'A', 'P', 'B', 'U', 'S', 'M', 'T', 'U', '\\'].map wide

/-- `child_device_id`. -/
def childDeviceId (guid : Guid) : Option (Vector Wide 64) := guidText guid (childDevicePrefix ++ [0])

/-- The decimal digits of a value, the last one first. -/
def decimalDigits (digits : Cursor Wide 10) (value : BitVec 32) : Option (Cursor Wide 10) :=
  match digits.push (wide '0' + (value % 10).setWidth 16) with
  | none => none
  | some digits => if h : value / 10 = 0 then some digits else decimalDigits digits (value / 10)
termination_by value.toNat
decreasing_by
  have hvalue : value.toNat / 10 ≠ 0 := fun hzero => h (BitVec.eq_of_toNat_eq (by simpa using hzero))
  rw [BitVec.toNat_udiv]
  change value.toNat / 10 < value.toNat
  omega

/-- Copy the first `count` digits in reverse. -/
def pushReversed (digits : Vector Wide 10) (text : Cursor Wide 32) : Nat → Option (Cursor Wide 32)
  | 0 => some text
  | count + 1 => do
    let digit ← digits[count]?
    let text ← text.push digit
    pushReversed digits text count

/-- `child_mtu_hardware_id`. -/
def childMtuHardwareId (mtu : BitVec 32) : Option (Vector Wide 32) := do
  let text ← pushPrefix (.start 0) (childMtuPrefix ++ [0])
  let digits ← decimalDigits (.start 0) mtu
  let text ← pushReversed digits.text text digits.offset
  let text ← text.push 0
  return text.text

/-- `CHILD_COMPATIBLE_ID`, which is `WINTAPBUS\WinTapChild`. -/
def childCompatibleId : List Wide :=
  ['W', 'I', 'N', 'T', 'A', 'P', 'B', 'U', 'S', '\\', 'W', 'i', 'n', 'T', 'a', 'p', 'C', 'h', 'i', 'l',
    'd'].map wide ++ [0]

/-- The characters of `unicode_string`: those before the terminator. -/
def unicodeString (buffer : List Wide) : List Wide := buffer.takeWhile fun c => c ≠ 0

/-- The hardware IDs that `evt_child_list_create_device` assigns, as the framework keeps them: each one
terminated, and one more terminator at the end. -/
def childHardwareIds (guid : Guid) (mtu : BitVec 32) : Option (List Wide) := do
  let deviceId ← childDeviceId guid
  let mtuId ← childMtuHardwareId mtu
  return unicodeString deviceId.toList ++ [0] ++ (unicodeString mtuId.toList ++ [0]) ++
    (unicodeString childCompatibleId ++ [0]) ++ [0]

end Bus

/-! ### The driver of the child -/

/-- `hex_nibble`. -/
def hexNibble (character : Wide) : Option (BitVec 8) :=
  if wide '0' ≤ character ∧ character ≤ wide '9' then some ((character - wide '0').setWidth 8)
  else if wide 'a' ≤ character ∧ character ≤ wide 'f' then
    some ((character - wide 'a' + 10).setWidth 8)
  else if wide 'A' ≤ character ∧ character ≤ wide 'F' then
    some ((character - wide 'A' + 10).setWidth 8)
  else none

/-- The GUID that 32 hexadecimal digits stand for. -/
def guidOfDigits (digits : Vector (BitVec 8) 32) : Guid :=
  let byte (index : Fin 16) : BitVec 8 := digits[2 * index.val] <<< 4 ||| digits[2 * index.val + 1]
  { data1 := (byte 0).setWidth 32 <<< 24 ||| (byte 1).setWidth 32 <<< 16 |||
      (byte 2).setWidth 32 <<< 8 ||| (byte 3).setWidth 32
    data2 := (byte 4).setWidth 16 <<< 8 ||| (byte 5).setWidth 16
    data3 := (byte 6).setWidth 16 <<< 8 ||| (byte 7).setWidth 16
    data4 := #v[byte 8, byte 9, byte 10, byte 11, byte 12, byte 13, byte 14, byte 15] }

/-- Read digits up to the closing brace, past any hyphens. -/
def parseGuidDigits (digits : Cursor (BitVec 8) 32) : List Wide → Option Guid
  | [] => none
  | character :: rest =>
    if character = wide '}' then
      if digits.offset ≠ 32 then none else some (guidOfDigits digits.text)
    else if character = wide '-' then parseGuidDigits digits rest
    else
      match hexNibble character with
      | none => none
      | some value =>
        match digits.push value with
        | none => none
        | some digits => parseGuidDigits digits rest

/-- `WINTAPBUS\` and an opening brace. -/
def guidIdPrefix : List Wide := ['W', 'I', 'N', 'T', 'A', 'P', 'B', 'U', 'S', '\\', '{'].map wide

/-- `WINTAPBUSMTU\`. -/
def mtuIdPrefix : List Wide :=
  ['W', 'I', 'N', 'T', 'A', 'P', 'B', 'U', 'S', 'M', 'T', 'U', '\\'].map wide

/-- `parse_child_guid_from_hardware_id`. -/
def parseChildGuidFromHardwareId (hardwareId : List Wide) : Option Guid :=
  if guidIdPrefix.isPrefixOf hardwareId then parseGuidDigits (.start 0) (hardwareId.drop 11) else none

/-- A `usize` that did not overflow. -/
def checked (value : Nat) : Option Nat := if value < 2 ^ 64 then some value else none

/-- Read decimal digits up to a terminator or the end. -/
def parseMtuDigits (value : Nat) : List Wide → Option Nat
  | [] => some value
  | character :: rest =>
    if character = 0 then some value
    else if wide '0' ≤ character ∧ character ≤ wide '9' then
      match (checked (value * 10)).bind fun tens => checked (tens + (character - wide '0').toNat) with
      | none => none
      | some value => parseMtuDigits value rest
    else none

/-- `parse_child_mtu_from_hardware_id`. The bounds are the `DEFAULT_MTU` and the `MAXIMUM_MTU` of the
driver of the child. -/
def parseChildMtuFromHardwareId (hardwareId : List Wide) : Option Nat :=
  if mtuIdPrefix.isPrefixOf hardwareId then
    match parseMtuDigits 0 (hardwareId.drop 13) with
    | none => none
    | some value => if defaultMtu ≤ value ∧ value ≤ maximumMtu then some value else none
  else none

/-- What the loop over the hardware IDs has found. -/
def childProperties (guid : Option Guid) (mtu : Option Nat) : Except NtStatus (Guid × Nat) :=
  match guid, mtu with
  | some guid, some mtu => .ok (guid, mtu)
  | some guid, none => .ok (guid, defaultMtu)
  | none, _ => .error statusInvalidParameter

/-- The loop over the hardware IDs, on the characters that remain. -/
def scanHardwareIds (remaining : List Wide) (guid : Option Guid) (mtu : Option Nat) :
    Except NtStatus (Guid × Nat) :=
  if _hrest : remaining = [] then childProperties guid mtu
  else
    match remaining.findIdx? fun character => character = 0 with
    | none => .error statusInvalidParameter
    | some length =>
      if length = 0 then childProperties guid mtu
      else
        let hardwareId := remaining.take length
        let guid := (parseChildGuidFromHardwareId hardwareId).or guid
        if mtuIdPrefix.isPrefixOf hardwareId then
          match parseChildMtuFromHardwareId hardwareId with
          | none => .error statusInvalidParameter
          | some value => scanHardwareIds (remaining.drop (length + 1)) guid (some value)
        else scanHardwareIds (remaining.drop (length + 1)) guid mtu
termination_by remaining.length
decreasing_by
  all_goals
    have hpos := List.length_pos_iff.mpr _hrest
    rw [List.length_drop]
    omega

/-- What `WdfDeviceQueryProperty` returns: its status, the buffer, and the number of bytes. -/
structure PropertyQuery where
  status : NtStatus
  buffer : Vector Wide 128
  resultLength : Nat

/-- `child_properties_from_hardware_id`, on what the query returned. -/
def childPropertiesFromHardwareId (query : PropertyQuery) : Except NtStatus (Guid × Nat) :=
  if query.status ≠ statusSuccess then .error query.status
  else if query.resultLength % 2 ≠ 0 then .error statusInvalidParameter
  else
    let characterCount := min (query.resultLength / 2) 128
    scanHardwareIds (query.buffer.toList.take characterCount) none none

/-- A query for hardware IDs that the framework holds. -/
def queryHardwareIds (ids : List Wide) : PropertyQuery :=
  if ids.length ≤ 128 then ⟨statusSuccess, (Cursor.filled 0 ids).text, 2 * ids.length⟩
  else ⟨statusBufferTooSmall, .replicate 128 0, 2 * ids.length⟩

end WinTap

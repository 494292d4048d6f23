import WinTap.Bus.HardwareId

/-!
# The GUID of an endpoint

The switch is given its endpoints as texts. A text is the list of its bytes, and an error is the message about it.
-/

namespace WinTap.SwitchRuntime

abbrev Byte := BitVec 8

def byte (c : Char) : Byte := BitVec.ofNat 8 c.toNat

def text (s : String) : List Byte := s.toList.map byte

def isAsciiDigit (b : Byte) : Bool := byte '0' ≤ b && b ≤ byte '9'

/-- `is_ascii_hexdigit`. -/
def isAsciiHexdigit (b : Byte) : Bool :=
  isAsciiDigit b || (byte 'a' ≤ b && b ≤ byte 'f') || (byte 'A' ≤ b && b ≤ byte 'F')

def toAsciiLowercase (b : Byte) : Byte := if byte 'A' ≤ b ∧ b ≤ byte 'Z' then b + 32 else b

def toAsciiUppercase (b : Byte) : Byte := if byte 'a' ≤ b ∧ b ≤ byte 'z' then b - 32 else b

/-- `to_digit(16)`. -/
def toDigit (b : Byte) : Option Nat :=
  if isAsciiDigit b then some (b - byte '0').toNat
  else if byte 'a' ≤ b ∧ b ≤ byte 'f' then some ((b - byte 'a').toNat + 10)
  else if byte 'A' ≤ b ∧ b ≤ byte 'F' then some ((b - byte 'A').toNat + 10)
  else none

/-- The loop of `u64::from_str_radix`. -/
def readDigits (value : Nat) : List Byte → Option Nat
  | [] => some value
  | b :: rest => do
    let shifted ← checked (value * 16)
    let digit ← toDigit b
    let value ← checked (shifted + digit)
    readDigits value rest

/-- `u64::from_str_radix` with radix 16, which takes a leading sign. -/
def fromStrRadix (src : List Byte) : Option Nat :=
  match src with
  | [] => none
  | first :: rest =>
    if (first = byte '+' ∨ first = byte '-') ∧ rest = [] then none
    else if first = byte '+' then readDigits 0 rest
    else readDigits 0 (first :: rest)

/-- The bytes of a part as an integer of the given width. -/
def parsePart (width : Nat) (part : List Byte) : Option (BitVec width) :=
  (fromStrRadix part).bind fun value => if value < 2 ^ width then some (.ofNat width value) else none

def invalidGuid (value : List Byte) : List Byte := text "invalid GUID '" ++ value ++ text "'"

/-- `parse_guid`. -/
def parseGuid (value : List Byte) : Except (List Byte) Guid :=
  match value.splitOn (byte '-') with
  | [part0, part1, part2, part3, part4] =>
    if part0.length ≠ 8 ∨ part1.length ≠ 4 ∨ part2.length ≠ 4 ∨ part3.length ≠ 4 ∨ part4.length ≠ 12 then
      .error (invalidGuid value)
    else
      match parsePart 32 part0, parsePart 16 part1, parsePart 16 part2, parsePart 16 part3, parsePart 64 part4 with
      | some data1, some data2, some data3, some data4A, some data4B =>
        .ok
          { data1 := data1
            data2 := data2
            data3 := data3
            data4 := #v[(data4A >>> 8).setWidth 8, data4A.setWidth 8, (data4B >>> 40).setWidth 8,
              (data4B >>> 32).setWidth 8, (data4B >>> 24).setWidth 8, (data4B >>> 16).setWidth 8,
              (data4B >>> 8).setWidth 8, data4B.setWidth 8] }
      | _, _, _, _, _ => .error (invalidGuid value)
  | _ => .error (invalidGuid value)

/-- A byte of a GUID at its index. -/
def isGuidByte (entry : Byte × Nat) : Bool :=
  if entry.2 = 8 ∨ entry.2 = 13 ∨ entry.2 = 18 ∨ entry.2 = 23 then entry.1 = byte '-' else isAsciiHexdigit entry.1

/-- `is_guid`. -/
def isGuid (value : List Byte) : Bool := value.length = 36 && value.zipIdx.all isGuidByte

structure EndpointConfig where
  guid : List Byte
  interfacePath : List Byte
  deriving DecidableEq, Repr

end WinTap.SwitchRuntime

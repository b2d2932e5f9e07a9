import UnknownFields.Fault

/-!
Bytes as pairs of hexadecimal digits. Writing uses lower case; reading takes either case and skips
white space anywhere, between the digits of a pair as well.
-/

namespace UnknownFields.Hex

/-- The digits of some bytes, the high half of each byte first. -/
def encodeChars (bytes : Bytes) : List Char :=
  bytes.flatMap fun byte => [Nat.digitChar (byte.toNat / 16), Nat.digitChar (byte.toNat % 16)]

def encode (bytes : Bytes) : String := String.ofList (encodeChars bytes)

/-- The value of a digit, if the byte is one. -/
def digitValue? (byte : UInt8) : Option UInt8 :=
  if 0x30 ≤ byte ∧ byte ≤ 0x39 then some (byte - 0x30)
  else if 0x61 ≤ byte ∧ byte ≤ 0x66 then some (byte - 0x61 + 10)
  else if 0x41 ≤ byte ∧ byte ≤ 0x46 then some (byte - 0x41 + 10)
  else none

/-- Space, tab, line feed, form feed and carriage return. -/
def isBlank (byte : UInt8) : Bool := [0x20, 0x09, 0x0a, 0x0c, 0x0d].contains byte

inductive Error where
  | oddLength
  /-- A byte that is no digit, and its position among the bytes that are not blank. -/
  | invalidDigit (byte : UInt8) (position : Nat)
  deriving DecidableEq, Repr

/-- The bytes that pairs of digits spell, the first of them at `position`. -/
def decodePairs (position : Nat) : Bytes → Except Error Bytes
  | [] => .ok []
  | [_] => .error .oddLength
  | high :: low :: rest =>
    match digitValue? high, digitValue? low with
    | none, _ => .error (.invalidDigit high position)
    | some _, none => .error (.invalidDigit low (position + 1))
    | some high, some low => do
      return (16 * high + low) :: (← decodePairs (position + 2) rest)

/-- The bytes that a text spells. An odd number of digits is reported before a bad one. -/
def decode (text : Bytes) : Except Error Bytes :=
  let digits := text.filter fun byte => !isBlank byte
  if digits.length % 2 = 1 then .error .oddLength else decodePairs 0 digits

end UnknownFields.Hex

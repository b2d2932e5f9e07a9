/-!
Whole numbers as decimal text: a sign and at least one digit, leading zeros allowed. A number has to
stay below a bound. The text is read from the left, and the first problem met is the one reported.
-/

namespace UnknownFields.Decimal

inductive Error where
  | empty
  | invalidDigit
  | tooLarge
  deriving DecidableEq, Repr

def Error.message : Error → String
  | empty => "cannot parse integer from empty string"
  | invalidDigit => "invalid digit found in string"
  | tooLarge => "number too large to fit in target type"

/-- Only the ten digits of ASCII are digits. -/
def digitValue? (char : Char) : Option Nat :=
  if '0' ≤ char ∧ char ≤ '9' then some (char.toNat - '0'.toNat) else none

/-- Reads digits behind digits of value `value`. -/
def readDigits (bound value : Nat) : List Char → Except Error Nat
  | [] => .ok value
  | char :: rest =>
    match digitValue? char with
    | none => .error .invalidDigit
    | some digit =>
      if 10 * value + digit < bound then readDigits bound (10 * value + digit) rest
      else .error .tooLarge

/-- Reads digits, of which there is at least one. -/
def readMagnitude (bound : Nat) : List Char → Except Error Nat
  | [] => .error .invalidDigit
  | digits => readDigits bound 0 digits

/-- Reads a number below `bound` that may have a plus sign. -/
def read (bound : Nat) : List Char → Except Error Nat
  | [] => .error .empty
  | '+' :: digits => readMagnitude bound digits
  | digits => readMagnitude bound digits

/-- Reads a number below `bound` that may have either sign; a minus sign is for zero only. -/
def readSigned (bound : Nat) : List Char → Except Error Nat
  | '-' :: digits => readMagnitude 1 digits
  | text => read bound text

end UnknownFields.Decimal

import Mathlib.Tactic
import UnknownFields.CommandLine.Input

/-!
The lines by which a run complains. A line names what could not be done, then the variable with its
value or the path, and behind a colon the cause. What comes from outside and is no path stands in
quotation marks, where everything that would not be seen is escaped.
-/

namespace UnknownFields

/-! ### Quotations -/

namespace Text

/-- How a character is shown between two marks. -/
inductive Shown (mark : Char) : Char → List Char → Prop where
  | null : Shown mark '\x00' ['\\', '0']
  | tab : Shown mark '\t' ['\\', 't']
  | carriageReturn : Shown mark '\r' ['\\', 'r']
  | lineFeed : Shown mark '\n' ['\\', 'n']
  | escaped {char : Char} (ends : char = '\\' ∨ char = mark) : Shown mark char ['\\', char]
  | code {char : Char} (invisible : isInvisible char = true)
      (no_name : char ∉ ['\x00', '\t', '\r', '\n']) :
      Shown mark char ("\\u\x7b".toList ++ Nat.toDigits 16 char.toNat ++ "\x7d".toList)
  | plain {char : Char} (visible : isInvisible char = false)
      (goes_on : ¬(char = '\\' ∨ char = mark)) : Shown mark char [char]

inductive ShownEach (mark : Char) : List Char → List Char → Prop where
  | nil : ShownEach mark [] []
  | cons {char : Char} {text piece shown : List Char} (head : Shown mark char piece)
      (rest : ShownEach mark text shown) : ShownEach mark (char :: text) (piece ++ shown)

/-- The text between two marks. -/
inductive Quotes (mark : Char) (text : List Char) : String → Prop where
  | intro {shown : List Char} (each : ShownEach mark text shown) :
      Quotes mark text (String.ofList (mark :: shown ++ [mark]))

theorem shown_escapeIn (mark char : Char) : Shown mark char (escapeIn mark char) := by
  rw [escapeIn]
  split_ifs with hnull htab hreturn hline hends hinvisible
  · rw [hnull]; exact .null
  · rw [htab]; exact .tab
  · rw [hreturn]; exact .carriageReturn
  · rw [hline]; exact .lineFeed
  · exact .escaped hends
  · exact .code hinvisible (by simp [hnull, htab, hreturn, hline])
  · exact .plain (by simpa using hinvisible) hends

theorem shownEach_flatMap (mark : Char) (text : List Char) :
    ShownEach mark text (text.flatMap (escapeIn mark)) := by
  induction text with
  | nil => exact .nil
  | cons char text ih =>
      rw [List.flatMap_cons]
      exact .cons (shown_escapeIn mark char) ih

theorem quotes_quotedIn (mark : Char) (text : List Char) :
    Quotes mark text (quotedIn mark text) := by
  rw [quotedIn]
  exact .intro (shownEach_flatMap mark text)

end Text

/-! ### Causes -/

inductive Decimal.Error.Told : Decimal.Error → String → Prop where
  | empty : Told .empty "cannot parse integer from empty string"
  | invalidDigit : Told .invalidDigit "invalid digit found in string"
  | tooLarge : Told .tooLarge "number too large to fit in target type"

theorem Decimal.Error.told_message (error : Decimal.Error) : error.Told error.message := by
  cases error with
  | empty => exact .empty
  | invalidDigit => exact .invalidDigit
  | tooLarge => exact .tooLarge

inductive Malformation.Told : Malformation → String → Prop where
  | truncatedVarint : Told .truncatedVarint "truncated varint"
  | varintTooLong : Told .varintTooLong "varint longer than 10 bytes"
  | tagOutOfRange : Told .tagOutOfRange "tag does not fit in 32 bits"
  | fieldNumberZero : Told .fieldNumberZero "field number 0"
  | invalidWireType {code : Nat} : Told (.invalidWireType code) s!"invalid wire type {code}"
  | truncatedPayload : Told .truncatedPayload "payload runs past end of input"
  | unexpectedEndGroup : Told .unexpectedEndGroup "end-group with no open group"
  | mismatchedEndGroup {opened closed : Nat} :
      Told (.mismatchedEndGroup opened closed) s!"end-group for field {closed} closes group {opened}"
  | unterminatedGroup {field : Nat} :
      Told (.unterminatedGroup field) s!"group {field} is never closed"

theorem Malformation.told_message (malformation : Malformation) :
    malformation.Told malformation.message := by
  cases malformation with
  | truncatedVarint => exact .truncatedVarint
  | varintTooLong => exact .varintTooLong
  | tagOutOfRange => exact .tagOutOfRange
  | fieldNumberZero => exact .fieldNumberZero
  | invalidWireType code => exact .invalidWireType
  | truncatedPayload => exact .truncatedPayload
  | unexpectedEndGroup => exact .unexpectedEndGroup
  | mismatchedEndGroup opened closed => exact .mismatchedEndGroup
  | unterminatedGroup field => exact .unterminatedGroup

inductive LimitError.Told : LimitError → String → Prop where
  | outOfMemory : Told .outOfMemory "out of memory while building unknown fields"
  | maxDepthExceeded : Told .maxDepthExceeded "unknown field groups nest deeper than max_depth"

theorem LimitError.told_message (error : LimitError) : error.Told error.message := by
  cases error with
  | outOfMemory => exact .outOfMemory
  | maxDepthExceeded => exact .maxDepthExceeded

inductive Hex.Error.Told : Hex.Error → String → Prop where
  | oddLength : Told .oddLength "Odd number of digits"
  | invalidDigit {byte : UInt8} {position : Nat} {char : Char} {quotation : String}
      (toNat_eq : char.toNat = byte.toNat) (quotes : Text.Quotes '\'' [char] quotation) :
      Told (.invalidDigit byte position)
        ("Invalid character " ++ quotation ++ s!" at position {position}")

theorem Hex.Error.told_hexMessage (error : Hex.Error) : error.Told (CommandLine.hexMessage error) := by
  cases error with
  | oddLength => exact .oddLength
  | invalidDigit byte position =>
      have hbyte := byte.toNat_lt
      have hvalid : byte.toNat.isValidChar := Or.inl (by omega)
      have hchar : (Char.ofNat byte.toNat).toNat = byte.toNat := by
        rw [Char.ofNat, dif_pos hvalid]
        rfl
      exact .invalidDigit hchar (Text.quotes_quotedIn _ _)

namespace CommandLine

inductive FileError.Told : FileError → String → Prop where
  | notFound : Told .notFound "No such file or directory (os error 2)"
  | accessDenied : Told .accessDenied "Permission denied (os error 13)"
  | notDirectory : Told .notDirectory "Not a directory (os error 20)"
  | isDirectory : Told .isDirectory "Is a directory (os error 21)"
  | nameTooLong : Told .nameTooLong "File name too long (os error 36)"
  | other {details : String} : Told (.other details) details

theorem FileError.told_message (error : FileError) : error.Told error.message := by
  cases error with
  | notFound => exact .notFound
  | accessDenied => exact .accessDenied
  | notDirectory => exact .notDirectory
  | isDirectory => exact .isDirectory
  | nameTooLong => exact .nameTooLong
  | other details => exact .other

/-! ### Lines -/

/-- The line says what could not be done, to what, and why. -/
inductive RunError.Complains : RunError → String → Prop where
  | badDepth {raw quotation reason : String} {cause : Decimal.Error}
      (quotes : Text.Quotes '"' raw.toList quotation) (told : cause.Told reason) :
      Complains (.badDepth raw cause)
        ("invalid environment variable WIRECMP_MAX_DEPTH=" ++ quotation ++
          " (expected a non-negative integer): " ++ reason)
  | unreadable {path reason : String} {cause : FileError} (told : cause.Told reason) :
      Complains (.unreadable path cause) ("read input: " ++ path ++ ": " ++ reason)
  | notHex {path reason : String} {cause : Hex.Error} (told : cause.Told reason) :
      Complains (.notHex path cause) ("decode hex input: " ++ path ++ ": " ++ reason)
  | malformed {path reason : String} {offset : Nat} {cause : Malformation}
      (told : cause.Told reason) : Complains (.malformed path ⟨offset, cause⟩)
        ("invalid input: " ++ path ++ ": " ++
          s!"malformed unknown fields at byte {offset}: {reason}")

/-- **Every failure is complained of in its words.** -/
theorem RunError.complains_message (error : RunError) : error.Complains error.message := by
  cases error with
  | badDepth raw cause =>
      exact .badDepth (Text.quotes_quotedIn '"' raw.toList) cause.told_message
  | unreadable path cause => exact .unreadable cause.told_message
  | notHex path cause => exact .notHex cause.told_hexMessage
  | malformed path cause => exact .malformed cause.reason.told_message

end CommandLine

end UnknownFields

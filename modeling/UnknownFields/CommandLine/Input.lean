import UnknownFields.CommandLine.Arguments
import UnknownFields.CommandLine.Files
import UnknownFields.Limits
import UnknownFields.Report
import UnknownFields.Sha256
import UnknownFields.Text.Blank
import UnknownFields.Text.Quoted
import UnknownFields.Wire.WellFormed

/-!
What a run needs before it can begin: its limits, and the bytes of its inputs. The depth is that of
the options, else that of an environment variable, else the usual one. An input is read, decoded if
it is hexadecimal text, and checked.
-/

namespace UnknownFields.CommandLine

/-- The environment variable with the depth for runs that are not told one. -/
def depthVariable : String := "WIRECMP_MAX_DEPTH"

/-- Why a run ends before there is something to report. -/
inductive RunError where
  | badDepth (raw : String) (cause : Decimal.Error)
  | unreadable (path : String) (cause : FileError)
  | notHex (path : String) (cause : Hex.Error)
  | malformed (path : String) (cause : Malformed)
  deriving DecidableEq, Repr

/-- The offending byte is shown as the character with its number. -/
def hexMessage : Hex.Error → String
  | .oddLength => "Odd number of digits"
  | .invalidDigit byte position =>
    "Invalid character " ++ Text.quotedIn '\'' [Char.ofNat byte.toNat] ++
      s!" at position {position}"

/-- The complaint about an error, with its cause behind a colon. -/
def RunError.message : RunError → String
  | badDepth raw cause =>
    "invalid environment variable " ++ depthVariable ++ "=" ++
      Text.quotedIn '"' raw.toList ++ " (expected a non-negative integer): " ++ cause.message
  | unreadable path cause => "read input: " ++ path ++ ": " ++ cause.message
  | notHex path cause => "decode hex input: " ++ path ++ ": " ++ hexMessage cause
  | malformed path cause => "invalid input: " ++ path ++ ": " ++ cause.message

/-- The depth of a run that is told none: that of the variable. A variable that is not set, or is
not text, counts for nothing. -/
def depthOfVariable (environment : Option Bytes) : Except RunError Nat :=
  match environment.bind fun bytes => String.fromUTF8? ⟨bytes.toArray⟩ with
  | none => .ok defaultMaxDepth
  | some raw =>
    match Decimal.read UInt32.size (Text.trim raw.toList) with
    | .ok depth => .ok depth
    | .error cause => .error (.badDepth raw cause)

/-- The limits of a run. -/
def limitsFor (options : Options) (environment : Option Bytes) : Except RunError Limits := do
  let maxDepth ← match options.maxDepth with
    | some depth => pure depth
    | none => depthOfVariable environment
  return { maxDepth, arenaBytes := options.arenaBytes }

/-- The bytes of an input, which have to be well formed. -/
def loadInput (files : Files) (hex : Bool) (path : String) : Except RunError Bytes := do
  let raw ← (files path).mapError (.unreadable path)
  let bytes ← if hex then (Hex.decode raw).mapError (.notHex path) else pure raw
  (WellFormed.check bytes).mapError (.malformed path)
  return bytes

/-- What reports say about an input. -/
def describe (path : String) (bytes : Bytes) : Report.Input :=
  ⟨path, bytes.length, Hex.encode (Sha256.digest bytes)⟩

/-- The paths that a command reads. -/
def Command.paths : Command → List String
  | compare left right _ => [left, right]
  | dump input _ => [input]

end UnknownFields.CommandLine

import UnknownFields.Text.Decimal

/-!
The arguments of the program. They are read from the left, and the first thing that settles the
matter wins: a wish for help, or an argument that does not fit. An option may stand anywhere behind
the command, its value behind an equals sign or in the next argument, and at most once. A value in
an argument of its own does not begin with a minus sign, unless it is that sign alone. Behind `--`
every argument is a path.
-/

namespace UnknownFields.CommandLine

/-- Why there is nothing to run. -/
inductive Stop where
  | help
  | usage
  deriving DecidableEq, Repr

/-- What the options say. -/
structure Options where
  maxDepth : Option Nat := none
  arenaBytes : Option Nat := none
  hex : Bool := false
  deriving DecidableEq, Repr

inductive Command where
  | compare (left right : String) (options : Options)
  | dump (input : String) (options : Options)
  deriving DecidableEq, Repr

/-- What distinguishes the commands: how many paths they take, and whether they take a ceiling. -/
structure Shape where
  paths : Nat
  ceiling : Bool
  deriving DecidableEq, Repr

/-- The arguments of a command as far as they have been read. -/
structure Given where
  paths : List String := []
  options : Options := {}
  deriving DecidableEq, Repr

/-- An argument that begins with a minus sign, and is not that sign alone. -/
def isFlag (arg : String) : Bool :=
  match arg.toList with
  | '-' :: _ :: _ => true
  | _ => false

/-- Adds a path, which may not be empty, if another one is wanted. -/
def addPath (shape : Shape) (given : Given) (path : String) : Except Stop Given :=
  if path = "" ∨ shape.paths ≤ given.paths.length then .error .usage
  else .ok { given with paths := given.paths ++ [path] }

/-- The options that take a value. -/
inductive Setting where
  | maxDepth
  | arenaBytes
  deriving DecidableEq, Repr

/-- Whether a setting has been given. -/
def Setting.isGiven (options : Options) : Setting → Bool
  | maxDepth => options.maxDepth.isSome
  | arenaBytes => options.arenaBytes.isSome

/-- The options with a setting given by its text. -/
def Setting.set (options : Options) (text : String) : Setting → Except Decimal.Error Options
  | maxDepth => do
    return { options with maxDepth := some (← Decimal.readSigned UInt32.size text.toList) }
  | arenaBytes => do
    return { options with arenaBytes := some (← Decimal.read UInt64.size text.toList) }

/-- Gives a setting its value. -/
def addSetting (given : Given) (setting : Setting) (text : String) : Except Stop Given :=
  if setting.isGiven given.options then .error .usage
  else
    match setting.set given.options text with
    | .ok options => .ok { given with options }
    | .error _ => .error .usage

def setHex (given : Given) : Except Stop Given :=
  if given.options.hex then .error .usage
  else .ok { given with options := { given.options with hex := true } }

/-- What an argument that begins with two minus signs asks for. -/
inductive LongOption where
  | help
  | hex
  | setting (setting : Setting) (value : Option String)
  | unknown
  deriving DecidableEq, Repr

/-- Reads an option without its two minus signs. -/
def LongOption.read (shape : Shape) (text : List Char) : LongOption :=
  let name := String.ofList (text.takeWhile (· ≠ '='))
  let value := (text.dropWhile (· ≠ '=')).tail?.map String.ofList
  match name, value with
  | "help", none => help
  | "hex", none => hex
  | "max-depth", value => setting .maxDepth value
  | "arena-bytes", value => if shape.ceiling then setting .arenaBytes value else unknown
  | _, _ => unknown

/-- Reads the arguments behind a command. -/
def readGiven (shape : Shape) (given : Given) : List String → Except Stop Given
  | [] => .ok given
  | arg :: rest =>
    match arg.toList with
    | ['-', '-'] => rest.foldlM (addPath shape) given
    | '-' :: '-' :: text =>
      match LongOption.read shape text, rest with
      | .help, _ => .error .help
      | .hex, rest => do readGiven shape (← setHex given) rest
      | .setting setting (some value), rest => do
        readGiven shape (← addSetting given setting value) rest
      | .setting setting none, value :: rest =>
        if isFlag value then .error .usage
        else do readGiven shape (← addSetting given setting value) rest
      | .setting _ none, [] => .error .usage
      | .unknown, _ => .error .usage
    | '-' :: 'h' :: _ => .error .help
    | '-' :: _ :: _ => .error .usage
    | _ => do readGiven shape (← addPath shape given arg) rest

/-- Reads what stands behind the word `help`. -/
def readHelp : List String → Stop
  | [] => .help
  | ["compare"] => .help
  | ["dump"] => .help
  | ["help"] => .help
  | _ => .usage

/-- Reads all arguments. -/
def readCommand : List String → Except Stop Command
  | [] => .error .usage
  | "compare" :: rest => do
    let given ← readGiven ⟨2, true⟩ {} rest
    match given.paths with
    | [left, right] => return .compare left right given.options
    | _ => throw .usage
  | "dump" :: rest => do
    let given ← readGiven ⟨1, false⟩ {} rest
    match given.paths with
    | [input] => return .dump input given.options
    | _ => throw .usage
  | "help" :: rest => .error (readHelp rest)
  | arg :: _ =>
    match arg.toList with
    | '-' :: 'h' :: _ => .error .help
    | _ => if arg = "--help" then .error .help else .error .usage

end UnknownFields.CommandLine

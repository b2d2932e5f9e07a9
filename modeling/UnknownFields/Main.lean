import UnknownFields.CommandLine.Run

/-!
The program `wirecmp`. It reads the files that its arguments name, hands them to the run, and writes
what the run answers.
-/

namespace UnknownFields.CommandLine

def helpText : String :=
  "Order-insensitive equality for protobuf unknown-field bytes.\n\n" ++
  "Usage: wirecmp compare A B [--max-depth N] [--arena-bytes N] [--hex]\n" ++
  "       wirecmp dump FILE [--max-depth N] [--hex]\n" ++
  "       wirecmp help [COMMAND]\n\n" ++
  "Exit status: 0 equal or listed, 1 not equal, 2 limit run into, 3 usage or input error.\n" ++
  "Without --max-depth the depth is that of $WIRECMP_MAX_DEPTH, or 100.\n"

def usageText : String :=
  "error: the arguments do not fit\n\nFor more information, try 'wirecmp --help'.\n"

/-- The bytes of a file, or why they cannot be read. -/
def readFile (path : String) : IO (Except FileError Bytes) := do
  try
    return .ok (← IO.FS.readBinFile path).toList
  catch error =>
    return .error <| match error with
      | .noFileOrDirectory .. => .notFound
      | .permissionDenied .. => .accessDenied
      | .inappropriateType _ _ "not a directory" => .notDirectory
      | .inappropriateType _ 21 _ => .isDirectory
      | .invalidArgument _ _ "name too long" => .nameTooLong
      | other => .other (toString other)

/-- Reads the files of a command before it is run. -/
def readFiles (paths : List String) : IO Files := do
  let contents ← paths.mapM fun path => return (path, ← readFile path)
  return fun path => (contents.lookup path).getD (.error .notFound)

end UnknownFields.CommandLine

open UnknownFields CommandLine in
def main (args : List String) : IO UInt32 := do
  let environment := (← IO.getEnv depthVariable).map fun text => text.toUTF8.toList
  let files ← match readCommand args with
    | .ok command => readFiles command.paths
    | .error _ => readFiles []
  match run .lenient args environment files with
  | .ok response =>
    (← IO.getStdout).putStr (response.output helpText)
    (← IO.getStderr).putStr (response.errorOutput usageText)
    return response.status.toUInt32
  | .error fault =>
    (← IO.getStderr).putStr (fault.message ++ "\n")
    return 101

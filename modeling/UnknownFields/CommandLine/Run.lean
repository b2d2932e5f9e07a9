import UnknownFields.CommandLine.Input
import UnknownFields.CommandLine.Response

/-!
A run of the program as a function of its arguments, of one environment variable, and of the files
that it can read. The depth is settled first, then the inputs are read one after the other; each is
read, decoded and checked before the next one is touched, and the first failure ends the run.
-/

namespace UnknownFields.CommandLine

def runCompare (mode : Mode) (limits : Limits) (left right : String × Bytes) :
    Except Fault Response := do
  let verdict ← compareInputs mode limits left.2 right.2
  let inputs := [describe left.1 left.2, describe right.1 right.2]
  return .report (Report.comparison verdict limits inputs) (Status.ofVerdict verdict)

def runDump (mode : Mode) (limits : Limits) (input : String × Bytes) : Except Fault Response :=
  match FieldTree.parse mode limits input.2 with
  | .error (.limit error) => .ok (.complaint (input.1 ++ ": " ++ error.message) Status.limit)
  | .error (.fault fault) => .error fault
  | .ok tree => do
    return .report (Report.dump (describe input.1 input.2) (← tree.nodes)) Status.success

/-- What a command has read: the limits, and its inputs with their paths. -/
inductive Job where
  | compare (limits : Limits) (left right : String × Bytes)
  | dump (limits : Limits) (input : String × Bytes)
  deriving DecidableEq, Repr

/-- Settles the depth and reads the inputs, in this order. -/
def prepare (environment : Option Bytes) (files : Files) : Command → Except RunError Job
  | .compare left right options => do
    let limits ← limitsFor options environment
    let leftBytes ← loadInput files options.hex left
    let rightBytes ← loadInput files options.hex right
    return .compare limits (left, leftBytes) (right, rightBytes)
  | .dump input options => do
    let limits ← limitsFor options environment
    let bytes ← loadInput files options.hex input
    return .dump limits (input, bytes)

def Job.run (mode : Mode) : Job → Except Fault Response
  | .compare limits left right => runCompare mode limits left right
  | .dump limits input => runDump mode limits input

def runCommand (mode : Mode) (environment : Option Bytes) (files : Files) (command : Command) :
    Except Fault Response :=
  match prepare environment files command with
  | .error error => .ok (.complaint error.message Status.unusable)
  | .ok job => job.run mode

/-- Runs the program. -/
def run (mode : Mode) (args : List String) (environment : Option Bytes) (files : Files) :
    Except Fault Response :=
  match readCommand args with
  | .error .help => .ok .help
  | .error .usage => .ok .usage
  | .ok command => runCommand mode environment files command

end UnknownFields.CommandLine

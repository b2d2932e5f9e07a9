import UnknownFields.FieldTree

/-!
Comparing two buffers. Buffers that are empty or the same byte by byte are decided without reading
them; otherwise both are built in one workspace, the first one first, and their sets are compared.
-/

namespace UnknownFields

inductive Verdict where
  | equal
  | notEqual
  | limit (error : LimitError)
  deriving DecidableEq, Repr

namespace Verdict

/-- The word by which reports call the verdict. -/
def name : Verdict → String
  | equal => "equal"
  | notEqual => "not_equal"
  | limit error => error.name

def isEqual (verdict : Verdict) : Bool := verdict = equal

def ofAgreement (agree : Bool) : Verdict := if agree then equal else notEqual

end Verdict

namespace Comparison

/-- Whether two byte strings are the same. -/
def bytesEqual (left right : Bytes) : Bool := left == right

/-- Builds both buffers in one workspace and compares their sets. -/
def buildBoth (mode : Mode) (left right : Bytes) : Build Bool := do
  let first ← Workspace.build mode left
  let second ← Workspace.build mode right
  fun workspace =>
    match workspace.arena.setsAgree workspace.arena first.root second.root with
    | .ok agree => .ok agree workspace
    | .error fault => .error (.fault fault) workspace

end Comparison

/-- Whether two buffers hold the same fields, the order of fields with different tags apart. -/
def compareInputs (mode : Mode) (limits : Limits) (left right : Bytes) : Except Fault Verdict :=
  if left = [] ∧ right = [] then .ok .equal
  else if left = [] ∨ right = [] then .ok .notEqual
  else if Comparison.bytesEqual left right then .ok .equal
  else
    match Comparison.buildBoth mode left right (.ofLimits limits) with
    | .ok agree _ => .ok (.ofAgreement agree)
    | .error (.limit error) _ => .ok (.limit error)
    | .error (.fault fault) _ => .error fault

end UnknownFields

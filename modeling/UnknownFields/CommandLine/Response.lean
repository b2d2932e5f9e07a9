import UnknownFields.Comparison
import UnknownFields.Json

/-!
What a run answers, the status with which it ends, and what it writes. A report goes to the output;
a complaint goes elsewhere and leaves the output empty.
-/

namespace UnknownFields.CommandLine

/-- What a run answers. -/
inductive Response where
  | help
  | usage
  /-- A report, and the status with which the run ends. -/
  | report (document : Json) (status : Nat)
  /-- A complaint, and the status with which the run ends. -/
  | complaint (text : String) (status : Nat)
  deriving BEq, Repr

namespace Status

/-- The inputs are equal, or the fields have been listed. -/
def success : Nat := 0

def notEqual : Nat := 1

/-- A limit was run into. -/
def limit : Nat := 2

/-- The run could not begin. -/
def unusable : Nat := 3

def ofVerdict : Verdict → Nat
  | .equal => success
  | .notEqual => notEqual
  | .limit _ => limit

end Status

namespace Response

def status : Response → Nat
  | help => Status.success
  | usage => Status.unusable
  | report _ status => status
  | complaint _ status => status

/-- What is written as output, when the help text is `helpText`. -/
def output (helpText : String) : Response → String
  | help => helpText
  | report document _ => document.render .pretty ++ "\n"
  | _ => ""

/-- What is written as complaint, when that about the arguments is `usageText`. -/
def errorOutput (usageText : String) : Response → String
  | usage => usageText
  | complaint text _ => text ++ "\n"
  | _ => ""

end Response

end UnknownFields.CommandLine

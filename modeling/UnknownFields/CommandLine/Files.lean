import UnknownFields.Fault

/-!
What a run sees of the file system: for each path either the bytes of a file or the reason why it
cannot be read. A directory with nothing but some files in it is one such view.
-/

namespace UnknownFields.CommandLine

/-- Why a path cannot be read. -/
inductive FileError where
  | notFound
  | accessDenied
  | notDirectory
  | isDirectory
  | nameTooLong
  | other (details : String)
  deriving DecidableEq, Repr

def FileError.message : FileError → String
  | notFound => "No such file or directory (os error 2)"
  | accessDenied => "Permission denied (os error 13)"
  | notDirectory => "Not a directory (os error 20)"
  | isDirectory => "Is a directory (os error 21)"
  | nameTooLong => "File name too long (os error 36)"
  | other details => details

/-- The files that a run can read, by their paths. -/
abbrev Files := String → Except FileError Bytes

namespace Files

/-- A file name has at most so many bytes. -/
def maxNameSize : Nat := 255

/-- A path has at most so many bytes. -/
def maxPathSize : Nat := 4095

/-- Follows the steps of a path from a directory that holds the given files. A step `..` leaves it
for a directory in which there is nothing else to find. Only a directory can be stepped on from, so
a step behind a file, an empty one too, fails. -/
def follow (files : List (String × Bytes)) : List String → Except FileError Bytes
  | [] => .error .isDirectory
  | step :: rest =>
    if step = "" ∨ step = "." then follow files rest
    else if step = ".." then follow [] rest
    else if maxNameSize < step.utf8ByteSize then .error .nameTooLong
    else
      match files.lookup step with
      | none => .error .notFound
      | some content => if rest = [] then .ok content else .error .notDirectory

/-- A directory that holds the given files and nothing else, and outside of which there is nothing
but the directories around it. A path that begins with a slash starts outside. -/
def ofList (files : List (String × Bytes)) : Files := fun path =>
  if path = "" then .error .notFound
  else if maxPathSize < path.utf8ByteSize then .error .nameTooLong
  else
    match path.splitOn "/" with
    | "" :: steps => follow [] steps
    | steps => follow files steps

end Files

end UnknownFields.CommandLine

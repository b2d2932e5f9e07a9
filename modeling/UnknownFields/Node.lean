import UnknownFields.Field

/-!
Fields as trees. A node is a field that carries the fields of its group with it, so that trees can
be compared as values. Groups are labelled: by the ids of their sets where these matter, and by
nothing where they do not.
-/

namespace UnknownFields

inductive Node (ι : Type) where
  | leaf (tag : Tag) (value : Scalar)
  | group (tag : Tag) (label : ι) (fields : List (Node ι))
  deriving BEq, Repr, Inhabited

namespace Node

def tag {ι : Type} : Node ι → Tag
  | leaf tag _ => tag
  | group tag _ _ => tag

/-- The same tree under other labels. -/
def map {ι κ : Type} (f : ι → κ) : Node ι → Node κ
  | leaf tag value => leaf tag value
  | group tag label fields => group tag (f label) (fields.map (map f))

/-- The tree without its labels. -/
def erase {ι : Type} (node : Node ι) : Node Unit := node.map fun _ => ()

end Node

/-- What stands in one line of a listing. -/
inductive RowValue where
  | scalar (value : Scalar)
  /-- A group with `count` fields in the set `id`. -/
  | group (id count : Nat)
  deriving DecidableEq, Repr

/-- A line of a listing: a field, and how many groups it is in. -/
structure Row where
  level : Nat
  tag : Tag
  value : RowValue
  deriving DecidableEq, Repr

namespace Node

/-- The lines of a node and of all that is in it; a group comes before its fields. -/
def rows (level : Nat) : Node Nat → List Row
  | leaf tag value => [⟨level, tag, .scalar value⟩]
  | group tag id fields =>
    ⟨level, tag, .group id fields.length⟩ :: fields.flatMap (rows (level + 1))

end Node

end UnknownFields

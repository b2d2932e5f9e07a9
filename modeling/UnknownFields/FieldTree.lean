import UnknownFields.Build

/-!
The canonical tree of one buffer: an arena of its own in which every level is sorted by tag, and the
set of the top level. Two trees are equal if they agree position by position, wherever their sets
lie.
-/

namespace UnknownFields

structure FieldTree where
  arena : Arena
  root : Nat
  deriving DecidableEq, Repr

namespace FieldTree

/-- Builds the tree of a buffer in a workspace of its own. -/
def parse (mode : Mode) (limits : Limits) (input : Bytes) : Except Failure FieldTree :=
  match Workspace.build mode input (.ofLimits limits) with
  | .ok built workspace => .ok ⟨workspace.arena, built.root⟩
  | .error failure _ => .error failure

/-- The bytes that the arena has been charged for while the tree was built. -/
def arenaBytes (tree : FieldTree) : Nat := tree.arena.charged

/-- The fields of the top level with all that is in their groups. -/
def nodes (tree : FieldTree) : Except Fault (List (Node Nat)) := tree.arena.nodes tree.root

/-- Whether two trees hold the same fields in the same order. -/
def agrees (tree other : FieldTree) : Except Fault Bool :=
  tree.arena.setsAgree other.arena tree.root other.root

/-- The set that is reached from the top level by going into a group at each of the positions, if
there is a group at each. -/
def follow? (tree : FieldTree) (path : List Nat) : Except Fault (Option Nat) :=
  go tree.root path
where
  go (id : Nat) : List Nat → Except Fault (Option Nat)
    | [] => .ok (some id)
    | position :: path => do
      match (← tree.arena.fields id)[position]? with
      | some ⟨_, .group member⟩ => go member path
      | _ => return none

end FieldTree

end UnknownFields

import UnknownFields.Arena.Nodes
import UnknownFields.MergeBuffer

/-!
The memory of builds: an arena, a merge buffer, the budget that pays for both, and the depth that is
left for groups. A workspace serves any number of builds, one after the other.
-/

namespace UnknownFields

structure Workspace where
  arena : Arena := {}
  buffer : MergeBuffer := {}
  budget : Budget := {}
  /-- One more than the number of groups that may still be opened. -/
  depth : Nat
  deriving DecidableEq, Repr

/-- A step of a build. A step that fails also says in which state it leaves the workspace. -/
abbrev Build (α : Type) := EStateM Failure Workspace α

namespace Workspace

def ofLimits (limits : Limits) : Workspace :=
  { budget := { limit := limits.arenaBytes }, depth := limits.maxDepth }

/-- A step on the arena as a step on the workspace. -/
def onArena {α : Type} (step : Metering Arena α) : Build α :=
  fun ⟨arena, buffer, budget, depth⟩ =>
    match step ⟨arena, budget⟩ with
    | .ok result ⟨arena, budget⟩ => .ok result ⟨arena, buffer, budget, depth⟩
    | .error failure ⟨arena, budget⟩ => .error failure ⟨arena, buffer, budget, depth⟩

/-- A step on the merge buffer as a step on the workspace. -/
def onBuffer {α : Type} (step : Metering MergeBuffer α) : Build α :=
  fun ⟨arena, buffer, budget, depth⟩ =>
    match step ⟨buffer, budget⟩ with
    | .ok result ⟨buffer, budget⟩ => .ok result ⟨arena, buffer, budget, depth⟩
    | .error failure ⟨buffer, budget⟩ => .error failure ⟨arena, buffer, budget, depth⟩

/-- A check as a step that changes nothing. -/
def require (check : Except Fault Unit) : Build Unit :=
  match check with
  | .ok () => pure ()
  | .error fault => throw (.fault fault)

/-- Takes one unit of depth, of which one has to be left. -/
def spendDepth : Build Unit := fun workspace =>
  if workspace.depth ≤ 1 then .error (.limit .maxDepthExceeded) workspace
  else .ok () { workspace with depth := workspace.depth - 1 }

/-- Gives one unit of depth back. -/
def regainDepth : Build Unit := fun workspace =>
  .ok () { workspace with depth := workspace.depth + 1 }

/-- Sorts the fields of a set. -/
def sortSet (id : Nat) : Build Unit := fun workspace =>
  match workspace.arena.fields id with
  | .error fault => .error (.fault fault) workspace
  | .ok fields =>
    match onBuffer (MergeBuffer.sort fields) workspace with
    | .error failure workspace => .error failure workspace
    | .ok sorted ⟨arena, buffer, budget, depth⟩ =>
      match arena.replaceSet id sorted with
      | .error fault => .error (.fault fault) ⟨arena, buffer, budget, depth⟩
      | .ok arena => .ok () ⟨arena, buffer, budget, depth⟩

/-- Drops every set and the merge buffer. -/
def release : Build Unit := do
  onArena Arena.release
  onBuffer MergeBuffer.release

end Workspace

end UnknownFields

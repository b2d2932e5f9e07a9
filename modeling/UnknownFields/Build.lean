import UnknownFields.Wire.Token
import UnknownFields.Workspace

/-!
Building sets from bytes. A build walks over the tokens of its input with a stack of open levels,
one for the top and one for each open group. When a level ends, its set is sorted unless its tags
came in order, and a group becomes a field of the level around it. The end of the input ends every
level, so a group that is never closed just ends there. A failure leaves the open groups one by one,
and each of them gives back the depth that it has taken.
-/

namespace UnknownFields

/-- A level whose fields are being read. -/
structure Level where
  /-- The set that holds its fields. -/
  set : Nat
  lastTag : Tag := ⟨0⟩
  /-- Whether no tag was smaller than the one before it. -/
  ascending : Bool := true
  deriving DecidableEq, Repr

/-- The level behind one more tag. -/
def Level.see (level : Level) (tag : Tag) : Level :=
  { level with lastTag := tag, ascending := level.ascending && level.lastTag ≤ tag }

/-- A level in which a group is open, and the tag that opened it. -/
structure OuterLevel where
  level : Level
  opened : Tag
  deriving DecidableEq, Repr

/-- What a build leaves behind: the set of the top level, and how many bytes it has read. -/
structure Built where
  root : Nat
  position : Nat
  deriving DecidableEq, Repr

namespace Build

open Workspace

/-- Leaves the open groups with a failure, from the innermost one on. Each gives its unit of depth
back. -/
def abandon {α : Type} (failure : Failure) : List OuterLevel → Build α
  | [] => throw failure
  | _ :: outers => do
    regainDepth
    abandon failure outers

/-- A step inside the open groups, which are left if it fails. -/
def inside {α : Type} (outers : List OuterLevel) (step : Build α) : Build α :=
  tryCatch step fun failure => abandon failure outers

/-- Ends a level: its set gets its final order. -/
def finish (level : Level) : Build Unit :=
  if level.ascending then pure () else sortSet level.set

/-- Ends the level `inner` of a group and puts the group into the level around it. -/
def closeGroup (inner : Level) (outer : OuterLevel) (outers : List OuterLevel) : Build Unit := do
  inside (outer :: outers) (finish inner)
  regainDepth
  inside outers (onArena (Arena.push outer.level.set ⟨outer.opened, .group inner.set⟩))

/-- Ends a level and all levels around it. The answer is the set of the top level. -/
def closeAll (level : Level) : List OuterLevel → Build Nat
  | [] => do
    finish level
    return level.set
  | outer :: outers => do
    closeGroup level outer outers
    closeAll outer.level outers

/-- The field number of the innermost open group. -/
def openField? : List OuterLevel → Option Nat
  | [] => none
  | outer :: _ => some outer.opened.fieldNumber

/-- Reads fields into `level`, around which the levels `outers` are open. -/
def fill (mode : Mode) : TokenStream → Level → List OuterLevel → Build Built
  | .done position, level, outers => return ⟨← closeAll level outers, position⟩
  | .broken fault, _, outers => inside outers (throw (.fault fault))
  | .next (.field tag value) _ rest, level, outers => do
    inside outers (onArena (Arena.push level.set ⟨tag, .scalar value⟩))
    fill mode rest (level.see tag) outers
  | .next (.opening tag) _ rest, level, outers => do
    inside outers spendDepth
    let set ← inside (⟨level.see tag, tag⟩ :: outers) (onArena Arena.newSet)
    fill mode rest { set } (⟨level.see tag, tag⟩ :: outers)
  | .next (.closing tag) position rest, level, outers => do
    inside outers (require (mode.expect (openField? outers = some tag.fieldNumber)
      (.strayEndGroup (openField? outers) tag.fieldNumber)))
    match outers with
    | [] =>
      finish level
      return ⟨level.set, position⟩
    | outer :: outers =>
      closeGroup level outer outers
      fill mode rest outer.level outers
  | .next (.unknown tag) position _, level, outers =>
    return ⟨← closeAll (level.see tag) outers, position⟩

end Build

/-- Builds the sets of an input into a workspace. A build that fails leaves the sets that it has made
in the arena. -/
def Workspace.build (mode : Mode) (input : Bytes) : Build Built := do
  let set ← onArena Arena.newSet
  let built ← Build.fill mode (.ofBytes mode input) { set } []
  require (mode.expect (built.position = input.length)
    (.unreadBytes (input.length - built.position)))
  return built

end UnknownFields

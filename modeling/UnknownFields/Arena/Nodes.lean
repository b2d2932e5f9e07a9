import UnknownFields.Arena
import UnknownFields.Node

/-!
Reading a set out of an arena, and comparing sets where they lie. Both follow the ids of groups. A
group is younger than the set that holds it, which is what makes them end; an id that points back is
a fault.
-/

namespace UnknownFields.Arena

/-- The fault of a set `holder` with a group `member` that is missing or not younger. -/
def strayGroup (arena : Arena) (holder member : Nat) : Fault :=
  if member < arena.setCount then .groupNotYounger holder member
  else .noSuchSet arena.setCount member

/-- Some fields with all that is in their groups, when `inside` reads out the set of a group. -/
def nodesOf (inside : Nat → Except Fault (List (Node Nat))) :
    List Field → Except Fault (List (Node Nat))
  | [] => .ok []
  | ⟨tag, .scalar value⟩ :: rest => do
    return .leaf tag value :: (← nodesOf inside rest)
  | ⟨tag, .group member⟩ :: rest => do
    let fields ← inside member
    return .group tag member fields :: (← nodesOf inside rest)

/-- The fields of a set with all that is in their groups. -/
def nodes (arena : Arena) (id : Nat) : Except Fault (List (Node Nat)) := do
  let fields ← arena.fields id
  nodesOf (fun member =>
    if h : id < member ∧ member < arena.setCount then
      have : arena.setCount - member < arena.setCount - id := by omega
      nodes arena member
    else throw (arena.strayGroup id member)) fields
termination_by arena.setCount - id

/-- Whether two lists of fields agree position by position, as far as `agree` says. -/
def agreeAll (agree : Field → Field → Except Fault Bool) :
    List Field → List Field → Except Fault Bool
  | [], [] => .ok true
  | left :: lefts, right :: rights => do
    if ← agree left right then agreeAll agree lefts rights else return false
  | _, _ => .ok false

/-- Whether two fields agree, when `agree` compares the sets of groups. -/
def fieldsAgree (agree : Nat → Nat → Except Fault Bool) (left right : Field) :
    Except Fault Bool :=
  if left.tag = right.tag then
    match left.payload, right.payload with
    | .scalar left, .scalar right => .ok (left.agree right)
    | .group left, .group right => agree left right
    | _, _ => .ok false
  else .ok false

/-- Whether two sets, which may lie in two arenas, hold the same fields in the same order. -/
def setsAgree (arena other : Arena) (id otherId : Nat) : Except Fault Bool := do
  let lefts ← arena.fields id
  let rights ← other.fields otherId
  if lefts.length = rights.length then
    agreeAll (fieldsAgree fun member otherMember =>
      if h : id < member ∧ member < arena.setCount then
        have : arena.setCount - member < arena.setCount - id := by omega
        setsAgree arena other member otherMember
      else throw (arena.strayGroup id member)) lefts rights
  else return false
termination_by arena.setCount - id

end UnknownFields.Arena

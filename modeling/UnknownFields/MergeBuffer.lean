import UnknownFields.Arena

/-!
Stable sorting by tag, through a merge buffer that serves one sort after the other. The buffer grows
by doubling to the largest list that has been sorted and is never shrunk by a sort. Its growth is
charged before anything is moved, so a sort that fails leaves list, buffer and budget as they were.
-/

namespace UnknownFields

structure MergeBuffer where
  /-- The number of fields that have room. -/
  room : Nat := 0
  /-- The fields that the last merge left behind. -/
  held : List Field := []
  deriving DecidableEq, Repr

namespace MergeBuffer

/-- The room of a buffer that is used for the first time. -/
def minRoom : Nat := 8

/-- Doubles `room` until `count` fields have room. -/
def doubled (count room : Nat) : Nat :=
  if h : 0 < room ∧ room < count then
    have : count - 2 * room < count - room := by omega
    doubled count (2 * room)
  else room
termination_by count - room

/-- The room of a buffer that has to take `count` fields and has room for `room`. -/
def grownRoom (count room : Nat) : Nat :=
  if count ≤ room then room else doubled count (max minRoom room)

/-- Makes room for `count` fields. -/
def reserve (count : Nat) : Metering MergeBuffer Unit := fun ⟨buffer, budget⟩ =>
  if count ≤ buffer.room then .ok () ⟨buffer, budget⟩
  else
    let room := grownRoom count buffer.room
    match budget.charge? (Arena.slotBytes * (room - buffer.room)) with
    | none => .error (.limit .outOfMemory) ⟨buffer, budget⟩
    | some budget => .ok () ⟨{ room }, budget⟩

/-- Copies a run of fields into the buffer. -/
def load (buffer : MergeBuffer) (run : List Field) : Except Fault MergeBuffer :=
  if run.length ≤ buffer.room then .ok { buffer with held := run }
  else .error (.mergeBufferTooSmall run.length buffer.room)

/-- Two sorted runs as one. Of two fields with one tag, that of the left run comes first. -/
def merge : (left right : List Field) → List Field
  | [], right => right
  | left, [] => left
  | first :: left, second :: right =>
    if first.tag ≤ second.tag then first :: merge left (second :: right)
    else second :: merge (first :: left) right
termination_by left right => left.length + right.length

/-- Sorts both halves of a run and merges them through the buffer. -/
def mergeSort (buffer : MergeBuffer) (run : List Field) : Except Fault (List Field × MergeBuffer) :=
  if _short : run.length ≤ 1 then .ok (run, buffer)
  else do
    let (left, buffer) ← mergeSort buffer (run.take (run.length / 2))
    let (right, buffer) ← mergeSort buffer (run.drop (run.length / 2))
    let buffer ← buffer.load (left ++ right)
    return (merge left right, buffer)
termination_by run.length
decreasing_by
  · rw [List.length_take]
    omega
  · rw [List.length_drop]
    omega

/-- The fields in the order of their tags, fields with one tag in the order in which they came. -/
def sort (fields : List Field) : Metering MergeBuffer (List Field) := do
  reserve fields.length
  fun ⟨buffer, budget⟩ =>
    match buffer.mergeSort fields with
    | .error fault => .error (.fault fault) ⟨buffer, budget⟩
    | .ok (sorted, buffer) => .ok sorted ⟨buffer, budget⟩

/-- Gives up the buffer. What was charged stays charged. -/
def release : Metering MergeBuffer Unit := fun ⟨_, budget⟩ => .ok () ⟨{}, budget⟩

end MergeBuffer

end UnknownFields

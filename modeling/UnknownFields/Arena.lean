import UnknownFields.Field
import UnknownFields.Limits

/-!
An arena of field sets. All fields lie in one row of slots, which only grows. A set is a window of
that row, and its id is the number of sets made before it. A full window that ends with the row
grows where it is; any other full window moves to the end of the row and leaves its old slots
behind. Slots and windows are charged to a budget before they are made, and a charge that fails
changes nothing.
-/

namespace UnknownFields

/-- `capacity` slots from `start` on, of which the first `length` are in use. -/
structure Window where
  start : Nat
  length : Nat
  capacity : Nat
  deriving DecidableEq, Repr

namespace Window

/-- The slot behind the last one. -/
def stop (window : Window) : Nat := window.start + window.capacity

/-- The slots of a window that gets its first field. -/
def minCapacity : Nat := 4

/-- The capacity to which a full window grows. -/
def grownCapacity (window : Window) : Nat := max minCapacity (2 * window.capacity)

/-- How many slots a row of `size` slots needs for the window to grow. -/
def slotsToGrow (window : Window) (size : Nat) : Nat :=
  if window.stop = size then window.grownCapacity - window.capacity else window.grownCapacity

/-- The window grown in a row of `size` slots. -/
def grow (window : Window) (size : Nat) : Window :=
  if window.stop = size then { window with capacity := window.grownCapacity }
  else { window with start := size, capacity := window.grownCapacity }

end Window

structure Arena where
  slots : Array Field := #[]
  /-- The windows of the sets, by id. -/
  windows : Array Window := #[]
  /-- The bytes charged for the slots and windows. -/
  charged : Nat := 0
  deriving DecidableEq, Repr

namespace Arena

def windowBytes : Nat := 24

def slotBytes : Nat := 32

def setCount (arena : Arena) : Nat := arena.windows.size

/-- The window of a set. It has to lie in the row of slots. -/
def window (arena : Arena) (id : Nat) : Except Fault Window :=
  match arena.windows[id]? with
  | none => .error (.noSuchSet arena.setCount id)
  | some window =>
    if window.stop ≤ arena.slots.size then .ok window
    else .error (.windowOutOfRange window.stop arena.slots.size)

/-- The fields of a set, in order. -/
def fields (arena : Arena) (id : Nat) : Except Fault (List Field) := do
  let window ← arena.window id
  return (arena.slots.extract window.start (window.start + window.length)).toList

/-- Makes an empty set that has no slots yet; the answer is its id. -/
def newSet : Metering Arena Nat := fun ⟨⟨slots, windows, charged⟩, budget⟩ =>
  match budget.charge? windowBytes with
  | none => .error (.limit .outOfMemory) ⟨⟨slots, windows, charged⟩, budget⟩
  | some budget =>
    let id := windows.size
    .ok id ⟨⟨slots, windows.push ⟨slots.size, 0, 0⟩, charged + windowBytes⟩, budget⟩

/-- The row of slots with room for a window that grows. -/
def grownSlots (window : Window) (slots : Array Field) : Array Field :=
  if window.stop = slots.size then
    slots ++ Array.replicate (window.grownCapacity - window.capacity) Field.vacant
  else
    slots ++ slots.extract window.start (window.start + window.length) ++
      Array.replicate (window.grownCapacity - window.length) Field.vacant

/-- Makes room for one more field in the set of a window; the answer is where the window lies. -/
def reserve (id : Nat) (window : Window) : Metering Arena Window :=
  fun ⟨⟨slots, windows, charged⟩, budget⟩ =>
    if window.length < window.capacity then .ok window ⟨⟨slots, windows, charged⟩, budget⟩
    else
      let bytes := slotBytes * window.slotsToGrow slots.size
      match budget.charge? bytes with
      | none => .error (.limit .outOfMemory) ⟨⟨slots, windows, charged⟩, budget⟩
      | some budget =>
        let grown := window.grow slots.size
        .ok grown ⟨⟨grownSlots window slots, windows.setIfInBounds id grown, charged + bytes⟩, budget⟩

/-- Appends a field to a set. -/
def push (id : Nat) (field : Field) : Metering Arena Unit := fun ⟨arena, budget⟩ =>
  match arena.window id with
  | .error fault => .error (.fault fault) ⟨arena, budget⟩
  | .ok window =>
    match reserve id window ⟨arena, budget⟩ with
    | .error failure memory => .error failure memory
    | .ok window ⟨⟨slots, windows, charged⟩, budget⟩ =>
      .ok () ⟨⟨slots.setIfInBounds (window.start + window.length) field,
        windows.setIfInBounds id { window with length := window.length + 1 }, charged⟩, budget⟩

/-- Puts fields into the slots from `start` on. -/
def overwrite (slots : Array Field) (start : Nat) : List Field → Array Field
  | [] => slots
  | field :: rest => overwrite (slots.setIfInBounds start field) (start + 1) rest

/-- Replaces the fields of a set by as many others. -/
def replaceSet (id : Nat) (fields : List Field) (arena : Arena) : Except Fault Arena := do
  let window ← arena.window id
  if fields.length = window.length then
    let ⟨slots, windows, charged⟩ := arena
    return ⟨overwrite slots window.start fields, windows, charged⟩
  else throw (.replacementLength window.length fields.length)

/-- Drops every set. What was charged stays charged. -/
def release : Metering Arena Unit := fun ⟨_, budget⟩ => .ok () ⟨{}, budget⟩

end Arena

end UnknownFields

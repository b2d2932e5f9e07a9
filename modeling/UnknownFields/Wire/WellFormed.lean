import UnknownFields.Wire.Varint
import UnknownFields.Wire.Tag

/-!
The check for bytes that nobody vouches for. It reads the items of a buffer one by one, keeps the
groups that are open on a stack, and names the first thing that is wrong and where. The position of
a malformation is that of the first byte of the item at fault, or, for a group that is never closed,
of its opening tag. The check builds nothing and shares no reading with the builder.
-/

namespace UnknownFields

/-- The ways in which bytes can fail to be a sequence of items. -/
inductive Malformation where
  | truncatedVarint
  | varintTooLong
  | tagOutOfRange
  | fieldNumberZero
  | invalidWireType (code : Nat)
  | truncatedPayload
  | unexpectedEndGroup
  | mismatchedEndGroup (opened closed : Nat)
  | unterminatedGroup (field : Nat)
  deriving DecidableEq, Repr

def Malformation.message : Malformation → String
  | truncatedVarint => "truncated varint"
  | varintTooLong => s!"varint longer than {Varint.maxLength} bytes"
  | tagOutOfRange => "tag does not fit in 32 bits"
  | fieldNumberZero => "field number 0"
  | invalidWireType code => s!"invalid wire type {code}"
  | truncatedPayload => "payload runs past end of input"
  | unexpectedEndGroup => "end-group with no open group"
  | mismatchedEndGroup opened closed => s!"end-group for field {closed} closes group {opened}"
  | unterminatedGroup field => s!"group {field} is never closed"

/-- What is wrong with a buffer, and where. -/
structure Malformed where
  offset : Nat
  reason : Malformation
  deriving DecidableEq, Repr

def Malformed.message (malformed : Malformed) : String :=
  s!"malformed unknown fields at byte {malformed.offset}: {malformed.reason.message}"

namespace WellFormed

/-- Reads on from byte `index` of a number whose groups before it add up to `low`. The answer is the
number and its length. -/
def readVarintFrom (index : Nat) (low : UInt64) : Bytes → Except Malformation (UInt64 × Nat)
  | [] => .error .truncatedVarint
  | byte :: rest =>
    if index = Varint.maxLength then .error .varintTooLong
    else
      let value := low ||| ((byte &&& 0x7f).toUInt64 <<< (7 * index).toUInt64)
      if byte &&& 0x80 = 0 then .ok (value, index + 1) else readVarintFrom (index + 1) value rest

/-- The number at the front of the input, and how many bytes it takes. -/
def readVarint (input : Bytes) : Except Malformation (UInt64 × Nat) := readVarintFrom 0 0 input

/-- Accepts a payload of `length` bytes if that many are there. -/
def skip (input : Bytes) (length : Nat) : Except Malformation Nat :=
  if length ≤ input.length then .ok length else .error .truncatedPayload

/-- What an item means for the groups around it. -/
inductive Item where
  | scalar
  | opening (field : Nat)
  | closing (field : Nat)
  deriving DecidableEq, Repr

/-- The item behind a tag, given by what follows the tag, and the length of its payload. -/
def readPayload (field code : Nat) (input : Bytes) : Except Malformation (Item × Nat) :=
  match WireType.ofCode? code with
  | some .varint => do
    let (_, length) ← readVarint input
    return (.scalar, length)
  | some .fixed64 => return (.scalar, ← skip input 8)
  | some .fixed32 => return (.scalar, ← skip input 4)
  | some .delimited => do
    let (wanted, length) ← readVarint input
    let span ← skip (input.drop length) wanted.toNat
    return (.scalar, length + span)
  | some .startGroup => return (.opening field, 0)
  | some .endGroup => return (.closing field, 0)
  | none => throw (.invalidWireType code)

/-- The item at the front of the input, and how many bytes it takes. -/
def readItem (input : Bytes) : Except Malformation (Item × Nat) := do
  let (tag, length) ← readVarint input
  if UInt32.size ≤ tag.toNat then throw .tagOutOfRange
  else if tag.toNat / 8 = 0 then throw .fieldNumberZero
  else do
    let (item, span) ← readPayload (tag.toNat / 8) (tag.toNat % 8) (input.drop length)
    return (item, length + span)

theorem lt_of_readVarintFrom {index length : Nat} {low value : UInt64} {input : Bytes}
    (h : readVarintFrom index low input = .ok (value, length)) : index < length := by
  fun_induction readVarintFrom index low input with
  | case1 => cases h
  | case2 => cases h
  | case3 =>
    injection h with h
    injection h with _ h
    omega
  | case4 _ _ _ _ _ _ _ ih => exact Nat.lt_of_succ_lt (ih h)

/-- An item takes a byte at least. -/
theorem pos_of_readItem {input : Bytes} {item : Item} {length : Nat}
    (h : readItem input = .ok (item, length)) : 0 < length := by
  obtain ⟨⟨tag, _⟩, hvarint, h⟩ := bind_eq_ok.1 h
  dsimp only at h
  split at h
  · cases h
  · split at h
    · cases h
    · obtain ⟨_, _, h⟩ := bind_eq_ok.1 h
      cases h
      exact Nat.lt_of_lt_of_le (lt_of_readVarintFrom hvarint) (Nat.le_add_right _ _)

/-- A group that has been opened: its field number, and where its opening tag is. -/
structure OpenGroup where
  field : Nat
  offset : Nat
  deriving DecidableEq, Repr

/-- The open groups behind an item at `offset`, innermost first. -/
def balance (offset : Nat) (groups : List OpenGroup) : Item → Except Malformation (List OpenGroup)
  | .scalar => .ok groups
  | .opening field => .ok (⟨field, offset⟩ :: groups)
  | .closing field =>
    match groups with
    | [] => .error .unexpectedEndGroup
    | group :: outer =>
      if group.field = field then .ok outer else .error (.mismatchedEndGroup group.field field)

/-- At the end of the input no group may be open. -/
def finish : List OpenGroup → Except Malformed Unit
  | [] => .ok ()
  | group :: _ => .error ⟨group.offset, .unterminatedGroup group.field⟩

/-- Checks what is left of a buffer behind its first `offset` bytes. -/
def scan (offset : Nat) (groups : List OpenGroup) (input : Bytes) : Except Malformed Unit :=
  if hinput : input = [] then finish groups
  else
    match hitem : readItem input with
    | .error reason => .error ⟨offset, reason⟩
    | .ok (item, length) =>
      match balance offset groups item with
      | .error reason => .error ⟨offset, reason⟩
      | .ok groups =>
        have : input.length - length < input.length :=
          Nat.sub_lt (List.length_pos_iff.2 hinput) (pos_of_readItem hitem)
        scan (offset + length) groups (input.drop length)
termination_by input.length

/-- Accepts the sequences of items with balanced groups. -/
def check (input : Bytes) : Except Malformed Unit := scan 0 [] input

end WellFormed

end UnknownFields

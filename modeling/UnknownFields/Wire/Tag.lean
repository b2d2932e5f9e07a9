/-!
The tag in front of every item: a 32-bit number whose three low bits say how the payload is written
and whose other bits are the field number.
-/

namespace UnknownFields

/-- The six ways in which an item is written. -/
inductive WireType where
  | varint
  | fixed64
  | delimited
  | startGroup
  | endGroup
  | fixed32
  deriving DecidableEq, Repr

namespace WireType

def code : WireType → Nat
  | varint => 0
  | fixed64 => 1
  | delimited => 2
  | startGroup => 3
  | endGroup => 4
  | fixed32 => 5

/-- The codes 6 and 7 mean nothing. -/
def ofCode? : Nat → Option WireType
  | 0 => some varint
  | 1 => some fixed64
  | 2 => some delimited
  | 3 => some startGroup
  | 4 => some endGroup
  | 5 => some fixed32
  | _ => none

theorem ofCode?_code (type : WireType) : ofCode? type.code = some type := by
  cases type <;> rfl

/-- The word by which reports call the wire type. -/
def name : WireType → String
  | varint => "varint"
  | fixed64 => "fixed64"
  | delimited => "delimited"
  | startGroup => "group"
  | endGroup => "end_group"
  | fixed32 => "fixed32"

end WireType

structure Tag where
  number : UInt32
  deriving DecidableEq, Repr, Inhabited

namespace Tag

instance : LE Tag := ⟨fun left right => left.number ≤ right.number⟩

instance (left right : Tag) : Decidable (left ≤ right) :=
  inferInstanceAs (Decidable (left.number ≤ right.number))

def fieldNumber (tag : Tag) : Nat := tag.number.toNat / 8

/-- The low three bits. -/
def wireCode (tag : Tag) : Nat := tag.number.toNat % 8

def wireType? (tag : Tag) : Option WireType := WireType.ofCode? tag.wireCode

end Tag

end UnknownFields

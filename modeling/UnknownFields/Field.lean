import UnknownFields.Fault
import UnknownFields.Wire.Tag

/-!
Fields as an arena stores them. A field is a tag and a payload; the payload of a group is the id of
the set that holds its fields. Payloads are compared bit by bit and never interpreted.
-/

namespace UnknownFields

/-- A payload that stands for itself. -/
inductive Scalar where
  | varint (value : UInt64)
  | fixed64 (bits : UInt64)
  | fixed32 (bits : UInt32)
  | delimited (bytes : Bytes)
  deriving DecidableEq, Repr

namespace Scalar

def wireType : Scalar → WireType
  | varint _ => .varint
  | fixed64 _ => .fixed64
  | fixed32 _ => .fixed32
  | delimited _ => .delimited

/-- Whether two payloads of one kind agree; payloads of different kinds never do. -/
def agree : Scalar → Scalar → Bool
  | varint left, varint right => left == right
  | fixed64 left, fixed64 right => left == right
  | fixed32 left, fixed32 right => left == right
  | delimited left, delimited right => left == right
  | _, _ => false

theorem agree_iff (left right : Scalar) : left.agree right = true ↔ left = right := by
  cases left <;> cases right <;> simp [agree]

end Scalar

inductive Payload where
  | scalar (value : Scalar)
  /-- The fields of a group are in the set `id`. -/
  | group (id : Nat)
  deriving DecidableEq, Repr

structure Field where
  tag : Tag
  payload : Payload
  deriving DecidableEq, Repr

namespace Field

/-- What a slot holds that is reserved and not yet used. -/
def vacant : Field := ⟨⟨0⟩, .scalar (.varint 0)⟩

def varint (tag : UInt32) (value : UInt64) : Field := ⟨⟨tag⟩, .scalar (.varint value)⟩

end Field

end UnknownFields

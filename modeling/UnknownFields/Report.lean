import UnknownFields.Comparison
import UnknownFields.Json
import UnknownFields.Text.Hex

/-!
The documents that tell of a comparison and of a tree. Both start with the name of their schema. A
tree is listed level by level in canonical order, each field with its number, the name of its wire
type, its tag, and a value under a key that says which kind of value it is.
-/

namespace UnknownFields

namespace Scalar

def toJson : Scalar → Json
  | varint value => .object [("varint", .number value.toNat)]
  | fixed64 bits => .object [("fixed64", .number bits.toNat)]
  | fixed32 bits => .object [("fixed32", .number bits.toNat)]
  | delimited bytes => .object [("bytes_hex", .text (Hex.encode bytes))]

end Scalar

/-- The name of the wire type of a tag. -/
def Tag.wireName (tag : Tag) : String :=
  match tag.wireType? with
  | some type => type.name
  | none => "invalid"

namespace Node

/-- A field with its value. -/
def entry (tag : Tag) (value : Json) : Json :=
  .object [("field", .number tag.fieldNumber), ("wire_type", .text tag.wireName),
    ("tag", .number tag.number.toNat), ("value", value)]

def toJson {ι : Type} : Node ι → Json
  | leaf tag value => entry tag value.toJson
  | group tag _ fields => entry tag (.object [("group", .list (fields.map toJson))])

end Node

namespace Report

/-- What a document says about an input. -/
structure Input where
  path : String
  /-- The number of bytes. -/
  length : Nat
  /-- The digest of the bytes, in hexadecimal digits. -/
  sha256 : String
  deriving DecidableEq, Repr

def Input.toJson (input : Input) : Json :=
  .object [("path", .text input.path), ("len", .number input.length),
    ("sha256", .text input.sha256)]

def compareSchema : String := "wirecmp.compare.report@0.1.0"

def dumpSchema : String := "wirecmp.dump.report@0.1.0"

/-- The document of a comparison under some limits. A missing ceiling has no member. -/
def comparison (verdict : Verdict) (limits : Limits) (inputs : List Input) : Json :=
  .object <|
    [("schema_version", .text compareSchema), ("result", .text verdict.name),
      ("equal", .bool verdict.isEqual), ("max_depth", .number limits.maxDepth)] ++
    (limits.arenaBytes.toList.map fun bytes => ("arena_bytes", .number bytes)) ++
    [("inputs", .list (inputs.map Input.toJson))]

/-- The document of the fields of an input. -/
def dump {ι : Type} (input : Input) (fields : List (Node ι)) : Json :=
  .object [("schema_version", .text dumpSchema), ("input", input.toJson),
    ("fields", .list (fields.map Node.toJson))]

end Report

end UnknownFields

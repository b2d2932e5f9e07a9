import UnknownFields.CommandLine.Input
import UnknownFields.Proofs.JsonGrammar
import UnknownFields.Proofs.Text.Hex

/-!
What the two documents say, by the keys under which they say it. The document of a comparison has the
word for the verdict, the limits, and a summary of each input; that of a tree has one object for each
field, in order, and inside the object of a group those of its fields.
-/

namespace UnknownFields

namespace Json

/-- The keys of an object, in the order in which they are written. -/
def keys : Json → List String
  | object members => members.map Prod.fst
  | _ => []

def member? (key : String) : Json → Option Json
  | object members => members.lookup key
  | _ => none

end Json

/-- The text has two digits for each of the bytes, and its letters are in lower case. -/
structure Hex.Prints (text : String) (bytes : Bytes) : Prop where
  lower : ∀ char ∈ text.toList, char ∈ "0123456789abcdef".toList
  spells : Spells (text.toList.map fun char => UInt8.ofNat char.toNat) bytes

theorem Hex.prints_encode (bytes : Bytes) : Prints (encode bytes) bytes := by
  have hdigits : ∀ value < 16, value.digitChar ∈ "0123456789abcdef".toList := by decide
  refine ⟨fun char hchar => ?_, ?_⟩
  · rw [encode, String.toList_ofList, encodeChars] at hchar
    obtain ⟨byte, -, hbyte⟩ := List.mem_flatMap.mp hchar
    have hlt := byte.toNat_lt
    rcases List.mem_pair.mp hbyte with rfl | rfl
    · exact hdigits _ (by omega)
    · exact hdigits _ (by omega)
  · rw [encode, String.toList_ofList]
    exact spells_encodeChars bytes

/-- The word for a verdict. -/
inductive Verdict.Named : Verdict → String → Prop where
  | equal : Named .equal "equal"
  | notEqual : Named .notEqual "not_equal"
  | outOfMemory : Named (.limit .outOfMemory) "out_of_memory"
  | maxDepthExceeded : Named (.limit .maxDepthExceeded) "max_depth_exceeded"

theorem Verdict.named_name (verdict : Verdict) : verdict.Named verdict.name := by
  cases verdict with
  | equal => exact .equal
  | notEqual => exact .notEqual
  | limit error =>
      cases error with
      | outOfMemory => exact .outOfMemory
      | maxDepthExceeded => exact .maxDepthExceeded

namespace Report

/-- What is said about an input: where it is from, how long it is, and its digest. -/
structure Summarizes (path : String) (bytes : Bytes) (document : Json) : Prop where
  keys_eq : document.keys = ["path", "len", "sha256"]
  path_eq : document.member? "path" = some (.text path)
  len_eq : document.member? "len" = some (.number bytes.length)
  sha256_eq : ∃ digits, document.member? "sha256" = some (.text digits) ∧
    Hex.Prints digits (Sha256.digest bytes)

/-- What is said about a comparison. A missing ceiling is not mentioned. -/
structure Compares (verdict : Verdict) (limits : Limits) (inputs : List (String × Bytes))
    (document : Json) : Prop where
  keys_eq : document.keys = ["schema_version", "result", "equal", "max_depth"] ++
    (if limits.arenaBytes.isSome then ["arena_bytes"] else []) ++ ["inputs"]
  schema_eq : document.member? "schema_version" = some (.text "wirecmp.compare.report@0.1.0")
  result_eq : ∃ word, document.member? "result" = some (.text word) ∧ verdict.Named word
  equal_eq : document.member? "equal" = some (.bool (verdict = .equal))
  maxDepth_eq : document.member? "max_depth" = some (.number limits.maxDepth)
  arenaBytes_eq : document.member? "arena_bytes" = limits.arenaBytes.map .number
  inputs_eq : ∃ summaries, document.member? "inputs" = some (.list summaries) ∧
    List.Forall₂ (fun input => Summarizes input.1 input.2) inputs summaries

/-- The word for the wire type that a tag announces. -/
def wireWord (tag : Tag) : String :=
  ["varint", "fixed64", "delimited", "group", "end_group", "fixed32"][tag.number.toNat % 8]?.getD
    "invalid"

/-- A payload stands under a key that tells its kind. -/
inductive Holds : Scalar → Json → Prop where
  | varint {value : UInt64} : Holds (.varint value) (.object [("varint", .number value.toNat)])
  | fixed64 {bits : UInt64} : Holds (.fixed64 bits) (.object [("fixed64", .number bits.toNat)])
  | fixed32 {bits : UInt32} : Holds (.fixed32 bits) (.object [("fixed32", .number bits.toNat)])
  | delimited {bytes : Bytes} {digits : String} (prints : Hex.Prints digits bytes) :
      Holds (.delimited bytes) (.object [("bytes_hex", .text digits)])

/-- What is said about a field. -/
inductive Lists {ι : Type} : Node ι → Json → Prop where
  | leaf {tag : Tag} {value : Scalar} {held : Json} (holds : Holds value held) :
      Lists (.leaf tag value) (.object [("field", .number (tag.number.toNat / 8)),
        ("wire_type", .text (wireWord tag)), ("tag", .number tag.number.toNat), ("value", held)])
  | group {tag : Tag} {label : ι} {fields : List (Node ι)} {items : List Json}
      (lists : List.Forall₂ Lists fields items) :
      Lists (.group tag label fields) (.object [("field", .number (tag.number.toNat / 8)),
        ("wire_type", .text (wireWord tag)), ("tag", .number tag.number.toNat),
        ("value", .object [("group", .list items)])])

/-- What is said about an input and the tree of its fields. -/
structure Dumps {ι : Type} (path : String) (bytes : Bytes) (fields : List (Node ι))
    (document : Json) : Prop where
  keys_eq : document.keys = ["schema_version", "input", "fields"]
  schema_eq : document.member? "schema_version" = some (.text "wirecmp.dump.report@0.1.0")
  input_eq : ∃ summary, document.member? "input" = some summary ∧ Summarizes path bytes summary
  fields_eq : ∃ items, document.member? "fields" = some (.list items) ∧
    List.Forall₂ Lists fields items

theorem summarizes_describe (path : String) (bytes : Bytes) :
    Summarizes path bytes (CommandLine.describe path bytes).toJson where
  keys_eq := rfl
  path_eq := rfl
  len_eq := rfl
  sha256_eq := ⟨_, rfl, Hex.prints_encode _⟩

/-- **The document of a comparison** says what was compared, under which limits, and the verdict. -/
theorem compares_comparison (verdict : Verdict) (limits : Limits)
    (inputs : List (String × Bytes)) :
    Compares verdict limits inputs (comparison verdict limits
      (inputs.map fun input => CommandLine.describe input.1 input.2)) where
  keys_eq := by
    obtain ⟨maxDepth, arenaBytes⟩ := limits
    cases arenaBytes <;> rfl
  schema_eq := rfl
  result_eq := ⟨_, rfl, verdict.named_name⟩
  equal_eq := rfl
  maxDepth_eq := rfl
  arenaBytes_eq := by
    obtain ⟨maxDepth, arenaBytes⟩ := limits
    cases arenaBytes <;> rfl
  inputs_eq := by
    refine ⟨(inputs.map fun input => CommandLine.describe input.1 input.2).map Input.toJson, ?_, ?_⟩
    · obtain ⟨maxDepth, arenaBytes⟩ := limits
      cases arenaBytes <;> rfl
    · rw [List.map_map]
      exact forall₂_map_self fun input _ => summarizes_describe input.1 input.2

theorem holds_toJson (value : Scalar) : Holds value value.toJson := by
  cases value with
  | varint value => exact .varint
  | fixed64 bits => exact .fixed64
  | fixed32 bits => exact .fixed32
  | delimited bytes => exact .delimited (Hex.prints_encode bytes)

theorem wireName_eq (tag : Tag) : tag.wireName = wireWord tag := by
  have hcode : tag.number.toNat % 8 < 8 := Nat.mod_lt _ (by decide)
  rw [Tag.wireName, wireWord, Tag.wireType?, Tag.wireCode]
  generalize tag.number.toNat % 8 = code at hcode ⊢
  interval_cases code <;> rfl

theorem lists_toJson {ι : Type} (node : Node ι) : Lists node node.toJson := by
  fun_induction Node.toJson node with
  | case1 tag value =>
      rw [Node.entry, wireName_eq]
      exact .leaf (holds_toJson value)
  | case2 tag label fields ih =>
      rw [Node.entry, wireName_eq]
      exact .group (forall₂_map_self ih)

/-- **The document of a tree** says what was read, and lists the fields one by one. -/
theorem dumps_dump {ι : Type} (path : String) (bytes : Bytes) (fields : List (Node ι)) :
    Dumps path bytes fields (dump (CommandLine.describe path bytes) fields) where
  keys_eq := rfl
  schema_eq := rfl
  input_eq := ⟨_, rfl, summarizes_describe path bytes⟩
  fields_eq := ⟨_, rfl, forall₂_map_self fun field _ => lists_toJson field⟩

end Report

end UnknownFields

import UnknownFields.Node
import UnknownFields.Proofs.Wire.Spelling
import UnknownFields.Wire.Token

/-!
The wire format as a relation between bytes and the fields that they encode. It knows nothing of
readers. Numbers may be spelled in any way, so a list of fields has many encodings; a buffer encodes
one list of fields at most, which is proved where the encodings are read.
-/

namespace UnknownFields

/-- The number whose bytes are given, the lowest first. -/
def littleEndian : Bytes → Nat
  | [] => 0
  | byte :: rest => byte.toNat + 256 * littleEndian rest

/-- The bytes are a tag in front of an item of the given type. -/
structure Tag.Written (tag : Tag) (type : WireType) (bytes : Bytes) : Prop where
  spells : Varint.Spells bytes tag.number.toUInt64
  type_eq : tag.wireType? = some type
  field_mem : 1 ≤ tag.fieldNumber ∧ tag.fieldNumber ≤ 2 ^ 29 - 1

/-- The bytes are the payload that follows the tag of a field. -/
inductive Scalar.Written : Scalar → Bytes → Prop where
  | varint {value : UInt64} {bytes : Bytes} (spells : Varint.Spells bytes value) :
      Written (.varint value) bytes
  | fixed64 {bits : UInt64} {bytes : Bytes} (length_eq : bytes.length = 8)
      (value_eq : bits.toNat = littleEndian bytes) : Written (.fixed64 bits) bytes
  | fixed32 {bits : UInt32} {bytes : Bytes} (length_eq : bytes.length = 4)
      (value_eq : bits.toNat = littleEndian bytes) : Written (.fixed32 bits) bytes
  | delimited {length : UInt64} {front bytes : Bytes} (spells : Varint.Spells front length)
      (length_eq : length.toNat = bytes.length) : Written (.delimited bytes) (front ++ bytes)

/-- The bytes are a field with a scalar payload, or a tag that opens or closes a group. -/
inductive Token.Written : Token → Bytes → Prop where
  | field {tag : Tag} {value : Scalar} {front payload : Bytes}
      (tag_written : tag.Written value.wireType front) (value_written : value.Written payload) :
      Written (.field tag value) (front ++ payload)
  | opening {tag : Tag} {bytes : Bytes} (tag_written : tag.Written .startGroup bytes) :
      Written (.opening tag) bytes
  | closing {tag : Tag} {bytes : Bytes} (tag_written : tag.Written .endGroup bytes) :
      Written (.closing tag) bytes

/-- The bytes encode the fields. A group is closed by a tag with the field number of the tag that
opens it. -/
inductive Encodes : Bytes → List (Node Unit) → Prop where
  | nil : Encodes [] []
  | leaf {tag : Tag} {value : Scalar} {bytes rest : Bytes} {others : List (Node Unit)}
      (item : (Token.field tag value).Written bytes) (rest_encodes : Encodes rest others) :
      Encodes (bytes ++ rest) (.leaf tag value :: others)
  | group {tag closing : Tag} {front inside back rest : Bytes} {fields others : List (Node Unit)}
      (opened : (Token.opening tag).Written front) (inside_encodes : Encodes inside fields)
      (closed : (Token.closing closing).Written back)
      (same_field : closing.fieldNumber = tag.fieldNumber) (rest_encodes : Encodes rest others) :
      Encodes (front ++ inside ++ back ++ rest) (.group tag () fields :: others)

theorem Tag.Written.length_pos {tag : Tag} {type : WireType} {bytes : Bytes}
    (h : tag.Written type bytes) : 0 < bytes.length := h.spells.shaped.length_pos

theorem Token.Written.length_pos {token : Token} {bytes : Bytes} (h : token.Written bytes) :
    0 < bytes.length := by
  cases h with
  | field htag _ => exact Nat.lt_of_lt_of_le htag.length_pos (by simp)
  | opening htag => exact htag.length_pos
  | closing htag => exact htag.length_pos

/-- Only nothing is encoded by nothing. -/
theorem Encodes.nil_iff {bytes : Bytes} {fields : List (Node Unit)} (h : Encodes bytes fields) :
    bytes = [] ↔ fields = [] := by
  cases h with
  | nil => simp
  | leaf item _ =>
      have hpos := item.length_pos
      simp only [List.append_eq_nil_iff, reduceCtorEq, iff_false, not_and]
      rintro rfl
      exact absurd hpos (Nat.lt_irrefl 0)
  | group item _ _ _ _ =>
      have hpos := item.length_pos
      simp only [List.append_eq_nil_iff, reduceCtorEq, iff_false, not_and, and_imp]
      rintro rfl
      exact absurd hpos (Nat.lt_irrefl 0)

/-- An empty buffer and one that is not encode different numbers of fields. -/
theorem Encodes.length_ne {left right : Bytes} {fields others : List (Node Unit)}
    (h : Encodes left fields) (h' : Encodes right others) (hne : left ≠ right)
    (hempty : left = [] ∨ right = []) : fields.length ≠ others.length := by
  intro hlength
  apply hne
  rcases hempty with hempty | hempty
  · rw [h.nil_iff.mp hempty, List.length_nil] at hlength
    rw [hempty, h'.nil_iff.mpr (List.length_eq_zero_iff.mp hlength.symm)]
  · rw [h'.nil_iff.mp hempty, List.length_nil] at hlength
    rw [hempty, h.nil_iff.mpr (List.length_eq_zero_iff.mp hlength)]

theorem Encodes.append {front back : Bytes} {fields others : List (Node Unit)}
    (hfront : Encodes front fields) (hback : Encodes back others) :
    Encodes (front ++ back) (fields ++ others) := by
  induction hfront with
  | nil => exact hback
  | leaf item _ ih =>
      rw [List.append_assoc, List.cons_append]
      exact .leaf item ih
  | group opened inside closed same _ _ ih =>
      rw [List.append_assoc, List.cons_append]
      exact .group opened inside closed same ih

theorem Tag.fieldNumber_lt (tag : Tag) : tag.fieldNumber < 2 ^ 29 := by
  have := tag.number.toNat_lt
  rw [fieldNumber]
  omega

theorem WireType.code_of_ofCode? {code : Nat} {type : WireType} (h : ofCode? code = some type) :
    type.code = code := by
  unfold ofCode? at h
  split at h <;> cases h <;> rfl

theorem Tag.wireCode_eq {tag : Tag} {type : WireType} (h : tag.wireType? = some type) :
    tag.wireCode = type.code := (WireType.code_of_ofCode? h).symm

/-- A number below `2 ^ 32` with a field number above zero is a tag. -/
theorem Tag.written_of_spells {bytes : Bytes} {number : UInt64} {type : WireType}
    (hspells : Varint.Spells bytes number) (hnumber : number.toNat < UInt32.size)
    (hfield : number.toNat / 8 ≠ 0) (htype : WireType.ofCode? (number.toNat % 8) = some type) :
    (Tag.mk number.toUInt32).Written type bytes ∧
      (Tag.mk number.toUInt32).fieldNumber = number.toNat / 8 := by
  have hlow : number.toUInt32.toNat = number.toNat := by
    rw [UInt64.toNat_toUInt32]
    exact Nat.mod_eq_of_lt hnumber
  have hwide : number.toUInt32.toUInt64 = number := by
    rw [← UInt64.toNat_inj, UInt32.toNat_toUInt64, hlow]
  have hfieldNumber : (Tag.mk number.toUInt32).fieldNumber = number.toNat / 8 := by
    rw [fieldNumber, hlow]
  refine ⟨⟨by rwa [hwide], ?_, ?_⟩, hfieldNumber⟩
  · rw [wireType?, wireCode, hlow, htype]
  · have := Tag.fieldNumber_lt (Tag.mk number.toUInt32)
    omega

/-- Every field number makes a tag with every wire type. -/
theorem Tag.exists_written {field : Nat} (hfield : 1 ≤ field ∧ field ≤ 2 ^ 29 - 1) (type : WireType)
    {bytes : Bytes} (hspells : Varint.Spells bytes (8 * field + type.code).toUInt64) :
    ∃ tag : Tag, tag.Written type bytes ∧ tag.fieldNumber = field := by
  have hcode : type.code < 8 := by cases type <;> decide
  have hnumber : (8 * field + type.code).toUInt64.toNat = 8 * field + type.code := by
    rw [Nat.toUInt64_eq, UInt64.toNat_ofNat']
    omega
  have hsize : UInt32.size = 2 ^ 32 := rfl
  have hdiv : (8 * field + type.code) / 8 = field := by omega
  have hmod : (8 * field + type.code) % 8 = type.code := by omega
  have htype : WireType.ofCode? ((8 * field + type.code).toUInt64.toNat % 8) = some type := by
    rw [hnumber, hmod, WireType.ofCode?_code]
  obtain ⟨hwritten, htag⟩ := Tag.written_of_spells hspells (by omega) (by omega) htype
  rw [hnumber, hdiv] at htag
  exact ⟨_, hwritten, htag⟩

/-- Every group can be closed. -/
theorem Token.exists_closing {field : Nat} (hfield : 1 ≤ field ∧ field ≤ 2 ^ 29 - 1) :
    ∃ tag bytes, (Token.closing tag).Written bytes ∧ tag.fieldNumber = field := by
  obtain ⟨bytes, hspells⟩ := Varint.exists_spells (8 * field + WireType.endGroup.code).toUInt64
  obtain ⟨tag, htag, hnumber⟩ := Tag.exists_written hfield .endGroup hspells
  exact ⟨tag, bytes, .closing htag, hnumber⟩

theorem Tag.written_single {byte : UInt8} {type : WireType} (hbyte : byte.toNat < 128)
    (hfield : 8 ≤ byte.toNat) (htype : (Tag.mk byte.toUInt32).wireType? = some type) :
    (Tag.mk byte.toUInt32).Written type [byte] := by
  refine ⟨?_, htype, ?_⟩
  · rw [UInt8.toUInt64_toUInt32]
    exact Varint.spells_single hbyte
  · rw [fieldNumber, UInt8.toNat_toUInt32]
    omega

/-- A field of two bytes. -/
theorem Token.written_pair {byte value : UInt8} (hbyte : byte.toNat < 128) (hfield : 8 ≤ byte.toNat)
    (htype : (Tag.mk byte.toUInt32).wireType? = some .varint) (hvalue : value.toNat < 128) :
    (Token.field ⟨byte.toUInt32⟩ (.varint value.toUInt64)).Written [byte, value] := by
  have htag : (Tag.mk byte.toUInt32).Written (Scalar.varint value.toUInt64).wireType [byte] :=
    Tag.written_single hbyte hfield htype
  exact .field htag (.varint (Varint.spells_single hvalue))

end UnknownFields

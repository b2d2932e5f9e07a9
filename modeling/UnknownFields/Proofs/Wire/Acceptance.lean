import UnknownFields.Proofs.Wire.Grammar

/-!
The check for bytes that nobody vouches for accepts the wire format, and nothing else. An item that
it reads is a field or a tag of the grammar, and the groups on its stack are those that the rest of
the input has to close, the innermost one first.
-/

namespace UnknownFields

theorem littleEndian_lt (bytes : Bytes) : littleEndian bytes < 256 ^ bytes.length := by
  induction bytes with
  | nil => simp [littleEndian]
  | cons byte rest ih =>
      have := byte.toNat_lt
      rw [littleEndian, List.length_cons, pow_succ]
      omega

def Token.item : Token → WellFormed.Item
  | .field _ _ => .scalar
  | .opening tag => .opening tag.fieldNumber
  | .closing tag => .closing tag.fieldNumber
  | .unknown _ => .scalar

namespace WellFormed

/-! ### Items -/

theorem skip_of_le {input : Bytes} {length : Nat} (h : length ≤ input.length) :
    skip input length = .ok length := if_pos h

theorem readItem_of_tag {tag : Tag} {type : WireType} {front : Bytes}
    (h : tag.Written type front) (tail : Bytes) :
    readItem (front ++ tail) = do
      let (item, span) ← readPayload tag.fieldNumber type.code tail
      return (item, front.length + span) := by
  have hnumber : tag.number.toUInt64.toNat = tag.number.toNat := UInt32.toNat_toUInt64 _
  have hsmall : ¬UInt32.size ≤ tag.number.toNat := Nat.not_le.mpr tag.number.toNat_lt
  have hfield : ¬tag.number.toNat / 8 = 0 := Nat.one_le_iff_ne_zero.mp h.field_mem.1
  rw [readItem, readVarint_of_spells h.spells, ← Tag.wireCode_eq h.type_eq]
  simp only [ok_bind, hnumber, if_neg hsmall, if_neg hfield, List.drop_left]
  rfl

theorem readPayload_of_written {value : Scalar} {payload : Bytes} (h : value.Written payload)
    (field : Nat) (tail : Bytes) :
    readPayload field value.wireType.code (payload ++ tail) = .ok (.scalar, payload.length) := by
  rw [readPayload, WireType.ofCode?_code]
  cases h with
  | varint hspells => simp [Scalar.wireType, readVarint_of_spells hspells]
  | fixed64 hlength _ =>
      have hskip : skip (payload ++ tail) 8 = .ok 8 := skip_of_le (by simp [hlength])
      simp [Scalar.wireType, hskip, hlength]
  | fixed32 hlength _ =>
      have hskip : skip (payload ++ tail) 4 = .ok 4 := skip_of_le (by simp [hlength])
      simp [Scalar.wireType, hskip, hlength]
  | @delimited length front bytes hspells hlength =>
      have hskip : skip (bytes ++ tail) bytes.length = .ok bytes.length := skip_of_le (by simp)
      simp [Scalar.wireType, List.append_assoc, readVarint_of_spells hspells, hlength, hskip]

/-- Every item of the grammar is read, and nothing behind it is touched. -/
theorem readItem_of_written {token : Token} {bytes : Bytes} (h : token.Written bytes)
    (tail : Bytes) : readItem (bytes ++ tail) = .ok (token.item, bytes.length) := by
  cases h with
  | @field tag value front payload htag hvalue =>
      rw [List.append_assoc, readItem_of_tag htag, readPayload_of_written hvalue,
        List.length_append]
      rfl
  | opening htag =>
      rw [readItem_of_tag htag]
      rfl
  | closing htag =>
      rw [readItem_of_tag htag]
      rfl

theorem written_of_skip {input : Bytes} {count length : Nat} (h : skip input count = .ok length) :
    length = count ∧ ∃ bytes tail, input = bytes ++ tail ∧ bytes.length = count := by
  rw [skip] at h
  split at h
  · next hcount =>
      cases h
      refine ⟨rfl, input.take count, input.drop count, (List.take_append_drop count input).symm, ?_⟩
      rw [List.length_take, Nat.min_eq_left hcount]
  · cases h

/-- A payload that is read is a scalar of the grammar, or there is none behind the tag of a group. -/
theorem written_of_readPayload {type : WireType} {field length : Nat} {input : Bytes} {item : Item}
    (h : readPayload field type.code input = .ok (item, length)) :
    (∃ value payload tail, type = Scalar.wireType value ∧ item = .scalar ∧
      input = payload ++ tail ∧ payload.length = length ∧ value.Written payload) ∨
    (type = .startGroup ∧ item = .opening field ∧ length = 0) ∨
    (type = .endGroup ∧ item = .closing field ∧ length = 0) := by
  rw [readPayload, WireType.ofCode?_code] at h
  cases type with
  | varint =>
      obtain ⟨⟨value, _⟩, hread, h⟩ := bind_eq_ok.mp h
      cases h
      obtain ⟨payload, tail, hinput, hlength, hspells⟩ := spells_of_readVarint hread
      exact Or.inl ⟨.varint value, payload, tail, rfl, rfl, hinput, hlength, .varint hspells⟩
  | fixed64 =>
      obtain ⟨_, hskip, h⟩ := bind_eq_ok.mp h
      cases h
      obtain ⟨rfl, bytes, tail, hinput, hlength⟩ := written_of_skip hskip
      have hlt := littleEndian_lt bytes
      rw [hlength] at hlt
      refine Or.inl ⟨.fixed64 (.ofNat (littleEndian bytes)), bytes, tail, rfl, rfl, hinput, hlength,
        .fixed64 hlength ?_⟩
      rw [UInt64.toNat_ofNat']
      exact Nat.mod_eq_of_lt hlt
  | fixed32 =>
      obtain ⟨_, hskip, h⟩ := bind_eq_ok.mp h
      cases h
      obtain ⟨rfl, bytes, tail, hinput, hlength⟩ := written_of_skip hskip
      have hlt := littleEndian_lt bytes
      rw [hlength] at hlt
      refine Or.inl ⟨.fixed32 (.ofNat (littleEndian bytes)), bytes, tail, rfl, rfl, hinput, hlength,
        .fixed32 hlength ?_⟩
      rw [UInt32.toNat_ofNat']
      exact Nat.mod_eq_of_lt hlt
  | delimited =>
      obtain ⟨⟨wanted, _⟩, hread, h⟩ := bind_eq_ok.mp h
      obtain ⟨span, hskip, h⟩ := bind_eq_ok.mp h
      cases h
      obtain ⟨front, rest, rfl, rfl, hspells⟩ := spells_of_readVarint hread
      rw [List.drop_left] at hskip
      obtain ⟨rfl, bytes, tail, rfl, hlength⟩ := written_of_skip hskip
      refine Or.inl ⟨.delimited bytes, front ++ bytes, tail, rfl, rfl, by simp, ?_,
        .delimited hspells hlength.symm⟩
      rw [List.length_append, hlength]
  | startGroup =>
      cases h
      exact Or.inr (Or.inl ⟨rfl, rfl, rfl⟩)
  | endGroup =>
      cases h
      exact Or.inr (Or.inr ⟨rfl, rfl, rfl⟩)

/-- An item that is read is one of the grammar. -/
theorem written_of_readItem {input : Bytes} {item : Item} {length : Nat}
    (h : readItem input = .ok (item, length)) :
    ∃ token bytes tail, input = bytes ++ tail ∧ bytes.length = length ∧ Token.item token = item ∧
      token.Written bytes := by
  obtain ⟨⟨number, _⟩, hread, h⟩ := bind_eq_ok.mp h
  obtain ⟨front, rest, rfl, rfl, hspells⟩ := spells_of_readVarint hread
  dsimp only at h
  split at h
  · cases h
  next hsmall =>
  split at h
  · cases h
  next hfield =>
  rw [List.drop_left] at h
  obtain ⟨⟨item, span⟩, hpayload, h⟩ := bind_eq_ok.mp h
  cases h
  cases htype : WireType.ofCode? (number.toNat % 8) with
  | none =>
      rw [readPayload, htype] at hpayload
      cases hpayload
  | some type =>
      obtain ⟨htag, hfieldNumber⟩ :=
        Tag.written_of_spells hspells (Nat.not_le.mp hsmall) hfield htype
      rw [← WireType.code_of_ofCode? htype] at hpayload
      rcases written_of_readPayload hpayload with
        ⟨value, payload, tail, rfl, rfl, rfl, rfl, hvalue⟩ | ⟨rfl, rfl, rfl⟩ | ⟨rfl, rfl, rfl⟩
      · exact ⟨.field _ value, front ++ payload, tail, by simp, by simp, rfl, .field htag hvalue⟩
      · exact ⟨.opening _, front, rest, rfl, rfl, by rw [Token.item, hfieldNumber], .opening htag⟩
      · exact ⟨.closing _, front, rest, rfl, rfl, by rw [Token.item, hfieldNumber], .closing htag⟩

/-! ### Groups -/

theorem scan_nil (offset : Nat) (groups : List OpenGroup) :
    scan offset groups [] = finish groups := by
  rw [scan, dif_pos rfl]

theorem scan_of_written {token : Token} {bytes : Bytes} (h : token.Written bytes) (offset : Nat)
    (groups : List OpenGroup) (tail : Bytes) :
    scan offset groups (bytes ++ tail) =
      match balance offset groups token.item with
      | .error reason => .error ⟨offset, reason⟩
      | .ok groups => scan (offset + bytes.length) groups tail := by
  have hinput : bytes ++ tail ≠ [] := by
    simp [List.length_pos_iff.mp h.length_pos]
  rw [scan, dif_neg hinput]
  split
  · next hread =>
      rw [readItem_of_written h] at hread
      cases hread
  · next hread =>
      rw [readItem_of_written h] at hread
      cases hread
      cases balance offset groups token.item with
      | error => rfl
      | ok => simp only [List.drop_left]

/-- The check goes over encoded fields and comes out behind them with the groups it had before. -/
theorem scan_append {bytes : Bytes} {fields : List (Node Unit)} (h : Encodes bytes fields)
    (offset : Nat) (groups : List OpenGroup) (tail : Bytes) :
    scan offset groups (bytes ++ tail) = scan (offset + bytes.length) groups tail := by
  induction h generalizing offset groups tail with
  | nil => rfl
  | @leaf tag value bytes rest others item _ ih =>
      rw [List.append_assoc, scan_of_written item]
      simp only [Token.item, balance]
      rw [ih, List.length_append, Nat.add_assoc]
  | @group tag closing front inside back rest fields others opened _ closed same _ ihInside ihRest =>
      rw [List.append_assoc, List.append_assoc, List.append_assoc, scan_of_written opened]
      simp only [Token.item, balance]
      rw [ihInside, scan_of_written closed]
      simp only [Token.item, balance, same, if_true]
      rw [ihRest]
      simp only [List.length_append, Nat.add_assoc]

/-- The bytes close the groups of the given fields, the first one first, and encode fields in front
of each end. -/
inductive Closes : List Nat → Bytes → Prop where
  | top {bytes : Bytes} {fields : List (Node Unit)} (inside : Encodes bytes fields) : Closes [] bytes
  | group {field : Nat} {outer : List Nat} {closing : Tag} {bytes back rest : Bytes}
      {fields : List (Node Unit)} (inside : Encodes bytes fields)
      (closed : (Token.closing closing).Written back) (same_field : closing.fieldNumber = field)
      (rest_closes : Closes outer rest) : Closes (field :: outer) (bytes ++ back ++ rest)

theorem Closes.prepend {groups : List Nat} {front bytes : Bytes} {fields : List (Node Unit)}
    (hfront : Encodes front fields) (h : Closes groups bytes) : Closes groups (front ++ bytes) := by
  cases h with
  | top inside => exact .top (hfront.append inside)
  | group inside closed same rest =>
      rw [List.append_assoc, ← List.append_assoc front, ← List.append_assoc (front ++ _)]
      exact .group (hfront.append inside) closed same rest

/-- What the check accepts behind some open groups closes these groups. -/
theorem closes_of_scan {offset : Nat} {groups : List OpenGroup} {input : Bytes}
    (h : scan offset groups input = .ok ()) : Closes (groups.map OpenGroup.field) input := by
  fun_induction scan offset groups input with
  | case1 offset groups =>
      cases groups with
      | nil => exact .top .nil
      | cons group outer => cases h
  | case2 => cases h
  | case3 => cases h
  | case4 offset groups input _ item length hitem balanced hbalance _ ih =>
      obtain ⟨token, bytes, tail, rfl, rfl, rfl, hwritten⟩ := written_of_readItem hitem
      rw [List.drop_left] at h ih
      have hrest := ih h
      cases hwritten with
      | @field tag value front payload htag hvalue =>
          cases hbalance
          have hleaf := Encodes.leaf (.field htag hvalue) .nil
          rw [List.append_nil] at hleaf
          exact hrest.prepend hleaf
      | @opening tag bytes htag =>
          cases hbalance
          cases hrest with
          | @group _ _ closing inside back rest fields hinside hclosed hsame hrest =>
              have hgroup := Encodes.group (.opening htag) hinside hclosed hsame .nil
              have hall := hrest.prepend hgroup
              simpa only [List.append_assoc, List.nil_append] using hall
      | @closing tag bytes htag =>
          cases groups with
          | nil => cases hbalance
          | cons group outer =>
              simp only [Token.item, balance] at hbalance
              split at hbalance
              · next hfield =>
                  cases hbalance
                  exact .group .nil (.closing htag) hfield.symm hrest
              · cases hbalance

theorem encodes_of_check {input : Bytes} (h : check input = .ok ()) :
    ∃ fields, Encodes input fields := by
  have hcloses : Closes [] input := closes_of_scan h
  cases hcloses with
  | top inside => exact ⟨_, inside⟩

/-- **The check accepts exactly the wire format.** -/
theorem check_eq_ok_iff (input : Bytes) :
    check input = .ok () ↔ ∃ fields, Encodes input fields := by
  constructor
  · exact encodes_of_check
  · rintro ⟨fields, h⟩
    have hscan := scan_append h 0 [] []
    rw [List.append_nil, scan_nil] at hscan
    exact hscan

end WellFormed

end UnknownFields

import UnknownFields.Proofs.Wire.Acceptance

/-!
The reader that expects well-formed input, on items of the wire format and on anything else. An item
is read in both modes, and nothing behind it is touched. Where the check finds no item, strict mode
meets a fault that shows what the check has found; the one exception is the field number zero, which
the reader does not mind.
-/

namespace UnknownFields

namespace Reader

theorem advance_append (front tail : Bytes) (position : Nat) :
    advance ⟨front ++ tail, position⟩ front.length = ⟨tail, position + front.length⟩ := by
  rw [advance, List.drop_left, List.take_left]

theorem nextVarint_of_spells {spelled : Bytes} {number : UInt64}
    (h : Varint.Spells spelled number) (mode : Mode) (tail : Bytes) (position : Nat) :
    nextVarint mode ⟨spelled ++ tail, position⟩ =
      .ok (number, ⟨tail, position + spelled.length⟩) := by
  rw [nextVarint, Varint.decode_of_spells h, ok_bind]
  simp only [advance_append]
  rfl

theorem nextTag_of_spells {spelled : Bytes} {number : UInt64} (h : Varint.Spells spelled number)
    (hnumber : number.toNat < UInt32.size) (mode : Mode) (tail : Bytes) (position : Nat) :
    nextTag mode ⟨spelled ++ tail, position⟩ =
      .ok (⟨number.toUInt32⟩, ⟨tail, position + spelled.length⟩) := by
  rw [nextTag, nextVarint_of_spells h, ok_bind]
  simp only [mode.expect_of_holds _ hnumber, ok_bind]
  rfl

theorem nextTag_of_written {tag : Tag} {type : WireType} {front : Bytes}
    (h : tag.Written type front) (mode : Mode) (tail : Bytes) (position : Nat) :
    nextTag mode ⟨front ++ tail, position⟩ = .ok (tag, ⟨tail, position + front.length⟩) := by
  have hsmall : tag.number.toUInt64.toNat < UInt32.size := by
    rw [UInt32.toNat_toUInt64]
    exact tag.number.toNat_lt
  rw [nextTag_of_spells h.spells hsmall, UInt32.toUInt32_toUInt64]

theorem nextSpan_append (mode : Mode) (front tail : Bytes) (position : Nat) :
    nextSpan mode front.length ⟨front ++ tail, position⟩ =
      .ok (front, ⟨tail, position + front.length⟩) := by
  have hlength : front.length ≤ remaining ⟨front ++ tail, position⟩ := by
    rw [remaining, List.length_append]
    exact Nat.le_add_right _ _
  rw [nextSpan, mode.expect_of_holds _ hlength, ok_bind, advance_append, List.take_left]
  rfl

theorem toNat_word64 (bytes : Bytes) :
    (bytes.foldr (fun (byte : UInt8) high => byte.toUInt64 + 256 * high) (0 : UInt64)).toNat =
      littleEndian bytes % 2 ^ 64 := by
  induction bytes with
  | nil => rfl
  | cons byte rest ih =>
      rw [List.foldr_cons, littleEndian, UInt64.toNat_add, UInt64.toNat_mul, ih]
      simp [Nat.add_mod, Nat.mul_mod]

theorem toNat_word32 (bytes : Bytes) :
    (bytes.foldr (fun (byte : UInt8) high => byte.toUInt32 + 256 * high) (0 : UInt32)).toNat =
      littleEndian bytes % 2 ^ 32 := by
  induction bytes with
  | nil => rfl
  | cons byte rest ih =>
      rw [List.foldr_cons, littleEndian, UInt32.toNat_add, UInt32.toNat_mul, ih]
      simp [Nat.add_mod, Nat.mul_mod]

theorem nextFixed64_of_written {bits : UInt64} {payload : Bytes} (hlength : payload.length = 8)
    (hbits : bits.toNat = littleEndian payload) (mode : Mode) (tail : Bytes) (position : Nat) :
    nextFixed64 mode ⟨payload ++ tail, position⟩ =
      .ok (bits, ⟨tail, position + payload.length⟩) := by
  have hword : payload.foldr (fun (byte : UInt8) high => byte.toUInt64 + 256 * high) (0 : UInt64) = bits := by
    rw [← UInt64.toNat_inj, toNat_word64, ← hbits]
    exact Nat.mod_eq_of_lt bits.toNat_lt
  rw [nextFixed64, ← hlength, nextSpan_append, ok_bind]
  simp only [hword]
  rfl

theorem nextFixed32_of_written {bits : UInt32} {payload : Bytes} (hlength : payload.length = 4)
    (hbits : bits.toNat = littleEndian payload) (mode : Mode) (tail : Bytes) (position : Nat) :
    nextFixed32 mode ⟨payload ++ tail, position⟩ =
      .ok (bits, ⟨tail, position + payload.length⟩) := by
  have hword : payload.foldr (fun (byte : UInt8) high => byte.toUInt32 + 256 * high) (0 : UInt32) = bits := by
    rw [← UInt32.toNat_inj, toNat_word32, ← hbits]
    exact Nat.mod_eq_of_lt bits.toNat_lt
  rw [nextFixed32, ← hlength, nextSpan_append, ok_bind]
  simp only [hword]
  rfl

end Reader

/-! ### Items of the wire format -/

namespace Token

theorem readPayload_of_written {tag : Tag} {value : Scalar} {payload : Bytes}
    (htype : tag.wireType? = some value.wireType) (h : value.Written payload) (mode : Mode)
    (tail : Bytes) (position : Nat) :
    readPayload mode tag ⟨payload ++ tail, position⟩ =
      .ok (.field tag value, ⟨tail, position + payload.length⟩) := by
  rw [readPayload, htype]
  cases h with
  | varint hspells =>
      simp only [Scalar.wireType, Reader.nextVarint_of_spells hspells, ok_bind, pure_eq_ok]
  | fixed64 hlength hbits =>
      simp only [Scalar.wireType, Reader.nextFixed64_of_written hlength hbits, ok_bind, pure_eq_ok]
  | fixed32 hlength hbits =>
      simp only [Scalar.wireType, Reader.nextFixed32_of_written hlength hbits, ok_bind, pure_eq_ok]
  | @delimited length front bytes hspells hlength =>
      simp only [Scalar.wireType, List.append_assoc, Reader.nextVarint_of_spells hspells, ok_bind,
        hlength, Reader.nextSpan_append, pure_eq_ok, List.length_append, Nat.add_assoc]

/-- Every item is read in both modes. -/
theorem read_of_written {token : Token} {bytes : Bytes} (h : token.Written bytes) (mode : Mode)
    (tail : Bytes) (position : Nat) :
    read mode ⟨bytes ++ tail, position⟩ = .ok (token, ⟨tail, position + bytes.length⟩) := by
  rw [read]
  cases h with
  | @field tag value front payload htag hvalue =>
      rw [List.append_assoc, Reader.nextTag_of_written htag, ok_bind]
      simp only [readPayload_of_written htag.type_eq hvalue, List.length_append, Nat.add_assoc]
  | opening htag =>
      rw [Reader.nextTag_of_written htag, ok_bind]
      simp only [readPayload, htag.type_eq]
      rfl
  | closing htag =>
      rw [Reader.nextTag_of_written htag, ok_bind]
      simp only [readPayload, htag.type_eq]
      rfl

end Token

/-! ### Anything else -/

/-- The fault of strict mode comes from the given malformation. -/
inductive Fault.Shows : Fault → Malformation → Prop where
  | emptyVarint : Shows .emptyVarint .truncatedVarint
  | unterminatedVarint {taken : Nat} (taken_le : taken ≤ Varint.maxLength) :
      Shows (.unterminatedVarint taken) .truncatedVarint
  | longVarint : Shows (.unterminatedVarint Varint.maxLength) .varintTooLong
  | tagTooLarge {value : UInt64} (value_ge : UInt32.size ≤ value.toNat) :
      Shows (.tagTooLarge value) .tagOutOfRange
  | shortPayload {wanted remaining : Nat} (remaining_lt : remaining < wanted) :
      Shows (.shortPayload wanted remaining) .truncatedPayload
  | invalidWireType (code : Nat) : Shows (.invalidWireType code) (.invalidWireType code)
  | unexpectedEndGroup (closed : Nat) : Shows (.strayEndGroup none closed) .unexpectedEndGroup
  | mismatchedEndGroup (opened closed : Nat) :
      Shows (.strayEndGroup (some opened) closed) (.mismatchedEndGroup opened closed)

namespace Reader

open WellFormed

theorem nextVarint_strict_of_error {input : Bytes} {reason : Malformation}
    (h : readVarint input = .error reason) (position : Nat) :
    ∃ fault, nextVarint .strict ⟨input, position⟩ = .error fault ∧ fault.Shows reason := by
  have hcontinued := continued_of_readVarint h
  rw [readVarint_of_continued hcontinued] at h
  cases h
  refine ⟨_, by rw [nextVarint, Varint.decode_strict_of_continued hcontinued, error_bind], ?_⟩
  by_cases hempty : input = []
  · rw [if_pos hempty, hempty]
    exact .emptyVarint
  · rw [if_neg hempty, List.length_take]
    split_ifs with hlength
    · exact .unterminatedVarint (Nat.min_le_left _ _)
    · rw [Nat.min_eq_left (not_le.mp hlength).le]
      exact .longVarint

theorem nextSpan_strict_of_error {input : Bytes} {count : Nat} {reason : Malformation}
    (h : skip input count = .error reason) (position : Nat) :
    ∃ fault, nextSpan .strict count ⟨input, position⟩ = .error fault ∧ fault.Shows reason := by
  rw [skip] at h
  split at h
  · cases h
  next hcount =>
  cases h
  refine ⟨.shortPayload count input.length, ?_, .shortPayload (not_le.mp hcount)⟩
  rw [nextSpan, Mode.expect, remaining, if_neg hcount, error_bind]

end Reader

namespace Token

open WellFormed

theorem readPayload_strict_of_error {tag : Tag} {input : Bytes} {reason : Malformation}
    (h : WellFormed.readPayload tag.fieldNumber tag.wireCode input = .error reason)
    (position : Nat) :
    ∃ fault, readPayload .strict tag ⟨input, position⟩ = .error fault ∧ fault.Shows reason := by
  rw [WellFormed.readPayload] at h
  rw [readPayload, Tag.wireType?]
  cases htype : WireType.ofCode? tag.wireCode with
  | none =>
      rw [htype] at h
      cases h
      exact ⟨_, rfl, .invalidWireType _⟩
  | some type =>
      rw [htype] at h
      cases type with
      | varint =>
          rcases bind_eq_error.mp h with hread | ⟨_, _, h⟩
          · obtain ⟨fault, hfault, hshows⟩ := Reader.nextVarint_strict_of_error hread position
            exact ⟨fault, by simp only [hfault, error_bind], hshows⟩
          · cases h
      | fixed64 =>
          rcases bind_eq_error.mp h with hskip | ⟨_, _, h⟩
          · obtain ⟨fault, hfault, hshows⟩ := Reader.nextSpan_strict_of_error hskip position
            exact ⟨fault, by simp only [Reader.nextFixed64, hfault, error_bind], hshows⟩
          · cases h
      | fixed32 =>
          rcases bind_eq_error.mp h with hskip | ⟨_, _, h⟩
          · obtain ⟨fault, hfault, hshows⟩ := Reader.nextSpan_strict_of_error hskip position
            exact ⟨fault, by simp only [Reader.nextFixed32, hfault, error_bind], hshows⟩
          · cases h
      | delimited =>
          rcases bind_eq_error.mp h with hread | ⟨⟨wanted, _⟩, hread, h⟩
          · obtain ⟨fault, hfault, hshows⟩ := Reader.nextVarint_strict_of_error hread position
            exact ⟨fault, by simp only [hfault, error_bind], hshows⟩
          · obtain ⟨front, tail, rfl, rfl, hspells⟩ := spells_of_readVarint hread
            dsimp only at h
            rw [List.drop_left] at h
            rcases bind_eq_error.mp h with hskip | ⟨_, _, h⟩
            · obtain ⟨fault, hfault, hshows⟩ :=
                Reader.nextSpan_strict_of_error hskip (position + front.length)
              refine ⟨fault, ?_, hshows⟩
              simp only [Reader.nextVarint_of_spells hspells, ok_bind, hfault, error_bind]
            · cases h
      | startGroup => cases h
      | endGroup => cases h

/-- Where the check finds no item, strict mode meets a fault. -/
theorem read_strict_of_error {input : Bytes} {reason : Malformation}
    (h : readItem input = .error reason) (hreason : reason ≠ .fieldNumberZero) (position : Nat) :
    ∃ fault, read .strict ⟨input, position⟩ = .error fault ∧ fault.Shows reason := by
  rcases bind_eq_error.mp h with hread | ⟨⟨number, length⟩, hread, h⟩
  · obtain ⟨fault, hfault, hshows⟩ := Reader.nextVarint_strict_of_error hread position
    exact ⟨fault, by simp only [read, Reader.nextTag, hfault, error_bind], hshows⟩
  · obtain ⟨front, tail, rfl, rfl, hspells⟩ := spells_of_readVarint hread
    dsimp only at h
    by_cases hlarge : UInt32.size ≤ number.toNat
    · rw [if_pos hlarge] at h
      cases h
      refine ⟨.tagTooLarge number, ?_, .tagTooLarge hlarge⟩
      simp only [read, Reader.nextTag, Reader.nextVarint_of_spells hspells, ok_bind, Mode.expect,
        if_neg (not_lt.mpr hlarge), error_bind]
    · rw [if_neg hlarge] at h
      by_cases hfield : number.toNat / 8 = 0
      · rw [if_pos hfield] at h
        cases h
        exact absurd rfl hreason
      · rw [if_neg hfield, List.drop_left] at h
        have hlow : number.toUInt32.toNat = number.toNat := by
          rw [UInt64.toNat_toUInt32]
          exact Nat.mod_eq_of_lt (not_le.mp hlarge)
        rcases bind_eq_error.mp h with hpayload | ⟨_, _, h⟩
        · rw [← hlow] at hpayload
          have hfound : ∃ fault, readPayload .strict ⟨number.toUInt32⟩
              ⟨tail, position + front.length⟩ = .error fault ∧ fault.Shows reason :=
            readPayload_strict_of_error hpayload _
          rw [read, Reader.nextTag_of_spells hspells (not_le.mp hlarge), ok_bind]
          exact hfound
        · cases h

end Token

namespace TokenStream

theorem ofReader_nil (mode : Mode) (position : Nat) : ofReader mode ⟨[], position⟩ = done position := by
  rw [ofReader, dif_pos rfl]

theorem ofReader_of_ok {mode : Mode} {input rest : Bytes} {position position' : Nat} {token : Token}
    (hinput : input ≠ []) (h : Token.read mode ⟨input, position⟩ = .ok (token, ⟨rest, position'⟩)) :
    ofReader mode ⟨input, position⟩ = next token position' (ofReader mode ⟨rest, position'⟩) := by
  rw [ofReader, dif_neg hinput]
  split
  · next hread =>
      rw [h] at hread
      cases hread
  · next hread =>
      rw [h] at hread
      cases hread
      rfl

theorem ofReader_of_error {mode : Mode} {input : Bytes} {position : Nat} {fault : Fault}
    (hinput : input ≠ []) (h : Token.read mode ⟨input, position⟩ = .error fault) :
    ofReader mode ⟨input, position⟩ = broken fault := by
  rw [ofReader, dif_neg hinput]
  split
  · next hread =>
      rw [h] at hread
      cases hread
      rfl
  · next hread =>
      rw [h] at hread
      cases hread

theorem ofReader_of_written {token : Token} {bytes : Bytes} (h : token.Written bytes) (mode : Mode)
    (tail : Bytes) (position : Nat) :
    ofReader mode ⟨bytes ++ tail, position⟩ =
      next token (position + bytes.length) (ofReader mode ⟨tail, position + bytes.length⟩) := by
  have hinput : bytes ++ tail ≠ [] := by
    simp [List.length_pos_iff.mp h.length_pos]
  exact ofReader_of_ok hinput (Token.read_of_written h mode tail position)

def length : TokenStream → Nat
  | done _ => 0
  | broken _ => 0
  | next _ _ rest => rest.length + 1

theorem length_ofReader_le (mode : Mode) (reader : Reader) :
    (ofReader mode reader).length ≤ reader.remaining := by
  fun_induction ofReader mode reader with
  | case1 => exact Nat.zero_le _
  | case2 => exact Nat.zero_le _
  | case3 reader _ _ _ _ hlt ih => exact Nat.succ_le_of_lt (ih.trans_lt hlt)

end TokenStream

end UnknownFields

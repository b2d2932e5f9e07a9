import UnknownFields.Proofs.Wire.Lenient

/-!
The positions that reading gets to in lenient mode. Nothing is checked there, so that a reader stays
in its input has to come from the reads themselves: a number ends where the input does if not before,
and a span is cut off. What is left is always the part of the input behind the position.
-/

namespace UnknownFields

theorem Varint.spelling_length_le_count (count : Nat) (input : Bytes) :
    (spelling count input).length ≤ count := by
  fun_induction spelling count input with
  | case1 => exact Nat.le_refl _
  | case2 => exact Nat.zero_le _
  | case3 count byte rest _ ih => exact Nat.succ_le_succ ih
  | case4 => exact Nat.succ_le_succ (Nat.zero_le _)

namespace Reader

/-- What a reader can come to from the start of the input, by any reads in any order. Tags are read as
numbers, and fixed words as spans. -/
inductive Reached (input : Bytes) : Reader → Prop where
  | start : Reached input { rest := input }
  | varint {reader after : Reader} {value : UInt64} (reached : Reached input reader)
      (read : reader.nextVarint .lenient = .ok (value, after)) : Reached input after
  | span {reader after : Reader} {count : Nat} {bytes : Bytes} (reached : Reached input reader)
      (read : reader.nextSpan .lenient count = .ok (bytes, after)) : Reached input after
  | toEnd {reader : Reader} (reached : Reached input reader) : Reached input reader.toEnd

/-- The reader is in the input, and no read takes more than there is. A number has at most ten bytes,
and a span at most those that are wanted. -/
structure Safe (input : Bytes) (reader : Reader) : Prop where
  position_le : reader.position ≤ input.length
  rest_eq : reader.rest = input.drop reader.position
  varint_le : ∀ value length, Varint.decode .lenient reader.rest = .ok (value, length) →
    reader.position + length ≤ input.length ∧ length ≤ Varint.maxLength
  span_le : ∀ count bytes after, reader.nextSpan .lenient count = .ok (bytes, after) →
    reader.position + bytes.length ≤ input.length ∧ bytes.length ≤ count

variable {input : Bytes} {reader after : Reader}

theorem safe_of_rest_eq (hposition : reader.position ≤ input.length)
    (hrest : reader.rest = input.drop reader.position) : reader.Safe input := by
  have hremaining : reader.rest.length = input.length - reader.position := by
    rw [hrest, List.length_drop]
  refine ⟨hposition, hrest, fun value length hdecode => ?_, fun count bytes after hspan => ?_⟩
  · cases hdecode
    have hinput := Varint.spelling_length_le Varint.maxLength reader.rest
    have hcount := Varint.spelling_length_le_count Varint.maxLength reader.rest
    exact ⟨by omega, hcount⟩
  · cases hspan
    rw [List.length_take]
    omega

theorem Safe.advance (h : reader.Safe input) (count : Nat) : (reader.advance count).Safe input := by
  have hremaining : reader.rest.length = input.length - reader.position := by
    rw [h.rest_eq, List.length_drop]
  have hposition := h.position_le
  apply safe_of_rest_eq
  · show reader.position + (reader.rest.take count).length ≤ input.length
    rw [List.length_take]
    omega
  · show reader.rest.drop count = input.drop (reader.position + (reader.rest.take count).length)
    rw [List.length_take, h.rest_eq, List.drop_drop, List.drop_eq_drop_iff, List.length_drop]
    omega

/-- **A reader never leaves its input.** -/
theorem Reached.safe (h : reader.Reached input) : reader.Safe input := by
  induction h with
  | start => exact safe_of_rest_eq (Nat.zero_le _) rfl
  | varint _ read ih =>
      obtain ⟨_, _, read⟩ := bind_eq_ok.mp read
      cases read
      exact ih.advance _
  | span _ read ih =>
      cases read
      exact ih.advance _
  | toEnd _ ih => exact ih.advance _

theorem Reached.tag (h : reader.Reached input) {tag : Tag}
    (read : reader.nextTag .lenient = .ok (tag, after)) : after.Reached input := by
  obtain ⟨_, hvarint, read⟩ := bind_eq_ok.mp read
  cases read
  exact h.varint hvarint

theorem Reached.fixed64 (h : reader.Reached input) {bits : UInt64}
    (read : reader.nextFixed64 .lenient = .ok (bits, after)) : after.Reached input := by
  obtain ⟨_, hspan, read⟩ := bind_eq_ok.mp read
  cases read
  exact h.span hspan

theorem Reached.fixed32 (h : reader.Reached input) {bits : UInt32}
    (read : reader.nextFixed32 .lenient = .ok (bits, after)) : after.Reached input := by
  obtain ⟨_, hspan, read⟩ := bind_eq_ok.mp read
  cases read
  exact h.span hspan

theorem Reached.payload (h : reader.Reached input) {tag : Tag} {token : Token}
    (read : Token.readPayload .lenient tag reader = .ok (token, after)) : after.Reached input := by
  unfold Token.readPayload at read
  split at read
  · obtain ⟨_, hvarint, read⟩ := bind_eq_ok.mp read
    cases read
    exact h.varint hvarint
  · obtain ⟨_, hfixed, read⟩ := bind_eq_ok.mp read
    cases read
    exact h.fixed64 hfixed
  · obtain ⟨_, hfixed, read⟩ := bind_eq_ok.mp read
    cases read
    exact h.fixed32 hfixed
  · obtain ⟨_, hvarint, read⟩ := bind_eq_ok.mp read
    obtain ⟨_, hspan, read⟩ := bind_eq_ok.mp read
    cases read
    exact (h.varint hvarint).span hspan
  · cases read
    exact h
  · cases read
    exact h
  · cases read
    exact h.toEnd

/-- A token is made up of such reads. -/
theorem Reached.token (h : reader.Reached input) {token : Token}
    (read : Token.read .lenient reader = .ok (token, after)) : after.Reached input := by
  obtain ⟨_, htag, read⟩ := bind_eq_ok.mp read
  exact (h.tag htag).payload read

theorem Safe.remaining_eq (h : reader.Safe input) :
    reader.remaining = input.length - reader.position := by
  rw [remaining, h.rest_eq, List.length_drop]

/-- **A token takes a byte at least.** -/
theorem Reached.position_lt (h : reader.Reached input) {token : Token} (hrest : reader.rest ≠ [])
    (read : Token.read .lenient reader = .ok (token, after)) : reader.position < after.position := by
  have hlt := Token.remaining_lt_of_read hrest read
  rw [h.safe.remaining_eq, (h.token read).safe.remaining_eq] at hlt
  omega

/-- Nothing is left behind a tag of an unknown type. -/
theorem rest_eq_nil_of_unknown {mode : Mode} {tag : Tag}
    (read : Token.read mode reader = .ok (.unknown tag, after)) : after.rest = [] := by
  obtain ⟨⟨found, behind⟩, _, read⟩ := bind_eq_ok.mp read
  replace read : Token.readPayload mode found behind = .ok (.unknown tag, after) := read
  unfold Token.readPayload at read
  split at read
  case h_7 =>
    obtain ⟨_, _, read⟩ := bind_eq_ok.mp read
    cases read
    exact List.drop_length
  case h_4 =>
    obtain ⟨_, _, read⟩ := bind_eq_ok.mp read
    obtain ⟨_, _, read⟩ := bind_eq_ok.mp read
    cases read
  case h_5 => cases read
  case h_6 => cases read
  all_goals
    obtain ⟨_, _, read⟩ := bind_eq_ok.mp read
    cases read

end Reader

end UnknownFields

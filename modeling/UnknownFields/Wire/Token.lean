import UnknownFields.Field
import UnknownFields.Wire.Reader

/-!
A buffer as a stream of tokens: fields with a scalar payload, and the tags that open and close
groups. Reading a token takes at least one byte, so a buffer has no more tokens than bytes. Whether
the groups balance is not looked at here.
-/

namespace UnknownFields

inductive Token where
  | field (tag : Tag) (value : Scalar)
  | opening (tag : Tag)
  | closing (tag : Tag)
  /-- A tag whose wire type means nothing. All input behind it is skipped. -/
  | unknown (tag : Tag)
  deriving DecidableEq, Repr

namespace Token

/-- The payload that follows a tag, and the token that both make up. -/
def readPayload (mode : Mode) (tag : Tag) (reader : Reader) : Except Fault (Token × Reader) :=
  match tag.wireType? with
  | some .varint => do
    let (value, reader) ← reader.nextVarint mode
    return (field tag (.varint value), reader)
  | some .fixed64 => do
    let (bits, reader) ← reader.nextFixed64 mode
    return (field tag (.fixed64 bits), reader)
  | some .fixed32 => do
    let (bits, reader) ← reader.nextFixed32 mode
    return (field tag (.fixed32 bits), reader)
  | some .delimited => do
    let (length, reader) ← reader.nextVarint mode
    let (bytes, reader) ← reader.nextSpan mode length.toNat
    return (field tag (.delimited bytes), reader)
  | some .startGroup => return (opening tag, reader)
  | some .endGroup => return (closing tag, reader)
  | none => do
    mode.expect False (.invalidWireType tag.wireCode)
    return (unknown tag, reader.toEnd)

/-- The token at the front of the input. -/
def read (mode : Mode) (reader : Reader) : Except Fault (Token × Reader) := do
  let (tag, reader) ← reader.nextTag mode
  readPayload mode tag reader

end Token

namespace Reader

@[simp]
theorem remaining_advance (reader : Reader) (count : Nat) :
    (reader.advance count).remaining = reader.remaining - count := by
  simp [remaining, advance]

theorem remaining_le_of_nextVarint {mode : Mode} {reader after : Reader} {value : UInt64}
    (h : reader.nextVarint mode = .ok (value, after)) : after.remaining ≤ reader.remaining := by
  obtain ⟨_, _, h⟩ := bind_eq_ok.1 h
  cases h
  simp

theorem remaining_le_of_nextSpan {mode : Mode} {count : Nat} {reader after : Reader}
    {bytes : Bytes} (h : reader.nextSpan mode count = .ok (bytes, after)) :
    after.remaining ≤ reader.remaining := by
  obtain ⟨_, _, h⟩ := bind_eq_ok.1 h
  cases h
  simp

/-- A tag takes a byte at least. -/
theorem remaining_lt_of_nextTag {mode : Mode} {reader after : Reader} {tag : Tag}
    (hrest : reader.rest ≠ []) (h : reader.nextTag mode = .ok (tag, after)) :
    after.remaining < reader.remaining := by
  obtain ⟨_, hvarint, h⟩ := bind_eq_ok.1 h
  obtain ⟨_, _, h⟩ := bind_eq_ok.1 h
  cases h
  obtain ⟨_, hdecode, h⟩ := bind_eq_ok.1 hvarint
  cases h
  obtain ⟨_, _, h⟩ := bind_eq_ok.1 hdecode
  obtain ⟨_, _, h⟩ := bind_eq_ok.1 h
  cases h
  have hcount : 0 < Varint.maxLength := by decide
  have hspelled := List.length_pos_iff.2 (Varint.spelling_ne_nil hcount hrest)
  have hrest := List.length_pos_iff.2 hrest
  rw [remaining_advance, remaining]
  omega

end Reader

namespace Token

theorem remaining_le_of_readPayload {mode : Mode} {tag : Tag} {reader after : Reader}
    {token : Token} (h : readPayload mode tag reader = .ok (token, after)) :
    after.remaining ≤ reader.remaining := by
  unfold readPayload at h
  split at h
  · obtain ⟨_, hvarint, h⟩ := bind_eq_ok.1 h
    cases h
    exact Reader.remaining_le_of_nextVarint hvarint
  · obtain ⟨_, hfixed, h⟩ := bind_eq_ok.1 h
    cases h
    obtain ⟨_, hbytes, h⟩ := bind_eq_ok.1 hfixed
    cases h
    exact Reader.remaining_le_of_nextSpan hbytes
  · obtain ⟨_, hfixed, h⟩ := bind_eq_ok.1 h
    cases h
    obtain ⟨_, hbytes, h⟩ := bind_eq_ok.1 hfixed
    cases h
    exact Reader.remaining_le_of_nextSpan hbytes
  · obtain ⟨_, hvarint, h⟩ := bind_eq_ok.1 h
    obtain ⟨_, hbytes, h⟩ := bind_eq_ok.1 h
    cases h
    exact Nat.le_trans (Reader.remaining_le_of_nextSpan hbytes)
      (Reader.remaining_le_of_nextVarint hvarint)
  · cases h
    exact Nat.le_refl _
  · cases h
    exact Nat.le_refl _
  · obtain ⟨_, _, h⟩ := bind_eq_ok.1 h
    cases h
    simp [Reader.toEnd]

/-- Reading moves forward. -/
theorem remaining_lt_of_read {mode : Mode} {reader after : Reader} {token : Token}
    (hrest : reader.rest ≠ []) (h : read mode reader = .ok (token, after)) :
    after.remaining < reader.remaining := by
  obtain ⟨_, htag, h⟩ := bind_eq_ok.1 h
  exact Nat.lt_of_le_of_lt (remaining_le_of_readPayload h)
    (Reader.remaining_lt_of_nextTag hrest htag)

end Token

/-- The tokens of a buffer in order. The stream is broken off where a fault is met. -/
inductive TokenStream where
  /-- The input has ended, after `position` bytes. -/
  | done (position : Nat)
  | broken (fault : Fault)
  /-- A token, and how many bytes have been read with it. -/
  | next (token : Token) (position : Nat) (rest : TokenStream)
  deriving DecidableEq, Repr

namespace TokenStream

def ofReader (mode : Mode) (reader : Reader) : TokenStream :=
  if hrest : reader.rest = [] then done reader.position
  else
    match hread : Token.read mode reader with
    | .error fault => broken fault
    | .ok (token, after) =>
      have : after.remaining < reader.remaining := Token.remaining_lt_of_read hrest hread
      next token after.position (ofReader mode after)
termination_by reader.remaining

def ofBytes (mode : Mode) (input : Bytes) : TokenStream := ofReader mode { rest := input }

end TokenStream

end UnknownFields

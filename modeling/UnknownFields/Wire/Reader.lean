import UnknownFields.Wire.Varint
import UnknownFields.Wire.Tag

/-!
A reader over a buffer, and the primitive reads. Each of them moves forward by what it takes and
never past the end: what is missing of a payload is cut off, and the missing high bytes of a fixed
word are zero. In strict mode a read that would have to cut is a fault.
-/

namespace UnknownFields

structure Reader where
  /-- What has not been read. -/
  rest : Bytes
  /-- How many bytes have been read. -/
  position : Nat := 0
  deriving DecidableEq, Repr

namespace Reader

def remaining (reader : Reader) : Nat := reader.rest.length

def atEnd (reader : Reader) : Bool := reader.rest.isEmpty

/-- Moves forward by `count` bytes, or to the end if there are fewer. -/
def advance (reader : Reader) (count : Nat) : Reader :=
  ⟨reader.rest.drop count, reader.position + (reader.rest.take count).length⟩

/-- Moves to the end. -/
def toEnd (reader : Reader) : Reader := reader.advance reader.remaining

def nextVarint (mode : Mode) (reader : Reader) : Except Fault (UInt64 × Reader) := do
  let (value, length) ← Varint.decode mode reader.rest
  return (value, reader.advance length)

/-- A tag is the low half of a number that is expected to have no other. -/
def nextTag (mode : Mode) (reader : Reader) : Except Fault (Tag × Reader) := do
  let (value, reader) ← reader.nextVarint mode
  mode.expect (value.toNat < UInt32.size) (.tagTooLarge value)
  return (⟨value.toUInt32⟩, reader)

def nextSpan (mode : Mode) (count : Nat) (reader : Reader) : Except Fault (Bytes × Reader) := do
  mode.expect (count ≤ reader.remaining) (.shortPayload count reader.remaining)
  return (reader.rest.take count, reader.advance count)

def nextFixed64 (mode : Mode) (reader : Reader) : Except Fault (UInt64 × Reader) := do
  let (bytes, reader) ← reader.nextSpan mode 8
  return (bytes.foldr (fun byte high => byte.toUInt64 + 256 * high) 0, reader)

def nextFixed32 (mode : Mode) (reader : Reader) : Except Fault (UInt32 × Reader) := do
  let (bytes, reader) ← reader.nextSpan mode 4
  return (bytes.foldr (fun byte high => byte.toUInt32 + 256 * high) 0, reader)

end Reader

end UnknownFields

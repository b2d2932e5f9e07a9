import UnknownFields.Fault

/-!
Base-128 varints: a 64-bit number in groups of seven bits, the lowest group first, every byte but
the last with its top bit set. A number never spans more than ten bytes; of the tenth, the bits
beyond the sixty-fourth are dropped. Here is the reader for input that is expected to be well
formed. The reader that trusts nothing is `WellFormed.readVarint`.
-/

namespace UnknownFields.Varint

/-- Ten groups of seven bits hold every 64-bit number. -/
def maxLength : Nat := 10

/-- Whether the number goes on behind this byte. -/
def continues (byte : UInt8) : Bool := 128 ≤ byte

/-- The seven bits of the number that a byte carries. -/
def group (byte : UInt8) : UInt64 := (byte &&& 127).toUInt64

/-- The number that some groups spell, modulo `2 ^ 64`. -/
def value : Bytes → UInt64
  | [] => 0
  | byte :: rest => group byte + 128 * value rest

/-- The bytes at the front of the input that belong to its first number, when that may have `count`
bytes at most. -/
def spelling : (count : Nat) → Bytes → Bytes
  | 0, _ => []
  | _ + 1, [] => []
  | count + 1, byte :: rest =>
    if continues byte then byte :: spelling count rest else [byte]

/-- Whether the last byte of a spelling ends it. -/
def terminated (spelled : Bytes) : Bool :=
  spelled.getLast?.any fun byte => !continues byte

/-- The number at the front of the input, and how many bytes it takes. -/
def decode (mode : Mode) (input : Bytes) : Except Fault (UInt64 × Nat) := do
  let spelled := spelling maxLength input
  mode.expect (input ≠ []) .emptyVarint
  mode.expect (terminated spelled) (.unterminatedVarint spelled.length)
  return (value spelled, spelled.length)

theorem spelling_length_le (count : Nat) (input : Bytes) :
    (spelling count input).length ≤ input.length := by
  fun_induction spelling count input with
  | case1 | case2 => exact Nat.zero_le _
  | case3 count byte rest _ ih => exact Nat.succ_le_succ ih
  | case4 count byte rest _ => exact Nat.succ_le_succ (Nat.zero_le _)

theorem spelling_ne_nil {count : Nat} {input : Bytes} (hcount : 0 < count) (hinput : input ≠ []) :
    spelling count input ≠ [] := by
  cases count with
  | zero => omega
  | succ count =>
    cases input with
    | nil => exact absurd rfl hinput
    | cons byte rest =>
      simp only [spelling]
      split <;> simp

end UnknownFields.Varint

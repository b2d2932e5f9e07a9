/-!
What can stop a build. A *limit* is a ceiling of the caller that the input runs into; it is an
ordinary result. A *fault* is an expectation that the input or a set id does not meet. Expectations
about the input are only checked in strict mode: in lenient mode reading goes on with what there is.
-/

namespace UnknownFields

abbrev Bytes := List UInt8

/-- The ceilings that a build can run into. -/
inductive LimitError where
  | outOfMemory
  | maxDepthExceeded
  deriving DecidableEq, Repr

namespace LimitError

/-- The word by which reports call the limit. -/
def name : LimitError → String
  | outOfMemory => "out_of_memory"
  | maxDepthExceeded => "max_depth_exceeded"

def message : LimitError → String
  | outOfMemory => "out of memory while building unknown fields"
  | maxDepthExceeded => "unknown field groups nest deeper than max_depth"

end LimitError

/-- An expectation that was not met. The first seven concern the input, the others an arena. -/
inductive Fault where
  /-- A number was wanted where the input had ended. -/
  | emptyVarint
  /-- None of the `taken` bytes of a number was its last. -/
  | unterminatedVarint (taken : Nat)
  | tagTooLarge (value : UInt64)
  /-- A payload of `wanted` bytes, of which only `remaining` are there. -/
  | shortPayload (wanted remaining : Nat)
  | invalidWireType (code : Nat)
  /-- A group of field `closed` ends where the group of field `opened`, or none, is open. -/
  | strayEndGroup (opened : Option Nat) (closed : Nat)
  | unreadBytes (count : Nat)
  /-- A set id that is not below the number of sets. -/
  | noSuchSet (count id : Nat)
  /-- A window that ends behind the last slot. -/
  | windowOutOfRange (stop size : Nat)
  /-- A set of `length` fields cannot be replaced by a list of another length. -/
  | replacementLength (length given : Nat)
  /-- A group that is not younger than the set that holds it. -/
  | groupNotYounger (holder member : Nat)
  /-- A run that the merge buffer has no room for. -/
  | mergeBufferTooSmall (run size : Nat)
  deriving DecidableEq, Repr

namespace Fault

/-- How a message shows the group that is open, if there is one. -/
def openedText : Option Nat → String
  | none => "None"
  | some field => s!"Some({field})"

def message : Fault → String
  | emptyVarint => "varint starts at end of input"
  | unterminatedVarint taken => s!"unterminated varint at end of {taken} bytes"
  | tagTooLarge value => s!"tag {value} exceeds u32"
  | shortPayload wanted remaining =>
    s!"length-delimited field wants {wanted} bytes, {remaining} remain"
  | invalidWireType code => s!"invalid wire type {code}"
  | strayEndGroup opened closed =>
    "assertion \x60left == right\x60 failed: end-group tag does not close an open group\n" ++
      s!"  left: {openedText opened}\n right: Some({closed})"
  | unreadBytes count => s!"unknown field data has {count} unconsumed bytes"
  | noSuchSet count id => s!"index out of bounds: the len is {count} but the index is {id}"
  | windowOutOfRange stop size =>
    s!"a window ends behind slot {stop}, of {size}"
  | replacementLength length given => s!"a set of {length} fields cannot be replaced by {given}"
  | groupNotYounger holder member => s!"group {member} is not younger than its holder {holder}"
  | mergeBufferTooSmall run size => s!"a run of {run} fields does not fit {size} slots"

end Fault

/-- A sequence of two steps succeeds exactly if both do. -/
theorem bind_eq_ok {ε α β : Type} {first : Except ε α} {next : α → Except ε β} {result : β} :
    (first >>= next) = .ok result ↔ ∃ middle, first = .ok middle ∧ next middle = .ok result := by
  cases first <;> simp [bind, Except.bind]

/-- A sequence of two steps fails where the first one fails that does. -/
theorem bind_eq_error {ε α β : Type} {first : Except ε α} {next : α → Except ε β} {error : ε} :
    (first >>= next) = .error error ↔
      first = .error error ∨ ∃ middle, first = .ok middle ∧ next middle = .error error := by
  cases first <;> simp [bind, Except.bind]

@[simp]
theorem ok_bind {ε α β : Type} (value : α) (next : α → Except ε β) :
    (Except.ok value >>= next) = next value := rfl

@[simp]
theorem error_bind {ε α β : Type} (error : ε) (next : α → Except ε β) :
    (Except.error error >>= next) = .error error := rfl

@[simp]
theorem pure_eq_ok {ε α : Type} (value : α) : (pure value : Except ε α) = .ok value := rfl

/-- How a build ends that does not succeed. -/
inductive Failure where
  | limit (error : LimitError)
  | fault (fault : Fault)
  deriving DecidableEq, Repr

/-- Whether expectations about the input are checked. -/
inductive Mode where
  | lenient
  | strict
  deriving DecidableEq, Repr

namespace Mode

/-- Stops with `fault` where `holds` does not, in strict mode only. Lenient mode does not look. -/
@[macro_inline]
def expect (mode : Mode) (holds : Prop) [Decidable holds] (fault : Fault) : Except Fault Unit :=
  match mode with
  | lenient => .ok ()
  | strict => if holds then .ok () else .error fault

@[simp]
theorem lenient_expect (holds : Prop) [Decidable holds] (fault : Fault) :
    lenient.expect holds fault = .ok () := rfl

theorem expect_of_holds (mode : Mode) {holds : Prop} [Decidable holds] (fault : Fault)
    (h : holds) : mode.expect holds fault = .ok () := by
  cases mode <;> simp [expect, h]

end Mode

end UnknownFields

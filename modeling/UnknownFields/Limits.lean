import UnknownFields.Fault

/-!
Ceilings on a build, and the running total of the bytes that it reserves. A total is charged before
the memory is used and is never given back.
-/

namespace UnknownFields

/-- The depth of callers that do not ask for one. -/
def defaultMaxDepth : Nat := 100

/-- The caller's ceilings. Opening a group takes one unit of depth and one unit has to be left, so
`maxDepth = n` admits `n - 1` open groups at once. -/
structure Limits where
  maxDepth : Nat := defaultMaxDepth
  /-- How many bytes the arena and the merge buffer may reserve together. -/
  arenaBytes : Option Nat := none
  deriving DecidableEq, Repr

structure Budget where
  limit : Option Nat := none
  used : Nat := 0
  deriving DecidableEq, Repr

namespace Budget

/-- Totals are 64-bit numbers. -/
def capacity : Nat := UInt64.size

/-- Whether a total is within the limit. -/
def Admits (budget : Budget) (total : Nat) : Prop :=
  total < capacity ∧ ∀ limit ∈ budget.limit, total ≤ limit

instance (budget : Budget) (total : Nat) : Decidable (budget.Admits total) :=
  inferInstanceAs (Decidable (_ ∧ _))

/-- Adds `bytes` to the total, unless the total would leave the limit. -/
def charge? (budget : Budget) (bytes : Nat) : Option Budget :=
  if budget.Admits (budget.used + bytes) then some { budget with used := budget.used + bytes }
  else none

end Budget

/-- Something whose growth is paid for by a budget. -/
structure Metered (α : Type) where
  held : α
  budget : Budget
  deriving DecidableEq, Repr

/-- A step on metered memory. A step that fails also says in which state it leaves the memory. -/
abbrev Metering (α β : Type) := EStateM Failure (Metered α) β

end UnknownFields

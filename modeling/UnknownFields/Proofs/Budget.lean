import Mathlib.Tactic
import UnknownFields.Limits

/-!
Steps that pay for what they reserve. A step of this kind is a new state together with its cost: if
the budget admits the total the new state is reached, otherwise the step fails and nothing changes.
-/

namespace UnknownFields

namespace Budget

variable {budget : Budget} {total bytes : Nat}

theorem Admits.of_le {less : Nat} (h : budget.Admits total) (hle : less ≤ total) :
    budget.Admits less :=
  ⟨Nat.lt_of_le_of_lt hle h.1, fun limit hlimit => hle.trans (h.2 limit hlimit)⟩

theorem charge?_of_admits (h : budget.Admits (budget.used + bytes)) :
    budget.charge? bytes = some { budget with used := budget.used + bytes } := if_pos h

theorem charge?_of_not_admits (h : ¬budget.Admits (budget.used + bytes)) :
    budget.charge? bytes = none := if_neg h

end Budget

def Metered.pay {α β : Type} (before : Metered α) (cost : Nat) (after : α) (answer : β) :
    EStateM.Result Failure (Metered α) β :=
  match before.budget.charge? cost with
  | none => .error (.limit .outOfMemory) before
  | some budget => .ok answer ⟨after, budget⟩

/-- A step that costs nothing does not fail, as long as the budget has been kept. -/
theorem Metered.pay_zero {α β : Type} {before : Metered α}
    (h : before.budget.Admits before.budget.used) (after : α) (answer : β) :
    before.pay 0 after answer = .ok answer ⟨after, before.budget⟩ := by
  rw [pay, Budget.charge?_of_admits h]
  rfl

end UnknownFields

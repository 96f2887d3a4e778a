/-!
# Natural numbers

* `Natural.raised` : a number raised to a power.
* `Natural.total` : the sum of natural numbers.
-/

namespace GoalReconciliation.Natural

set_option autoImplicit false

/-- A number raised to a power. -/
def raised (base exponent : Nat) : Nat :=
  Nat.pow base exponent

/-- The sum of a list. -/
def total : List Nat → Nat
  | [] => 0
  | n :: rest => n + total rest

end GoalReconciliation.Natural

import GoalReconciliation.Natural

/-!
# Decimal numbers

A decimal number keeps the digits it was written with: `0.10` and `0.1` are equal in value and differ in exponent.

* `Decimal` : a sign, a coefficient and a power of ten; or an infinity; or a number that is none.
* `Decimal.Fault` : what an operation refuses.
* `Decimal.scaled` : a coefficient at a smaller power of ten.
* `Decimal.digitCount` : how many digits a number has.
-/

namespace GoalReconciliation

open Natural (raised)

set_option autoImplicit false

/-- A decimal number: finite, infinite, or no number (which may be signalling and carry a payload). -/
inductive Decimal where
  | finite (negative : Bool) (coefficient : Nat) (exponent : Int)
  | infinity (negative : Bool)
  | nan (negative : Bool) (signalling : Bool) (payload : Nat)
deriving DecidableEq

namespace Decimal

/-- What an operation on decimals refuses. -/
inductive Fault where
  | invalidOperation
  | divisionByZero
  | overflow
deriving DecidableEq

/-- The whole number `n`. -/
def ofNat (n : Nat) : Decimal :=
  .finite false n 0

/-- The whole number `n`, with its sign. -/
def ofInt (n : Int) : Decimal :=
  .finite (n < 0) n.natAbs 0

def zero : Decimal :=
  ofNat 0

instance : Inhabited Decimal :=
  ⟨zero⟩

/-- Neither infinite nor no number. -/
def isFinite : Decimal → Bool
  | finite .. => true
  | _ => false

def isNaN : Decimal → Bool
  | nan .. => true
  | _ => false

/-- A zero of either sign and any exponent. -/
def isZero : Decimal → Bool
  | finite _ 0 _ => true
  | _ => false

/-- How many digits a number is written with, counted one by one. -/
def countDigits (n : Nat) : Nat :=
  if n < 10 then 1 else countDigits (n / 10) + 1

/-- How many digits a number is written with. The place of its first bit and the decimal logarithm of two tell it up to
one. -/
def digitCount (n : Nat) : Nat :=
  let guess := Nat.log2 n * 30102999566398 / 100000000000000
  if raised 10 guess ≤ n ∧ n < raised 10 (guess + 1) then guess + 1
  else if raised 10 (guess + 1) ≤ n ∧ n < raised 10 (guess + 2) then guess + 2
  else countDigits n

/-- The coefficient at the power of ten `low`, which is at most `exponent`. -/
def scaled (coefficient : Nat) (exponent low : Int) : Nat :=
  coefficient * raised 10 (exponent - low).toNat

/-- The signed coefficient at the power of ten `low`. -/
def signedAt (negative : Bool) (coefficient : Nat) (exponent low : Int) : Int :=
  if negative then -(scaled coefficient exponent low : Int) else scaled coefficient exponent low

end Decimal

end GoalReconciliation

import GoalReconciliation.Decimal.Basic
import GoalReconciliation.Natural

/-!
# Rounding to the working precision

* `Decimal.precision` : every result has at most 28 digits.
* `Decimal.dropDigits` : a coefficient without its last digits, rounded to the nearest, a half to the even neighbour.
* `Decimal.settle` : an exact result as a decimal of the working precision.
-/

namespace GoalReconciliation.Decimal

open Natural (raised)

set_option autoImplicit false

/-- The most digits of a result. -/
def precision : Nat := 28

/-- The greatest power of ten of a result's first digit. -/
def maxAdjusted : Int := 999999

/-- The least power of ten of a result's first digit that keeps the full precision. -/
def minAdjusted : Int := -999999

/-- The least exponent of a result. -/
def minExponent : Int := minAdjusted - precision + 1

/-- The greatest exponent of a result of full precision. -/
def maxExponent : Int := maxAdjusted - precision + 1

/-- A coefficient without its last `count` digits, to the nearest, a half to the even neighbour. -/
def dropDigits (coefficient count : Nat) : Nat :=
  let unit := raised 10 count
  let quotient := coefficient / unit
  let twice := 2 * (coefficient % unit)
  if unit < twice ∨ (twice = unit ∧ quotient % 2 = 1) then quotient + 1 else quotient

/-- The exact number as a decimal of at most `precision` digits; too large a number is refused. -/
def settle (negative : Bool) (coefficient : Nat) (exponent : Int) : Except Fault Decimal :=
  if coefficient = 0 then .ok (.finite negative 0 (min (max exponent minExponent) maxAdjusted))
  else
    let least := (digitCount coefficient : Int) + exponent - precision
    if maxExponent < least then .error .overflow
    else
      let least := max least minExponent
      if exponent < least then
        let rounded := dropDigits coefficient (least - exponent).toNat
        if rounded < raised 10 precision then .ok (.finite negative rounded least)
        else if maxExponent < least + 1 then .error .overflow
        else .ok (.finite negative (rounded / 10) (least + 1))
      else .ok (.finite negative coefficient exponent)

/-- A number that is none, with a payload that fits the precision, no longer signalling. -/
def settleNaN (negative : Bool) (payload : Nat) : Decimal :=
  .nan negative false (payload % raised 10 precision)

end GoalReconciliation.Decimal

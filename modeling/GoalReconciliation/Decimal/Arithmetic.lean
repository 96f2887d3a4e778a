import GoalReconciliation.Decimal.Rounding
import GoalReconciliation.Natural

/-!
# Decimal arithmetic

Every operation rounds its exact result once, to the working precision. A result's exponent is the one that the
operands suggest (the smaller one for a sum, the sum for a product) as long as the digits fit.

* `Decimal.add`, `sub`, `mul`, `div`, `neg`, `abs` : the operations; `.error` where no number is a result.
* `Decimal.lt`, `le`, `equal` : comparison by value; an order comparison with a number that is none is refused.
* `Decimal.greater` : the greater of two, the first one of two equals.
* `Decimal.sum` : the sum of a list, from zero and from left to right.
-/

namespace GoalReconciliation.Decimal

open Natural (raised)

set_option autoImplicit false

/-- The result where an operand is no number: the first signalling operand is refused, else the first such operand. -/
def carryNaN : List Decimal → Except Fault (Option Decimal)
  | [] => .ok none
  | .nan _ true _ :: _ => .error .invalidOperation
  | .nan negative false payload :: rest =>
    (carryNaN rest).map fun _ => some (settleNaN negative payload)
  | _ :: rest => carryNaN rest

/-- The exact sum of two finite numbers, settled. An exact zero is negative only as a sum of negative zeros. -/
def addFinite (negA : Bool) (coA : Nat) (expA : Int) (negB : Bool) (coB : Nat) (expB : Int) :
    Except Fault Decimal :=
  let low := min expA expB
  if coA = 0 ∧ coB = 0 then settle (negA && negB) 0 low
  else if coA = 0 then
    let low := max low (expB - precision - 1)
    settle negB (scaled coB expB low) low
  else if coB = 0 then
    let low := max low (expA - precision - 1)
    settle negA (scaled coA expA low) low
  else
    let total := signedAt negA coA expA low + signedAt negB coB expB low
    settle (total < 0) total.natAbs low

def add (a b : Decimal) : Except Fault Decimal := do
  if let some result ← carryNaN [a, b] then return result
  match a, b with
  | .finite negA coA expA, .finite negB coB expB => addFinite negA coA expA negB coB expB
  | .infinity negA, .infinity negB =>
    if negA = negB then .ok a else .error .invalidOperation
  | .infinity _, _ => .ok a
  | _, _ => .ok b

/-- The number with the other sign, not rounded; used by subtraction. -/
def flip : Decimal → Decimal
  | .finite negative coefficient exponent => .finite (!negative) coefficient exponent
  | .infinity negative => .infinity (!negative)
  | .nan negative signalling payload => .nan negative signalling payload

def sub (a b : Decimal) : Except Fault Decimal :=
  add a b.flip

/-- The number with the other sign; the negative of a zero is the positive zero. -/
def neg : Decimal → Except Fault Decimal
  | .finite _ 0 exponent => settle false 0 exponent
  | .finite negative coefficient exponent => settle (!negative) coefficient exponent
  | .infinity negative => .ok (.infinity (!negative))
  | .nan _ true _ => .error .invalidOperation
  | .nan negative false payload => .ok (settleNaN negative payload)

def abs : Decimal → Except Fault Decimal
  | .finite _ coefficient exponent => settle false coefficient exponent
  | .infinity _ => .ok (.infinity false)
  | .nan _ true _ => .error .invalidOperation
  | .nan negative false payload => .ok (settleNaN negative payload)

def mul (a b : Decimal) : Except Fault Decimal := do
  if let some result ← carryNaN [a, b] then return result
  match a, b with
  | .finite negA coA expA, .finite negB coB expB => settle (negA != negB) (coA * coB) (expA + expB)
  | .infinity negA, .finite negB coB _ =>
    if coB = 0 then .error .invalidOperation else .ok (.infinity (negA != negB))
  | .finite negA coA _, .infinity negB =>
    if coA = 0 then .error .invalidOperation else .ok (.infinity (negA != negB))
  | .infinity negA, .infinity negB => .ok (.infinity (negA != negB))
  | _, _ => .ok a

/-- Trailing zeros of a coefficient moved into the exponent, at most `count` of them. -/
def shedZeros : Nat → Nat → Int → Nat × Int
  | 0, coefficient, exponent => (coefficient, exponent)
  | count + 1, coefficient, exponent =>
    if coefficient % 10 = 0 then shedZeros count (coefficient / 10) (exponent + 1) else (coefficient, exponent)

/-- The quotient of two finite numbers, the divisor not zero: exact and as near as possible to the ideal exponent
where the digits suffice, else rounded. The last digit of a cut quotient is kept off zero and five, so that rounding
sees that something was cut. -/
def divFinite (negative : Bool) (coA : Nat) (expA : Int) (coB : Nat) (expB : Int) : Except Fault Decimal :=
  let ideal := expA - expB
  if coA = 0 then settle negative 0 ideal
  else
    let shift : Int := (digitCount coB : Int) - digitCount coA + precision + 1
    let numerator := coA * raised 10 shift.toNat
    let denominator := coB * raised 10 (-shift).toNat
    let quotient := numerator / denominator
    if numerator % denominator = 0 then
      let (coefficient, exponent) := shedZeros shift.toNat quotient (ideal - shift)
      settle negative coefficient exponent
    else settle negative (if quotient % 5 = 0 then quotient + 1 else quotient) (ideal - shift)

def div (a b : Decimal) : Except Fault Decimal := do
  if let some result ← carryNaN [a, b] then return result
  match a, b with
  | .finite negA coA expA, .finite negB coB expB =>
    if coB = 0 then .error (if coA = 0 then .invalidOperation else .divisionByZero)
    else divFinite (negA != negB) coA expA coB expB
  | .infinity negA, .finite negB _ _ => .ok (.infinity (negA != negB))
  | .finite negA _ _, .infinity negB => .ok (.finite (negA != negB) 0 minExponent)
  | .infinity _, .infinity _ => .error .invalidOperation
  | _, _ => .ok a

/-! ## Comparison -/

/-- The order of two numbers by value; none where one of them is no number. -/
def compare? : Decimal → Decimal → Option Ordering
  | .finite negA coA expA, .finite negB coB expB =>
    let low := min expA expB
    some (compare (signedAt negA coA expA low) (signedAt negB coB expB low))
  | .infinity negA, .infinity negB => some (compare negB.toNat negA.toNat)
  | .infinity negative, .finite .. => some (if negative then .lt else .gt)
  | .finite .., .infinity negative => some (if negative then .gt else .lt)
  | _, _ => none

/-- The order of two numbers; refused where one of them is no number. -/
def order (a b : Decimal) : Except Fault Ordering :=
  match compare? a b with
  | some ordering => .ok ordering
  | none => .error .invalidOperation

def lt (a b : Decimal) : Except Fault Bool :=
  (order a b).map (· == .lt)

def le (a b : Decimal) : Except Fault Bool :=
  (order a b).map (· != .gt)

/-- Equal in value. A number that is none equals nothing; a signalling one is refused. -/
def equal (a b : Decimal) : Except Fault Bool :=
  match a, b with
  | .nan _ true _, _ => .error .invalidOperation
  | _, .nan _ true _ => .error .invalidOperation
  | _, _ => .ok (compare? a b == some .eq)

/-- The greater of two numbers, the first one of two equals. -/
def greater (a b : Decimal) : Except Fault Decimal := do
  if ← lt a b then return b else return a

/-- The sum from zero, from left to right. -/
def sum (amounts : List Decimal) : Except Fault Decimal :=
  amounts.foldlM add zero

end GoalReconciliation.Decimal

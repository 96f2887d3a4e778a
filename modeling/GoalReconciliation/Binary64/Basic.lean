import GoalReconciliation.Decimal.Basic
import GoalReconciliation.Natural

/-!
# Double precision numbers, exactly

* `Binary64.Parts` : what the 64 bits of a number stand for: a sign and `mantissa * 2 ^ power`, an infinity, or none.
* `Binary64.parts` : the bits taken apart.
* `Binary64.roundQuotient` : a quotient of natural numbers to the nearest whole number, a half to the even neighbour.
* `Binary64.atPlaces` : a finite number in units of a power of ten, rounded so.
* `Binary64.nearest` : the double nearest to a decimal number.
* `Binary64.roundPlaces`, `Binary64.roundWhole` : a number rounded to some places, and to a whole number.
* `Binary64.fixedText` : a number written with a fixed number of places.
* `Binary64.ofDecimal`, `Binary64.toDecimal` : the double nearest to a decimal, and the decimal equal to a double.
-/

namespace GoalReconciliation.Binary64

open Natural (raised)

set_option autoImplicit false

/-- What the bits of a double stand for. -/
inductive Parts where
  | finite (negative : Bool) (mantissa : Nat) (power : Int)
  | infinity (negative : Bool)
  | nan
deriving DecidableEq

/-- The bits of a double, taken apart. -/
def parts (x : Float) : Parts :=
  let bits := x.toBits.toNat
  let negative := bits / raised 2 63 % 2 == 1
  let exponent : Nat := bits / raised 2 52 % raised 2 11
  let fraction : Nat := bits % raised 2 52
  if exponent = 2047 then (if fraction = 0 then .infinity negative else .nan)
  else if exponent = 0 then .finite negative fraction (-1074)
  else .finite negative (raised 2 52 + fraction) ((exponent : Int) - 1075)

/-- A quotient to the nearest whole number, a half to the even neighbour. -/
def roundQuotient (numerator denominator : Nat) : Nat :=
  let quotient := numerator / denominator
  let twice := 2 * (numerator % denominator)
  if denominator < twice ∨ (twice = denominator ∧ quotient % 2 = 1) then quotient + 1 else quotient

/-- `mantissa * 2 ^ power` in units of `10 ^ -places`, to the nearest, a half to the even neighbour. -/
def atPlaces (mantissa : Nat) (power : Int) (places : Nat) : Nat :=
  roundQuotient (mantissa * raised 10 places * raised 2 power.toNat) (raised 2 (-power).toNat)

/-- The double nearest to `coefficient * 10 ^ exponent`, with its sign. -/
def nearest (negative : Bool) (coefficient : Nat) (exponent : Int) : Float :=
  let first : Int := Decimal.digitCount coefficient + exponent
  let magnitude : Float :=
    if coefficient = 0 ∨ first < -330 then 0.0
    else if 310 < first then 1.0 / 0.0
    else Float.ofScientific coefficient (exponent < 0) exponent.natAbs
  if negative then -magnitude else magnitude

/-- The number rounded to some decimal places; an infinity stays. -/
def roundPlaces (places : Nat) (x : Float) : Float :=
  match parts x with
  | .finite negative mantissa power => nearest negative (atPlaces mantissa power places) (-(places : Int))
  | _ => x

/-- The nearest whole number, a half to the even neighbour; none for an infinity. -/
def roundWhole (x : Float) : Option Int :=
  match parts x with
  | .finite negative mantissa power =>
    let whole := atPlaces mantissa power 0
    some (if negative then -(whole : Int) else whole)
  | _ => none

/-- The number with a fixed number of places, at least one. -/
def fixedText (places : Nat) (x : Float) : String :=
  match parts x with
  | .finite negative mantissa power =>
    let units := atPlaces mantissa power places
    let fraction := toString (units % raised 10 places)
    (if negative then "-" else "") ++ toString (units / raised 10 places) ++ "." ++
      String.ofList (List.replicate (places - fraction.length) '0') ++ fraction
  | .infinity negative => if negative then "-inf" else "inf"
  | .nan => "nan"

/-- The double nearest to a decimal. -/
def ofDecimal : Decimal → Float
  | .finite negative coefficient exponent => nearest negative coefficient exponent
  | .infinity negative => if negative then -(1.0 / 0.0) else 1.0 / 0.0
  | .nan .. => 0.0 / 0.0

/-- A mantissa and a power that is not positive, halved and raised until the mantissa is odd or the power zero. -/
def reduce (mantissa : Nat) : Nat → Nat × Nat
  | 0 => (mantissa, 0)
  | places + 1 => if mantissa % 2 = 0 then reduce (mantissa / 2) places else (mantissa, places + 1)

/-- The decimal equal to a double. -/
def toDecimal (x : Float) : Decimal :=
  match parts x with
  | .finite negative mantissa power =>
    if 0 ≤ power then .finite negative (mantissa * raised 2 power.toNat) 0
    else
      let (mantissa, places) := reduce mantissa power.natAbs
      .finite negative (mantissa * raised 5 places) (-(places : Int))
  | .infinity negative => .infinity negative
  | .nan => .nan false false 0

end GoalReconciliation.Binary64

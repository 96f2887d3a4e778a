import GoalReconciliation.Decimal.Basic

/-!
# The text of a decimal

* `Decimal.toText` : the digits with a point where the exponent is not positive and at most five zeros would follow
  the point, else one digit before the point and an exponent.
-/

namespace GoalReconciliation.Decimal

set_option autoImplicit false

/-- An exponent with its sign. -/
def exponentText (exponent : Int) : String :=
  "E" ++ (if exponent < 0 then "-" else "+") ++ toString exponent.natAbs

/-- The text of a finite number without its sign. -/
def magnitudeText (coefficient : Nat) (exponent : Int) : String :=
  let digits := toString coefficient
  let before : Int := exponent + digits.length
  let positional : Bool := exponent ≤ 0 && -6 < before
  let point : Int := if positional then before else 1
  let body :=
    if point ≤ 0 then "0." ++ String.ofList (List.replicate (-point).toNat '0') ++ digits
    else if digits.length ≤ point.toNat then
      digits ++ String.ofList (List.replicate (point.toNat - digits.length) '0')
    else
      String.ofList (digits.toList.take point.toNat) ++ "." ++ String.ofList (digits.toList.drop point.toNat)
  if before = point then body else body ++ exponentText (before - point)

/-- The text of a number. -/
def toText : Decimal → String
  | .finite negative coefficient exponent => (if negative then "-" else "") ++ magnitudeText coefficient exponent
  | .infinity negative => if negative then "-Infinity" else "Infinity"
  | .nan negative signalling payload =>
    (if negative then "-" else "") ++ (if signalling then "sNaN" else "NaN") ++
      (if payload = 0 then "" else toString payload)

end GoalReconciliation.Decimal

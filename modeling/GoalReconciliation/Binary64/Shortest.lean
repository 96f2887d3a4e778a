import GoalReconciliation.Binary64.Basic
import GoalReconciliation.Natural

/-!
# The shortest text of a double

* `Binary64.shortest` : the fewest digits that read back as the number, and of those the nearest to it.
* `Binary64.toText` : the digits positionally from `0.0001` up to sixteen digits before the point, with at least one
  place after it; else one digit before the point and an exponent of at least two digits.
-/

namespace GoalReconciliation.Binary64

open Natural (raised)

set_option autoImplicit false

/-- The reals that round to `mantissa * 2 ^ power`: the number itself and the ends of their interval, in units of
`2 ^ (power - 2)`. The spacing halves below a power of two. -/
structure Interval where
  low : Nat
  value : Nat
  high : Nat
  unit : Int
  /-- The ends round to the number too. -/
  closed : Bool

/-- The interval of a positive number. -/
def interval (mantissa : Nat) (power : Int) : Interval where
  low := 4 * mantissa - (if mantissa = raised 2 52 ∧ power ≠ -1074 then 1 else 2)
  value := 4 * mantissa
  high := 4 * mantissa + 2
  unit := power - 2
  closed := mantissa % 2 == 0

/-- A multiple of `10 ^ grid` in the interval, nearest to its number and even of two equally near ones. -/
def Interval.onGrid? (i : Interval) (grid : Int) : Option Nat :=
  let scale (n : Nat) : Nat := n * raised 2 i.unit.toNat * raised 10 (-grid).toNat
  let step : Nat := raised 10 grid.toNat * raised 2 (-i.unit).toNat
  let inside (n : Nat) : Bool :=
    if i.closed then scale i.low ≤ n * step && n * step ≤ scale i.high
    else scale i.low < n * step && n * step < scale i.high
  let down := scale i.value / step
  let up := down + 1
  let below := scale i.value - down * step
  let above := up * step - scale i.value
  let preferUp := above < below || (above == below && down % 2 == 1)
  match 0 < down && inside down, inside up with
  | true, true => some (if preferUp then up else down)
  | true, false => some down
  | false, true => some up
  | false, false => none

/-- The coarsest of `count` grids, from `10 ^ grid` downwards, with a point in the interval. -/
def Interval.coarsest (i : Interval) : Nat → Int → Option (Nat × Int)
  | 0, _ => none
  | count + 1, grid =>
    match i.onGrid? grid with
    | some digits => some (digits, grid)
    | none => i.coarsest count (grid - 1)

/-- The fewest digits that read back as `mantissa * 2 ^ power`, with their power of ten. -/
def shortest (mantissa : Nat) (power : Int) : Nat × Int :=
  let top : Int := ((Nat.log2 mantissa : Int) + power) * 30103 / 100000 + 1
  ((interval mantissa power).coarsest 24 top).getD (mantissa, power)

/-- Digits at a power of ten, positionally or with an exponent. -/
def digitsText (digits : String) (grid : Int) : String :=
  let point : Int := grid + digits.length
  if -4 < point ∧ point ≤ 16 then
    if point ≤ 0 then "0." ++ String.ofList (List.replicate (-point).toNat '0') ++ digits
    else if digits.length ≤ point.toNat then
      digits ++ String.ofList (List.replicate (point.toNat - digits.length) '0') ++ ".0"
    else
      String.ofList (digits.toList.take point.toNat) ++ "." ++ String.ofList (digits.toList.drop point.toNat)
  else
    let exponent := point - 1
    let size := toString exponent.natAbs
    String.ofList (digits.toList.take 1) ++ (if digits.length = 1 then "" else ".") ++
      String.ofList (digits.toList.drop 1) ++ "e" ++ (if exponent < 0 then "-" else "+") ++
      (if size.length < 2 then "0" else "") ++ size

/-- The text of a double. -/
def toText (x : Float) : String :=
  match parts x with
  | .finite negative 0 _ => if negative then "-0.0" else "0.0"
  | .finite negative mantissa power =>
    let (digits, grid) := shortest mantissa power
    (if negative then "-" else "") ++ digitsText (toString digits) grid
  | .infinity negative => if negative then "-inf" else "inf"
  | .nan => "nan"

end GoalReconciliation.Binary64

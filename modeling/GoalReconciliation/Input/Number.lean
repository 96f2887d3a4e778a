import GoalReconciliation.Binary64.Basic
import GoalReconciliation.Decimal.Reader
import GoalReconciliation.Input.Fault

/-!
# Numbers and truth values that people write

* `Input.wholeOfText`, `Input.whole` : a whole number as a text, and as a structured value.
* `Input.realOfText` : a double as a text.
* `Input.truthOfText`, `Input.truth` : yes or no as a text, and as a structured value.
-/

namespace GoalReconciliation.Input

set_option autoImplicit false

/-- A text without the white space around it and without underscores between digits. -/
def plainDigits? (s : String) : Option (List Char) :=
  let cs := (Text.strip s).toList
  if cs.head? = some '_' ∨ cs.getLast? = some '_' then none
  else if (cs.zip (cs.drop 1)).contains ('_', '_') then none
  else
    let plain := cs.filter (· ≠ '_')
    if plain.all (·.toNat < 128) then some plain else none

/-- The digits before a fraction that is zero. -/
def dropZeroFraction? (cs : List Char) : Option (List Char) :=
  match cs.span (· ≠ '.') with
  | (whole, []) => some whole
  | (whole, _ :: fraction) => if fraction.all (· = '0') && !fraction.isEmpty then some whole else none

/-- A whole number, with a sign and with a fraction of zeros if it has any. -/
def wholeOfText (s : String) : Checked Int :=
  let value := do
    let (negative, digits) := Decimal.spanSign (← plainDigits? s)
    let n ← Text.asciiNat? (← dropZeroFraction? digits)
    return (if negative then -(n : Int) else n)
  match value with
  | some n => .good n
  | none => .fault .unreadableInt

/-- A double without a fraction, as a whole number. -/
def wholeOfReal (x : Float) : Checked Int :=
  match Binary64.parts x with
  | .finite .. =>
    match Binary64.roundWhole x with
    | some n => if Binary64.nearest (n < 0) n.natAbs 0 == x then .good n else .fault .fractionalInt
    | none => .fault .infiniteInt
  | _ => .fault .infiniteInt

/-- A whole number as a structured value. -/
def whole : Json → Checked Int
  | .integer n => .good n
  | .bool b => .good (if b then 1 else 0)
  | .real x => wholeOfReal x
  | .text s => wholeOfText s
  | _ => .fault .noInt

/-- The names of the doubles that are not finite. -/
def named? (negative : Bool) (letters : String) : Option Float :=
  if letters = "inf" ∨ letters = "infinity" then some (if negative then -(1.0 / 0.0) else 1.0 / 0.0)
  else if letters = "nan" then some (0.0 / 0.0)
  else none

/-- A double. -/
def realOfText (s : String) : Checked Float :=
  let value := do
    let (negative, body) := Decimal.spanSign (← plainDigits? s)
    match Decimal.finite? negative body with
    | some d => some (Binary64.ofDecimal d)
    | none => named? negative (String.ofList (body.map Char.toLower))
  match value with
  | some x => .good x
  | none => .fault .unreadableFloat

/-- Yes or no, in one of the usual words. -/
def truthOfText (s : String) : Checked Bool :=
  let word := String.ofList (s.toList.map Char.toLower)
  if ["1", "t", "true", "y", "yes", "on"].contains word then .good true
  else if ["0", "f", "false", "n", "no", "off"].contains word then .good false
  else .fault .unreadableBool

/-- Yes or no as a structured value. -/
def truth : Json → Checked Bool
  | .bool b => .good b
  | .text s => truthOfText s
  | .integer n => if n = 1 then .good true else if n = 0 then .good false else .fault .unreadableBool
  | .real x => if x == 1.0 then .good true else if x == 0.0 then .good false else .fault .unreadableBool
  | _ => .fault .noBool

end GoalReconciliation.Input

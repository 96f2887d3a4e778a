import GoalReconciliation.Calendar.Date
import GoalReconciliation.Text.Digit

/-!
# Reading a day

* `Date.ofIso?` : a day as `YYYY-MM-DD` or `YYYYMMDD`, or as the week form `YYYY-Www-D` or `YYYYWwwD`, whose day may
  be left out for the Monday.
* `Date.ofDayMonthYear?` : a day as `DD/MM/YYYY`, one digit allowed for day and month.
-/

namespace GoalReconciliation.Date

set_option autoImplicit false

/-- The number that the first `count` characters write in ASCII digits, and the rest. -/
def takeNumber? (count : Nat) (cs : List Char) : Option (Nat × List Char) :=
  if cs.length < count then none
  else (Text.asciiNat? (cs.take count)).map fun n => (n, cs.drop count)

/-- The characters behind a dash where `dashed` parts are written, else all of them. -/
def skipDash? (dashed : Bool) (cs : List Char) : Option (List Char) :=
  if dashed then (match cs with
    | '-' :: rest => some rest
    | _ => none)
  else some cs

/-- The week and day of an ISO year, behind the letter. -/
def ofIsoWeek? (year : Nat) (dashed : Bool) (cs : List Char) : Option Date := do
  let (week, rest) ← takeNumber? 2 cs
  if rest.isEmpty then ofWeek? year week 1
  else
    let (weekday, _) ← takeNumber? 1 (← skipDash? dashed rest)
    ofWeek? year week weekday

/-- A day in one of the ISO forms, in a text of seven, eight or ten bytes. What follows the day does not count. -/
def ofIso? (s : String) : Option Date := do
  if s.utf8ByteSize ≠ 7 ∧ s.utf8ByteSize ≠ 8 ∧ s.utf8ByteSize ≠ 10 then none
  else
    let (year, rest) ← takeNumber? 4 s.toList
    let dashed := rest.head? == some '-'
    match ← skipDash? dashed rest with
    | 'W' :: rest => ofIsoWeek? year dashed rest
    | rest =>
      let (month, rest) ← takeNumber? 2 rest
      let (day, _) ← takeNumber? 2 (← skipDash? dashed rest)
      ofParts? year month day

/-- One or two digits of a number of at least 1 and at most `most`, followed by a slash; the rest behind it. The
first of two digits is an ASCII one. -/
def takePart? (most : Nat) (cs : List Char) : Option (Nat × List Char) :=
  let value (a b : Char) : Option Nat := do
    let tens ← Text.asciiDigit? a
    let units ← if tens = most / 10 ∨ tens = 0 then Text.asciiDigit? b else Text.digit? b
    let n := 10 * tens + units
    if 1 ≤ n ∧ n ≤ most then some n else none
  match cs with
  | a :: '/' :: rest => (Text.asciiDigit? a).bind fun n => if n = 0 then none else some (n, rest)
  | a :: b :: '/' :: rest => (value a b).map fun n => (n, rest)
  | _ => none

/-- A day as `DD/MM/YYYY`. -/
def ofDayMonthYear? (s : String) : Option Date := do
  let (day, rest) ← takePart? 31 s.toList
  let (month, rest) ← takePart? 12 rest
  if rest.length ≠ 4 then none
  else ofParts? (← Text.nat? rest) month day

end GoalReconciliation.Date

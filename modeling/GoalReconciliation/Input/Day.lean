import GoalReconciliation.Calendar.Reader
import GoalReconciliation.Input.Number

/-!
# Days that clients write

* `Input.day` : a day as a structured value: an ISO day, an instant at midnight, or the number of seconds (or, if that
  is large, of milliseconds) from the start of 1970 to a midnight.
-/

namespace GoalReconciliation.Input

set_option autoImplicit false

/-- The number of the first of January 1970. -/
def epoch : Int := 719163

/-- The greatest number that counts seconds; a greater one counts milliseconds. -/
def secondsLimit : Nat := 20000000000

/-- The day of a midnight, in seconds from the start of 1970; days before 1600 are refused. -/
def dayOfSeconds (seconds : Int) : Checked Date :=
  if seconds < -11676096000 ∨ 253402300799 < seconds then .fault .unreadableDate
  else if seconds % 86400 ≠ 0 then .fault .timedDate
  else
    match Date.ofOrdinal? (epoch + seconds / 86400).toNat with
    | some d => .good d
    | none => .fault .unreadableDate

/-- The day of a number. -/
def dayOfNumber (n : Int) : Checked Date :=
  if n.natAbs ≤ secondsLimit then dayOfSeconds n
  else if n % 1000 = 0 then dayOfSeconds (n / 1000)
  else
    match dayOfSeconds (n / 1000 - n / 1000 % 86400) with
    | .good _ => .fault .timedDate
    | .bad errors => .bad errors

/-- The day of a double. -/
def dayOfReal (x : Float) : Checked Date :=
  match Binary64.parts x with
  | .finite .. =>
    match wholeOfReal x with
    | .good n => dayOfNumber n
    | .bad _ => .fault .timedDate
  | _ => .fault .unreadableDate

/-- A day as `YYYY-MM-DD`. -/
def isoDay? (cs : List Char) : Option Date :=
  if cs.length = 10 ∧ cs[4]? = some '-' ∧ cs[7]? = some '-' then Date.ofIso? (String.ofList cs) else none

/-- A further part of a time behind a colon, less than 60. -/
def sixtieth? (cs : List Char) : Option (Nat × List Char) :=
  match cs with
  | ':' :: rest => (Date.takeNumber? 2 rest).filter (·.1 < 60)
  | _ => none

/-- Digits behind a point or a comma: whether any of the first six is not zero, and the rest. -/
def fraction? (cs : List Char) : Option (Bool × List Char) :=
  match cs with
  | c :: rest =>
    if c = '.' ∨ c = ',' then
      let digits := rest.takeWhile fun c => '0' ≤ c && c ≤ '9'
      if digits.isEmpty then none else some ((digits.take 6).any (· ≠ '0'), rest.drop digits.length)
    else some (false, cs)
  | [] => some (false, [])

/-- The end of an instant: nothing, the letter of universal time, or a signed offset of less than a day. -/
def isOffset (cs : List Char) : Bool :=
  let clock (rest : List Char) : Bool :=
    match Date.takeNumber? 2 rest with
    | some (hours, ':' :: minutes) => hours < 24 && (Date.takeNumber? 2 minutes).any fun m => m.1 < 60 && m.2.isEmpty
    | some (hours, minutes) => hours < 24 && (Date.takeNumber? 2 minutes).any fun m => m.1 < 60 && m.2.isEmpty
    | none => false
  match cs with
  | [] => true
  | ['Z'] => true
  | ['z'] => true
  | '+' :: rest => clock rest
  | '-' :: rest => clock rest
  | _ => false

/-- Whether a time of day is midnight; none if it is no time. -/
def midnight? (cs : List Char) : Option Bool := do
  let (hour, rest) ← Date.takeNumber? 2 cs
  let (minute, rest) ← sixtieth? rest
  let (second, rest) := (sixtieth? rest).getD (0, rest)
  let (part, rest) ← fraction? rest
  if hour < 24 ∧ isOffset rest then some (hour = 0 && minute = 0 && second = 0 && !part) else none

/-- The day of an instant at midnight. -/
def dayOfInstant (s : String) : Checked Date :=
  match isoDay? (s.toList.take 10), s.toList.drop 10 with
  | some d, c :: time =>
    if c = 'T' ∨ c = 't' ∨ c = ' ' ∨ c = '_' then
      match midnight? time with
      | some true => .good d
      | some false => .fault .timedDate
      | none => .fault .unreadableDate
    else .fault .unreadableDate
  | _, _ => .fault .unreadableDate

/-- A number without blanks or underscores. -/
def number? (s : String) : Option Float :=
  if s.toList.all fun c => ('0' ≤ c && c ≤ '9') || c = '+' || c = '-' || c = '.' then
    match realOfText s with
    | .good x => some x
    | .bad _ => none
  else none

/-- A day as a text. -/
def dayOfText (s : String) : Checked Date :=
  match isoDay? s.toList with
  | some d => .good d
  | none =>
    match number? s with
    | some x => dayOfReal x
    | none => dayOfInstant s

/-- A day as a structured value. -/
def day : Json → Checked Date
  | .text s => dayOfText s
  | .integer n => dayOfNumber n
  | .real x => dayOfReal x
  | _ => .fault .noDate

end GoalReconciliation.Input

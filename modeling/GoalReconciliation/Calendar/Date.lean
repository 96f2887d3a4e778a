import GoalReconciliation.Text.Digit

/-!
# Days of the calendar

The Gregorian calendar, extended back to the year 1, up to the year 9999.

* `Date` : a year, month and day that exist.
* `Date.ordinal` : the number of a day, counted from the first day of the year 1.
* `Date.ofOrdinal?` : the day of a number.
* `Date.daysApart` : the distance of two days.
* `Date.ofWeek?` : the day of a week of an ISO year; week 1 holds the year's first Thursday.
* `Date.toText` : the day as `YYYY-MM-DD`.
-/

namespace GoalReconciliation

set_option autoImplicit false

namespace Calendar

/-- A year with a 29th of February. -/
def isLeap (year : Nat) : Bool :=
  year % 4 == 0 && (year % 100 != 0 || year % 400 == 0)

/-- How many days a month has; none if there is no such month. -/
def monthLength (year month : Nat) : Nat :=
  match month with
  | 1 => 31
  | 2 => if isLeap year then 29 else 28
  | 3 => 31
  | 4 => 30
  | 5 => 31
  | 6 => 30
  | 7 => 31
  | 8 => 31
  | 9 => 30
  | 10 => 31
  | 11 => 30
  | 12 => 31
  | _ => 0

/-- The days before the first of January of a year. -/
def daysBeforeYear (year : Nat) : Nat :=
  let past := year - 1
  past * 365 + past / 4 - past / 100 + past / 400

/-- The days of a year before the first of a month. -/
def daysBeforeMonth (year : Nat) : Nat → Nat
  | 0 => 0
  | month + 1 => daysBeforeMonth year month + monthLength year month

/-- The parts of a day that exists. -/
def IsDay (year month day : Nat) : Prop :=
  1 ≤ year ∧ year ≤ 9999 ∧ 1 ≤ day ∧ day ≤ monthLength year month

instance (year month day : Nat) : Decidable (IsDay year month day) :=
  inferInstanceAs (Decidable (_ ∧ _))

end Calendar

/-- A day of the calendar. -/
structure Date where
  year : Nat
  month : Nat
  day : Nat
  isDay : Calendar.IsDay year month day
deriving DecidableEq

namespace Date

open Calendar

/-- The day with these parts, if it exists. -/
def ofParts? (year month day : Nat) : Option Date :=
  if h : IsDay year month day then some ⟨year, month, day, h⟩ else none

/-- The first day of the calendar. -/
def first : Date :=
  ⟨1, 1, 1, by decide⟩

instance : Inhabited Date :=
  ⟨first⟩

/-- The number of a day; the first day has number 1. -/
def ordinal (d : Date) : Nat :=
  daysBeforeYear d.year + daysBeforeMonth d.year d.month + d.day

instance : LE Date :=
  ⟨fun a b => a.ordinal ≤ b.ordinal⟩

instance (a b : Date) : Decidable (a ≤ b) :=
  inferInstanceAs (Decidable (a.ordinal ≤ b.ordinal))

/-- The year, at least `year`, that the day of a number lies in. -/
def yearOf (ordinal : Nat) : Nat → Nat → Nat
  | 0, year => year
  | fuel + 1, year => if ordinal ≤ daysBeforeYear (year + 1) then year else yearOf ordinal fuel (year + 1)

/-- The month, at least `month`, and the day that a number of days within a year makes. -/
def monthDayOf (year : Nat) : Nat → Nat → Nat → Nat × Nat
  | 0, month, day => (month, day)
  | fuel + 1, month, day =>
    if day ≤ monthLength year month then (month, day)
    else monthDayOf year fuel (month + 1) (day - monthLength year month)

/-- The day of a number, if it is in the calendar. No year has more than 366 days, so the search for the year starts
close below it. -/
def ofOrdinal? (ordinal : Nat) : Option Date :=
  if ordinal = 0 then none
  else
    let year := yearOf ordinal 40 ((ordinal - 1) / 366 + 1)
    let (month, day) := monthDayOf year 11 1 (ordinal - daysBeforeYear year)
    ofParts? year month day

/-- The distance of two days. -/
def daysApart (a b : Date) : Nat :=
  (a.ordinal - b.ordinal) + (b.ordinal - a.ordinal)

/-- The day of the week, from Monday as 0 to Sunday as 6. -/
def weekdayOf (ordinal : Nat) : Nat :=
  (ordinal + 6) % 7

/-- The number of the Monday of the first week of an ISO year. -/
def weekOneMonday (year : Nat) : Nat :=
  let january := daysBeforeYear year + 1
  let weekday := weekdayOf january
  if 3 < weekday then january - weekday + 7 else january - weekday

/-- An ISO year with 53 weeks: it starts on a Thursday, or is a leap year that starts on a Wednesday. -/
def hasWeek53 (year : Nat) : Bool :=
  let weekday := weekdayOf (daysBeforeYear year + 1)
  weekday == 3 || (weekday == 2 && isLeap year)

/-- The day of a week of an ISO year, from Monday as 1 to Sunday as 7. -/
def ofWeek? (year week weekday : Nat) : Option Date :=
  if 1 ≤ year ∧ 1 ≤ week ∧ (week ≤ 52 ∨ (week = 53 ∧ hasWeek53 year = true)) ∧ 1 ≤ weekday ∧ weekday ≤ 7 then
    ofOrdinal? (weekOneMonday year + (week - 1) * 7 + (weekday - 1))
  else none

/-- The day as `YYYY-MM-DD`. -/
def toText (d : Date) : String :=
  Text.padded 4 d.year ++ "-" ++ Text.padded 2 d.month ++ "-" ++ Text.padded 2 d.day

/-- The earlier of two days, the first one of two equals. -/
def earlier (a b : Date) : Date :=
  if a ≤ b then a else b

/-- The earliest of a list of days. -/
def earliest? : List Date → Option Date
  | [] => none
  | d :: rest => some (rest.foldl earlier d)

end Date

end GoalReconciliation

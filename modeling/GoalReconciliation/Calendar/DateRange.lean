import GoalReconciliation.Calendar.Date

/-!
# Ranges of days

* `DateRange` : the days from a first to a last one, both included; the first is not after the last.
* `DateRange.contains` : a day of the range.
-/

namespace GoalReconciliation

set_option autoImplicit false

/-- The days from `first` to `last`. -/
structure DateRange where
  first : Date
  last : Date
  ordered : first ≤ last
deriving DecidableEq

namespace DateRange

/-- The range between two days, if they are in order. -/
def ofDates? (first last : Date) : Option DateRange :=
  if h : first ≤ last then some ⟨first, last, h⟩ else none

/-- A day of the range. -/
def contains (range : DateRange) (d : Date) : Bool :=
  range.first ≤ d && d ≤ range.last

/-- A day of an optional range; without one, every day. -/
def admits (range : Option DateRange) (d : Date) : Bool :=
  range.all (·.contains d)

end DateRange

end GoalReconciliation

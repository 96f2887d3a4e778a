import GoalReconciliation.Calendar.Date

/-!
# Orders of listings

* `Sorting.atMost` : the order of texts, by the code points of their characters.
* `Sorting.byText` : items by a text of theirs, ascending.
* `Sorting.newestFirst` : items by day descending, and by a text ascending where the days agree.
-/

namespace GoalReconciliation.Sorting

set_option autoImplicit false

variable {α : Type}

/-- A text that does not come after another. -/
def atMost (a b : String) : Bool :=
  !decide (b < a)

/-- The items by a text of theirs, ascending. -/
def byText (key : α → String) (items : List α) : List α :=
  items.mergeSort fun a b => atMost (key a) (key b)

/-- The texts ascending. -/
def ascending (texts : List String) : List String :=
  byText id texts

/-- The newer day comes first; on one day, the smaller text. -/
def isBefore (date : α → Date) (key : α → String) (a b : α) : Bool :=
  if date a = date b then atMost (key a) (key b) else decide (date b ≤ date a)

/-- The items by day descending, then by a text ascending. -/
def newestFirst (date : α → Date) (key : α → String) (items : List α) : List α :=
  items.mergeSort (isBefore date key)

end GoalReconciliation.Sorting

/-!
# Slices of a list

A position below zero counts from the end of the list.

* `Slice.position` : where a position falls in a list of some length.
* `Slice.upTo`, `Slice.between` : the items before a position, and from one position up to another.
-/

namespace GoalReconciliation.Slice

set_option autoImplicit false

/-- Where a position falls in a list of `length` items. -/
def position (length : Nat) (place : Int) : Nat :=
  min length (if place < 0 then (place + length).toNat else place.toNat)

/-- The items before a position. -/
def upTo {α : Type} (stop : Int) (items : List α) : List α :=
  items.take (position items.length stop)

/-- The items from a position up to another. -/
def between {α : Type} (start stop : Int) (items : List α) : List α :=
  (upTo stop items).drop (position items.length start)

end GoalReconciliation.Slice

import GoalReconciliation.Binary64.Basic
import GoalReconciliation.Decimal.Reader
import GoalReconciliation.Store.Row

/-!
# What columns keep

* `Columns` : what comes back of a value that a column has stored.
* `Columns.faithful` : every value as it was.
* `Columns.measured` : amounts as doubles, read back with a fixed number of places, and instants without an offset.
* `BankRow.stored`, `PostingRow.stored` : what comes back of a row.
-/

namespace GoalReconciliation

set_option autoImplicit false

/-- What comes back of a stored value. -/
structure Columns where
  amount : Decimal → Decimal
  /-- An amount that may be missing. -/
  amount? : Decimal → Option Decimal
  units : Decimal → Decimal
  instant : Timestamp → Timestamp

namespace Columns

/-- Every value comes back as it was. -/
def faithful : Columns where
  amount := id
  amount? := some
  units := id
  instant := id

/-- An amount through the nearest double, with a fixed number of places. A zero loses its sign. -/
def throughDouble (places : Nat) (amount : Decimal) : Decimal :=
  if amount.isZero then .finite false 0 (-(places : Int))
  else (Decimal.ofText? (Binary64.fixedText places (Binary64.ofDecimal amount))).getD amount

/-- Amounts with two places, units with four, instants without an offset. What is no number is not kept where an amount
may be missing. -/
def measured : Columns where
  amount := throughDouble 2
  amount? amount := if amount.isNaN then none else some (throughDouble 2 amount)
  units := throughDouble 4
  instant := Timestamp.withoutOffset

end Columns

/-- What comes back of the review columns. -/
def ReviewColumns.stored (c : Columns) (columns : ReviewColumns) : ReviewColumns :=
  { columns with
    reviewedAt := columns.reviewedAt.map c.instant
    resolvedAt := columns.resolvedAt.map c.instant }

/-- What comes back of a row. -/
def BankRow.stored (c : Columns) (row : BankRow) : BankRow :=
  { row with
    amount := c.amount row.amount
    moneyMarket := row.moneyMarket.bind c.amount?
    bond := row.bond.bind c.amount?
    dollarEquity := row.dollarEquity.bind c.amount?
    regionalEquity := row.regionalEquity.bind c.amount?
    createdAt := row.createdAt.map c.instant
    matchedAt := row.matchedAt.map c.instant
    linkedAt := row.linkedAt.map c.instant
    review := row.review.stored c }

/-- What comes back of a row. -/
def PostingRow.stored (c : Columns) (row : PostingRow) : PostingRow :=
  { row with
    amount := c.amount row.amount
    units := row.units.map c.units
    review := row.review.stored c }

end GoalReconciliation

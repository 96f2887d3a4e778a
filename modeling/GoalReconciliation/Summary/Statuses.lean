import GoalReconciliation.Assoc
import GoalReconciliation.Binary64.Basic
import GoalReconciliation.Run.Counts
import GoalReconciliation.Store.Procedure

/-!
# Counts of bank records

* `StatusCounts` : bank records by status, by review and by tag.
* `StatusCounts.rate` : the share of matched records in percent, to two places.
-/

namespace GoalReconciliation

set_option autoImplicit false

/-- Bank records by status, review and tag. -/
structure StatusCounts where
  goal : Option String
  total : Nat
  matched : Nat
  reviewed : Nat
  byStatus : Counts
  byTag : Counts
deriving DecidableEq

namespace StatusCounts

/-- The counts of some records. -/
def ofRecords (goal : Option String) (records : List BankRecord) : StatusCounts where
  goal := goal
  total := records.length
  matched := records.countP BankRecord.isMatched
  reviewed := records.countP (·.review.isReviewed)
  byStatus := Assoc.tally (records.map (·.status.name))
  byTag := Assoc.tally (records.filterMap fun r => r.review.tag.map ReviewTag.name)

/-- The share of matched records in percent, to two places. -/
def rate (c : StatusCounts) : Float :=
  if c.total = 0 then 0.0
  else Binary64.roundPlaces 2 (Float.ofNat c.matched / Float.ofNat c.total * 100.0)

/-- The counts of a goal, or of all, in an optional range of days. -/
def ofStore (goal : Option String) (range : Option DateRange) : Procedure StatusCounts := do
  return ofRecords goal (← Procedure.bankRecords goal range)

def toJson (c : StatusCounts) : Json :=
  .object
    [("goal_id", Json.ofText? c.goal), ("total", Json.ofNat c.total), ("matched", Json.ofNat c.matched),
      ("reconciliation_rate", .real c.rate), ("by_status", c.byStatus.toJson),
      ("by_review_state", .object
        [("reviewed", Json.ofNat c.reviewed), ("pending", Json.ofNat (c.total - c.reviewed))]),
      ("by_review_tag", c.byTag.toJson)]

end StatusCounts

end GoalReconciliation

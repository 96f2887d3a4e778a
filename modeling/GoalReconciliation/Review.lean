import GoalReconciliation.Calendar.Timestamp
import GoalReconciliation.Json.Basic
import GoalReconciliation.Vocabulary

/-!
# Review marks

* `Review` : an operator's tag on a record, and how the tagged variance was resolved.
* `Review.retag` : a new review; the same tag keeps its resolution, another one starts unresolved.
* `Review.resolve` : the variance resolved by a sweep.
-/

namespace GoalReconciliation

set_option autoImplicit false

/-- The review marks of a bank record or a posting. -/
structure Review where
  tag : Option ReviewTag := none
  notes : Option String := none
  reviewer : Option String := none
  reviewedAt : Option Timestamp := none
  resolved : Bool := false
  resolvedAt : Option Timestamp := none
  reason : Option String := none
  batchId : Option String := none
deriving DecidableEq

namespace Review

/-- Some operator has tagged the record. -/
def isReviewed (r : Review) : Bool :=
  r.tag.isSome

/-- A review with a tag. The tag that the record has already keeps its resolution. -/
def retag (r : Review) (tag : Option ReviewTag) (notes : Option String) (reviewer : String) (now : Timestamp) :
    Review :=
  if tag = r.tag then { r with notes := notes, reviewer := some reviewer, reviewedAt := some now }
  else { tag := tag, notes := notes, reviewer := some reviewer, reviewedAt := some now }

/-- The tagged variance resolved, for a reason and by a sweep. -/
def resolve (r : Review) (reason batchId : String) (now : Timestamp) : Review :=
  { r with resolved := true, resolvedAt := some now, reason := some reason, batchId := some batchId }

end Review

/-- An instant as a value, or null. -/
def Timestamp.toJson? (t : Option Timestamp) : Json :=
  Json.ofText? (t.map Timestamp.toText)

/-- The review marks as a value. -/
def Review.toJson (r : Review) : Json :=
  .object
    [("review_tag", Json.ofText? (r.tag.map ReviewTag.name)), ("review_notes", Json.ofText? r.notes),
      ("reviewed_by", Json.ofText? r.reviewer), ("reviewed_at", Timestamp.toJson? r.reviewedAt),
      ("variance_resolved", .bool r.resolved), ("resolved_at", Timestamp.toJson? r.resolvedAt),
      ("resolved_reason", Json.ofText? r.reason), ("resolved_by_batch_id", Json.ofText? r.batchId)]

end GoalReconciliation

import GoalReconciliation.Group
import GoalReconciliation.Natural
import GoalReconciliation.Run.Result
import GoalReconciliation.Store.Procedure

/-!
# Reports on resolved variances

* `TagStats`, `resolutionStats` : how many records with a tag are resolved and pending, and these for every tag that a
  sweep can clear.
* `ResolvedRow` : one resolved record or group, with the reason and the sweep that resolved it.
* `ResolvedRow.report` : all of them, the latest first.
-/

namespace GoalReconciliation

set_option autoImplicit false

/-- How many records are resolved, and how many pending. -/
structure TagStats where
  tag : ReviewTag
  resolved : Nat
  pending : Nat
deriving DecidableEq

namespace TagStats

/-- The counts under their names. -/
def toJson (s : TagStats) : Json :=
  .object
    [("total", Json.ofNat (s.resolved + s.pending)), ("resolved", Json.ofNat s.resolved),
      ("pending", Json.ofNat s.pending)]

/-- How many bank records and groups have a tag, resolved or not. -/
def count (tag : ReviewTag) (resolved : Bool) (range : Option DateRange) : Procedure Nat := do
  let records ← Procedure.taggedBankCount ⟨[tag], resolved, range, none⟩
  let groups ← Procedure.taggedKeyCount ⟨[tag], resolved, range, none⟩
  return records + groups

/-- The counts of a tag. -/
def ofTag (range : Option DateRange) (tag : ReviewTag) : Procedure TagStats := do
  let resolved ← count tag true range
  let pending ← count tag false range
  return ⟨tag, resolved, pending⟩

end TagStats

/-- The counts of every tag that a sweep can clear. -/
def resolutionStats (range : Option DateRange) : Procedure (List TagStats) :=
  Procedure.inOrder (ReviewTag.autoResolvable.map (TagStats.ofTag range))

/-- The counts per tag and in all. -/
def statsToJson (stats : List TagStats) : Json :=
  let resolved := Natural.total (stats.map TagStats.resolved)
  let pending := Natural.total (stats.map TagStats.pending)
  .object
    [("total_tagged", Json.ofNat (resolved + pending)), ("resolved", Json.ofNat resolved),
      ("pending", Json.ofNat pending), ("by_tag", .object (stats.map fun s => (s.tag.name, s.toJson)))]

/-- One resolved record or group. -/
structure ResolvedRow where
  recordId : String
  side : Side
  goal : String
  sourceId : String
  date : Date
  amount : Decimal
  review : Review
deriving DecidableEq

namespace ResolvedRow

def ofRecord (r : BankRecord) : ResolvedRow :=
  ⟨r.id, .bank, r.goalId, r.sourceId, r.date, r.amount, r.review⟩

/-- A goal that is asked for; an empty name asks for every goal. -/
def isWanted (goal : Option String) (id : String) : Bool :=
  (goal.filter (· ≠ "")).all (· = id)

/-- The row of a group: its first resolved posting stands for it, with the amount of all its postings. None if no
posting is resolved, or another goal is asked for. -/
def ofGroup (tags : List ReviewTag) (goal : Option String) (key : String) (postings : List Posting) :
    Except Failure (Option ResolvedRow) :=
  match postings.find? fun p => p.review.resolved && p.review.tag.any (tags.contains ·) with
  | none => .ok none
  | some first =>
    if isWanted goal first.goalId then do
      let amount ← Decimal.sum (postings.map Posting.amount)
      return some ⟨key, .ledger, first.goalId, first.sourceId, first.date, amount, first.review⟩
    else .ok none

/-- The text of the instant of resolution, empty if there is none. -/
def resolvedText (row : ResolvedRow) : String :=
  (row.review.resolvedAt.map Timestamp.toText).getD ""

/-- The rows by the text of their instants, descending; equal ones keep their order. -/
def latestFirst (rows : List ResolvedRow) : List ResolvedRow :=
  rows.mergeSort fun a b => !decide (a.resolvedText < b.resolvedText)

/-- The rows of all resolved records and groups with a tag, or with any that a sweep can clear. -/
def report (range : Option DateRange) (goal : Option String) (tag : Option ReviewTag) :
    Procedure (List ResolvedRow) := do
  let tags := (tag.map ([·])).getD ReviewTag.autoResolvable
  let filter : TagFilter := ⟨tags, true, range, none⟩
  let records ← Procedure.taggedBank filter none
  let keys ← Procedure.taggedKeys filter none
  let groups ← (Group.gather (← Procedure.postingsByKey keys) : Except Problem (List (String × List Posting)))
  let rows ← (keys.filterMapM fun key => ofGroup tags goal key ((Assoc.get? key groups).getD []) :
    Except Failure (List ResolvedRow))
  return latestFirst ((records.filter fun r => isWanted goal r.goalId).map ofRecord ++ rows)

def toJson (row : ResolvedRow) : Json :=
  .object
    [("record_id", .text row.recordId), ("source", .text row.side.name), ("goal_id", .text row.goal),
      ("source_transaction_id", .text row.sourceId), ("transaction_date", .text row.date.toText),
      ("amount", .text row.amount.toText), ("original_tag", Json.ofText? (row.review.tag.map ReviewTag.name)),
      ("resolved_at", Timestamp.toJson? row.review.resolvedAt),
      ("resolved_reason", Json.ofText? row.review.reason),
      ("resolved_by_batch_id", Json.ofText? row.review.batchId)]

end ResolvedRow

end GoalReconciliation

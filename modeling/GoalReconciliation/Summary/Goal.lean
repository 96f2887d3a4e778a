import GoalReconciliation.Run.Admission
import GoalReconciliation.Store.Procedure

/-!
# The summary of a goal

* `Direction` : money in or money out. `Flows` : the money of each direction.
* `DirectionSummary` : one direction's totals on both sides, and whether they differ by more than the allowance.
* `ReviewProgress` : how many records and groups without a counterpart of their source id and type have been tagged.
* `GoalSummary` : both directions and the progress, `GoalSummary.ofGoal` of a goal in a range of days.
-/

namespace GoalReconciliation

set_option autoImplicit false

/-- Money in or money out. -/
inductive Direction where
  | deposits
  | withdrawals
deriving DecidableEq

namespace Direction

def all : List Direction :=
  [deposits, withdrawals]

def name : Direction → String
  | deposits => "deposits"
  | withdrawals => "withdrawals"

/-- Whatever is no deposit goes out. -/
def ofType (transactionType : Listed TransactionType) : Direction :=
  if transactionType = .known .deposit then deposits else withdrawals

end Direction

/-- The money that went in, and the money that went out. -/
structure Flows where
  deposits : Decimal := Decimal.zero
  withdrawals : Decimal := Decimal.zero
deriving DecidableEq

namespace Flows

/-- The money of one direction. -/
def amount (flows : Flows) : Direction → Decimal
  | .deposits => flows.deposits
  | .withdrawals => flows.withdrawals

/-- The size of an amount added to the direction of its type. -/
def addSize (flows : Flows) (entry : Listed TransactionType × Decimal) : Except Decimal.Fault Flows := do
  let size ← entry.2.abs
  match Direction.ofType entry.1 with
  | .deposits => return { flows with deposits := ← flows.deposits.add size }
  | .withdrawals => return { flows with withdrawals := ← flows.withdrawals.add size }

/-- The sizes of amounts, summed up per direction. -/
def ofAmounts (entries : List (Listed TransactionType × Decimal)) : Except Decimal.Fault Flows :=
  entries.foldlM addSize {}

end Flows

/-- One direction's totals and counts on both sides. -/
structure DirectionSummary where
  direction : Direction
  bankTotal : Decimal
  ledgerTotal : Decimal
  bankCount : Nat
  ledgerCount : Nat
  difference : Decimal
  varies : Bool
deriving DecidableEq

namespace DirectionSummary

/-- The first posting of each group. -/
def firstOfGroups (postings : List Posting) : List Posting :=
  (Assoc.gather Posting.groupKey postings).filterMap (·.2.head?)

/-- One direction's totals and counts, with the ledger total as the reference. -/
def ofFlows (t : Tolerance) (records : List BankRecord) (postings : List Posting) (bank ledger : Flows)
    (direction : Direction) : Except Decimal.Fault DirectionSummary := do
  let bankTotal := bank.amount direction
  let ledgerTotal := ledger.amount direction
  let difference ← bankTotal.sub ledgerTotal
  let agrees ← t.amountsMatch bankTotal ledgerTotal
  return {
    direction := direction
    bankTotal := bankTotal
    ledgerTotal := ledgerTotal
    bankCount := records.countP fun r => Direction.ofType r.transactionType = direction
    ledgerCount := (firstOfGroups postings).countP fun p => Direction.ofType p.transactionType = direction
    difference := difference
    varies := !agrees }

/-- Both directions' totals and counts. -/
def both (t : Tolerance) (records : List BankRecord) (postings : List Posting) :
    Except Decimal.Fault (List DirectionSummary) := do
  let bank ← Flows.ofAmounts (records.map fun r => (r.transactionType, r.amount))
  let ledger ← Flows.ofAmounts (postings.map fun p => (p.transactionType, p.amount))
  Direction.all.mapM (ofFlows t records postings bank ledger)

end DirectionSummary

/-- How many records and groups without a counterpart have been tagged, and how many not. -/
structure ReviewProgress where
  reviewed : Nat
  unreviewed : Nat
deriving DecidableEq

namespace ReviewProgress

/-- Whether each record and each group without a counterpart is tagged: a group is as soon as one of its postings
without a counterpart is. -/
def marks (records : List BankRecord) (postings : List Posting) : List Bool :=
  let ledgerSources := postings.map fun p => (p.sourceId, p.transactionType)
  let bankSources := records.map fun r => (r.sourceId, r.transactionType)
  let alone := records.filter fun r => !ledgerSources.contains (r.sourceId, r.transactionType)
  let unmatched := postings.filter fun p => !bankSources.contains (p.sourceId, p.transactionType)
  let groups := Assoc.gather Posting.groupKey unmatched
  alone.map (·.review.isReviewed) ++ groups.map fun (_, members) => members.any (·.review.isReviewed)

def ofRecords (records : List BankRecord) (postings : List Posting) : ReviewProgress :=
  let marks := marks records postings
  ⟨marks.count true, marks.count false⟩

/-- What the progress amounts to, where totals differ. -/
def status (p : ReviewProgress) (varies : Bool) : String :=
  if !varies || p.reviewed + p.unreviewed = 0 then "NOT_APPLICABLE"
  else if p.unreviewed = 0 then "REVIEWED"
  else if 0 < p.reviewed then "PARTIALLY_REVIEWED"
  else "UNREVIEWED"

end ReviewProgress

/-- The summary of a goal in a range of days. -/
structure GoalSummary where
  goal : String
  range : DateRange
  directions : List DirectionSummary
  progress : ReviewProgress
deriving DecidableEq

namespace GoalSummary

/-- Some direction's totals differ. -/
def varies (s : GoalSummary) : Bool :=
  s.directions.any (·.varies)

/-- The summary of a goal in a range of days. -/
def ofGoal (t : Tolerance) (goal : String) (range : DateRange) : Procedure GoalSummary := do
  let records ← Procedure.bankRecords (some goal) (some range)
  let postings := Admission.onChannel t (← Procedure.postings (some goal) (some range))
  let directions ← (DirectionSummary.both t records postings : Except Decimal.Fault (List DirectionSummary))
  return ⟨goal, range, directions, ReviewProgress.ofRecords records postings⟩

/-- A value for each direction. -/
def perDirection (s : GoalSummary) (value : DirectionSummary → Json) : Json :=
  .object (s.directions.map fun d => (d.direction.name, value d))

def toJson (s : GoalSummary) : Json :=
  .object
    [("goal_id", .text s.goal), ("date_range", s.range.toJson),
      ("bank", s.perDirection fun d => .text d.bankTotal.toText),
      ("ledger", s.perDirection fun d => .text d.ledgerTotal.toText),
      ("counts", .object
        [("bank", s.perDirection fun d => Json.ofNat d.bankCount),
          ("ledger", s.perDirection fun d => Json.ofNat d.ledgerCount)]),
      ("variances", s.perDirection fun d =>
        .object [("difference", .text d.difference.toText), ("has_variance", .bool d.varies)]),
      ("status", .text (if s.varies then "VARIANCE" else "MATCHED")), ("has_variance", .bool s.varies),
      ("review_status", .text (s.progress.status s.varies)), ("reviewed_count", Json.ofNat s.progress.reviewed),
      ("unreviewed_count", Json.ofNat s.progress.unreviewed)]

end GoalSummary

end GoalReconciliation

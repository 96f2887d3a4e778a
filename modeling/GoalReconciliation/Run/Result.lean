import GoalReconciliation.Assoc
import GoalReconciliation.Audit
import GoalReconciliation.Matching.Match
import GoalReconciliation.Variance

/-!
# What a run found

* `RecordError` : a failure that concerns one record, group or goal.
* `ReconciledMatch`, `Unmatched` : a match with its variances and status; a record or group that nothing matched.
* `RunResult` : all of a run for one goal, and `RunResult.counts` its counts.
-/

namespace GoalReconciliation

set_option autoImplicit false

/-- The identifier of what nobody has named. -/
def nilId : String :=
  "00000000-0000-0000-0000-000000000000"

/-- A failure that concerns one record, group or goal. -/
structure RecordError where
  recordId : String
  message : String
  kind : String
deriving DecidableEq

def RecordError.toJson (e : RecordError) : Json :=
  .object [("record_id", .text e.recordId), ("message", .text e.message), ("error_type", .text e.kind)]

/-- A match with its variances, its status and its score. -/
structure ReconciledMatch where
  pairing : Match
  variances : List Variance
  decision : StatusDecision
  score : Nat

namespace ReconciledMatch

/-- A match of these records and groups, judged by their variances. -/
def judge (t : Tolerance) (pairing : Match) (records : List BankRecord) (groups : List Group) :
    Except Decimal.Fault ReconciledMatch := do
  let variances ← Variance.classify t records groups
  return {
    pairing := pairing
    variances := variances
    decision := Variance.decide variances
    score := Severity.score (variances.map Variance.severity) }

def toJson (m : ReconciledMatch) : Json :=
  .object
    (m.pairing.fields ++
      [("variances", .list (m.variances.map Variance.toJson)), ("status", .text m.decision.status.name),
        ("auto_approved", .bool m.decision.autoApproved), ("score", Json.ofNat m.score)])

end ReconciledMatch

/-- A bank record or a group that nothing matched. -/
structure Unmatched where
  recordId : String
  side : Side
  status : Status
  variance : Variance
deriving DecidableEq

namespace Unmatched

def ofRecord (r : BankRecord) : Unmatched :=
  ⟨r.id, .bank, .missingInLedger, Variance.missingInLedger r⟩

def ofGroup (g : Group) : Unmatched :=
  ⟨g.key, .ledger, .missingInBank, Variance.missingInBank g⟩

def toJson (u : Unmatched) : Json :=
  .object
    [("record_id", .text u.recordId), ("source", .text u.side.name), ("status", .text u.status.name),
      ("variance", u.variance.toJson)]

end Unmatched

/-- All that a run for one goal found. -/
structure RunResult where
  goal : String
  range : DateRange
  found : List ReconciledMatch
  unmatchedBank : List Unmatched
  unmatchedGroups : List Unmatched
  reversalPairs : List (String × String)
  errors : List RecordError
  persisted : Nat := 0

namespace RunResult

/-- The counts of a run. -/
def counts (r : RunResult) : RunCounts :=
  let unmatched := r.unmatchedBank ++ r.unmatchedGroups
  let statuses := r.found.map (·.decision.status) ++ unmatched.map (·.status)
  let severities := r.found.flatMap (·.variances.map Variance.severity) ++ unmatched.map (·.variance.severity)
  { matched := r.found.length
    unmatchedBank := r.unmatchedBank.length
    unmatchedGroups := r.unmatchedGroups.length
    autoApproved := r.found.countP (·.decision.autoApproved)
    manualReview := statuses.count .manualReview
    byStatus := Assoc.tally (statuses.map Status.name)
    bySeverity := Assoc.tally (severities.map Severity.name)
    byMatchType := Assoc.tally (r.found.map (·.pairing.matchType.name))
    errors := r.errors.length }

def toJson (r : RunResult) : Json :=
  .object
    [("run_id", .text nilId), ("goal_id", .text r.goal), ("date_range", r.range.toJson),
      ("summary", .object r.counts.fields), ("matches", .list (r.found.map ReconciledMatch.toJson)),
      ("unmatched_bank", .list (r.unmatchedBank.map Unmatched.toJson)),
      ("unmatched_groups", .list (r.unmatchedGroups.map Unmatched.toJson)),
      ("reversal_pairs", .list (r.reversalPairs.map fun (a, b) => Json.texts [a, b])),
      ("errors", .list (r.errors.map RecordError.toJson)), ("persisted", Json.ofNat r.persisted)]

end RunResult

end GoalReconciliation

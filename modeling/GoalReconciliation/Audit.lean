import GoalReconciliation.Calendar.DateRange
import GoalReconciliation.Decimal.Printer
import GoalReconciliation.Run.Counts
import GoalReconciliation.Vocabulary

/-!
# The audit trail

* `AuditAction` : what happened, with its details.
* `AuditEvent` : an action, the goal it belongs to if it belongs to one, and who caused it.
-/

namespace GoalReconciliation

set_option autoImplicit false

/-- The range as a value. -/
def DateRange.toJson (range : DateRange) : Json :=
  .object [("start", .text range.first.toText), ("end", .text range.last.toText)]

/-- What happened. -/
inductive AuditAction where
  | runStarted (runId : String) (range : DateRange) (persist : Bool)
  | runCompleted (runId : String) (counts : RunCounts) (persisted : Nat)
  | batchCompleted (offset : Int) (processed failed : Nat) (hasMore : Bool)
  | manualMatchCreated (bankIds groupKeys : List String) (bankTotal groupTotal : Decimal)
  | manualMatchRemoved (bankIds groupKeys cleared : List String)
  | reversalLinked (bankIds : List String) (net : Decimal)
  | reversalUnlinked (bankIds : List String)
  | reviewApplied (tag : Option ReviewTag) (bankIds groupKeys : List String)
  | sweepCompleted (batchId : String) (resolved processed failed remaining : Nat)
deriving DecidableEq

namespace AuditAction

def name : AuditAction → String
  | runStarted .. => "reconciliation.run_started"
  | runCompleted .. => "reconciliation.run_completed"
  | batchCompleted .. => "reconciliation.batch_completed"
  | manualMatchCreated .. => "reconciliation.manual_match_created"
  | manualMatchRemoved .. => "reconciliation.manual_match_removed"
  | reversalLinked .. => "reconciliation.reversal_linked"
  | reversalUnlinked _ => "reconciliation.reversal_unlinked"
  | reviewApplied .. => "reconciliation.review_applied"
  | sweepCompleted .. => "reconciliation.sweep_completed"

/-- The details of an action as a value. -/
def details : AuditAction → Json
  | runStarted runId range persist =>
    .object [("run_id", .text runId), ("date_range", range.toJson), ("persist", .bool persist)]
  | runCompleted runId counts persisted =>
    .object ((("run_id", .text runId) :: counts.fields) ++ [("persisted", Json.ofNat persisted)])
  | batchCompleted offset processed failed hasMore =>
    .object
      [("offset", .integer offset), ("processed_goals", Json.ofNat processed), ("failed_goals", Json.ofNat failed),
        ("has_more", .bool hasMore)]
  | manualMatchCreated bankIds groupKeys bankTotal groupTotal =>
    .object
      [("bank_ids", Json.texts bankIds), ("group_keys", Json.texts groupKeys),
        ("bank_total", .text bankTotal.toText), ("group_total", .text groupTotal.toText)]
  | manualMatchRemoved bankIds groupKeys cleared =>
    .object
      [("bank_ids", Json.texts bankIds), ("group_keys", Json.texts groupKeys), ("cleared", Json.texts cleared)]
  | reversalLinked bankIds net => .object [("bank_ids", Json.texts bankIds), ("net", .text net.toText)]
  | reversalUnlinked bankIds => .object [("bank_ids", Json.texts bankIds)]
  | reviewApplied tag bankIds groupKeys =>
    .object
      [("tag", Json.ofText? (tag.map ReviewTag.name)), ("bank_ids", Json.texts bankIds),
        ("group_keys", Json.texts groupKeys)]
  | sweepCompleted batchId resolved processed failed remaining =>
    .object
      [("batch_id", .text batchId), ("resolved", Json.ofNat resolved), ("processed", Json.ofNat processed),
        ("failed", Json.ofNat failed), ("remaining", Json.ofNat remaining)]

end AuditAction

/-- An entry of the audit trail. -/
structure AuditEvent where
  action : AuditAction
  goal : Option String
  actor : String
deriving DecidableEq

/-- The entry as a value. -/
def AuditEvent.toJson (e : AuditEvent) : Json :=
  .object
    [("event", .text e.action.name), ("goal_id", Json.ofText? e.goal), ("details", e.action.details),
      ("actor", .text e.actor)]

end GoalReconciliation

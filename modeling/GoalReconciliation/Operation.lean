import GoalReconciliation.ManualMatch
import GoalReconciliation.Resolution.Report
import GoalReconciliation.Resolution.Sweep
import GoalReconciliation.Reversal
import GoalReconciliation.Run.Batch
import GoalReconciliation.Summary.Goal
import GoalReconciliation.Summary.Instruments
import GoalReconciliation.Summary.Statuses

/-!
# The operations

* `Operation` : everything that can be done with a store: runs, tags, operators' matches, reversal pairs, sweeps,
  reports, and the single steps on the store itself.
* `Operation.procedure` : what an operation asks of the store, and its result as a value.
-/

namespace GoalReconciliation

set_option autoImplicit false

/-- What can be done with a store. -/
inductive Operation where
  | matchGoal (goal : String) (range : DateRange) (tolerance : Option Tolerance) (persistent : Bool) (actor : String)
  | matchBatch (range : DateRange) (chunk : BatchResult.Chunk) (actor : String)
  | tagRecords (tagging : Tagging)
  | createMatch (bankIds groupKeys : List String) (actor : String)
  | removeMatches (bankIds groupKeys : List String) (actor : String)
  | reversalCandidates (id : String) (range : Option DateRange)
  | linkReversal (idA idB actor : String)
  | unlinkReversal (id actor : String)
  | reversalPartner (id : String)
  | sweep (sweep : Sweep)
  | resolutionStats (range : Option DateRange)
  | resolvedReport (range : Option DateRange) (goal : Option String) (tag : Option ReviewTag)
  | goalSummary (goal : String) (range : DateRange)
  | instrumentSummary (goal : String) (range : DateRange)
  | statusCounts (goal : Option String) (range : Option DateRange)
  | bankIds (goal : Option String) (range : Option DateRange)
  | postingIds (goal : Option String) (range : Option DateRange)
  | bankById (ids : List String)
  | postingsByKey (keys : List String)
  | manualMatchIds (goal : Option String)
  | holderIds (key : String)
  | goalIds (range : Option DateRange)
  | taggedBank (filter : TagFilter) (limit : Option Int)
  | taggedKeys (filter : TagFilter) (limit : Option Int)
  | save (writes : List Write)

namespace Operation

/-- A record's value, or the failure that it has none. -/
def needJson (value : Option Json) : Except Failure Json :=
  match value with
  | some value => .ok value
  | none => .error .unnamed

/-- The ids of records. -/
def idsOf (records : List BankRecord) : Json :=
  Json.texts (records.map BankRecord.id)

/-- The procedure of an operation, under a tolerance and at an instant. -/
def procedure (t : Tolerance) (now : Timestamp) : Operation → Procedure Json
  | .matchGoal goal range tolerance persistent actor => do
    return (← RunResult.ofGoal (tolerance.getD t) now goal range persistent actor).toJson
  | .matchBatch range chunk actor => do
    return (← BatchResult.ofChunk t now range chunk actor).toJson
  | .tagRecords tagging => do
    return (← tagging.apply now).toJson
  | .createMatch ids keys actor => do
    return (← ManualMatch.create t now ids keys actor).toJson
  | .removeMatches ids keys actor => do
    return Json.texts (← ManualMatch.remove ids keys actor)
  | .reversalCandidates id range => do
    return idsOf (← Reversal.candidates id range)
  | .linkReversal idA idB actor => do
    return (← Reversal.link t now idA idB actor).toJson
  | .unlinkReversal id actor => do
    return Json.texts (← Reversal.unlink id actor)
  | .reversalPartner id => do
    return Json.ofText? ((← Reversal.partner id).map BankRecord.id)
  | .sweep s => do
    return (← s.run t now).toJson
  | .resolutionStats range => do
    return statsToJson (← GoalReconciliation.resolutionStats range)
  | .resolvedReport range goal tag => do
    return .list ((← ResolvedRow.report range goal tag).map ResolvedRow.toJson)
  | .goalSummary goal range => do
    return (← GoalSummary.ofGoal t goal range).toJson
  | .instrumentSummary goal range => do
    return InstrumentSummary.report goal range (← InstrumentSummary.ofGoal t goal range)
  | .statusCounts goal range => do
    return (← StatusCounts.ofStore goal range).toJson
  | .bankIds goal range => do
    return idsOf (← Procedure.bankRecords goal range)
  | .postingIds goal range => do
    return Json.texts ((← Procedure.postings goal range).map Posting.id)
  | .bankById ids => do
    let records ← Procedure.bankById ids
    let values ← (records.mapM fun r => needJson r.toJson? : Except Failure (List Json))
    return .object ((records.map BankRecord.id).zip values)
  | .postingsByKey keys => do
    let postings ← Procedure.postingsByKey keys
    return .list (← (postings.mapM fun p => needJson p.toJson? : Except Failure (List Json)))
  | .manualMatchIds goal => do
    return idsOf (← Procedure.manualMatches goal)
  | .holderIds key => do
    return idsOf (← ManualMatch.holding key)
  | .goalIds range => do
    return Json.texts (← Procedure.goalIds range)
  | .taggedBank filter limit => do
    let records ← Procedure.taggedBank filter limit
    return .object [("ids", idsOf records), ("count", Json.ofNat (← Procedure.taggedBankCount filter))]
  | .taggedKeys filter limit => do
    let keys ← Procedure.taggedKeys filter limit
    return .object [("keys", Json.texts keys), ("count", Json.ofNat (← Procedure.taggedKeyCount filter))]
  | .save writes => do
    writes.forM Procedure.save
    return .null

end Operation

end GoalReconciliation

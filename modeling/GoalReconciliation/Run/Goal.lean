import GoalReconciliation.Matching.Outcome
import GoalReconciliation.Run.Admission
import GoalReconciliation.Run.Result
import GoalReconciliation.Store.Procedure

/-!
# A run for one goal

* `marked?`, `unmarked?` : a record with its match, or with the lack of one, written; none if it has that already.
* `plannedSaves` : the saves of a run, one for each match and one for each unmatched record that changes.
* `RunResult.ofAdmission` : matches, variances and statuses, computed from what takes part.
* `RunResult.persist` : the planned saves carried out; a failing one is reported and the run goes on.
* `RunResult.ofGoal` : load, match, classify, persist.
-/

namespace GoalReconciliation

set_option autoImplicit false

/-! ## What a run writes -/

/-- A record with its match written, unless link, score and status are the stored ones. -/
def marked? (now : Timestamp) (m : ReconciledMatch) (r : BankRecord) : Option BankRecord :=
  let reference := m.pairing.reference "system" (some now)
  if reference.sameLink r.reference ∧ r.score = some m.pairing.score ∧ r.status = m.decision.status then none
  else some (r.mark reference m.pairing.score m.decision.status now)

/-- A record without a match, with the status that says so, unless it is stored so. -/
def unmarked? (status : Status) (r : BankRecord) : Option BankRecord :=
  if r.reference.isNone ∧ r.score.isNone ∧ r.status = status then none
  else some { r.clearMatch with status := status }

/-- The records with these ids, in the order of the ids. -/
def recordsById (records : List BankRecord) (ids : List String) : List BankRecord :=
  ids.filterMap fun id => records.find? (·.id = id)

/-- The saves of a run. An operator's match is never written again. -/
def plannedSaves (now : Timestamp) (records : List BankRecord) (result : RunResult) : List (List BankRecord) :=
  let algorithmic := result.found.filter fun m => m.pairing.matchType ≠ .manual
  let matched := algorithmic.map fun m => (recordsById records m.pairing.bankIds).filterMap (marked? now m)
  let unmatched := result.unmatchedBank.map fun u =>
    (recordsById records [u.recordId]).filterMap (unmarked? u.status)
  (matched ++ unmatched).filter (!·.isEmpty)

/-! ## The run -/

namespace RunResult

/-- The groups with these keys that take part. -/
def groupsByKey (groups : List Group) (keys : List String) : List Group :=
  keys.filterMap fun key => groups.find? (·.key = key)

/-- Matches, variances and statuses of what takes part. -/
def ofAdmission (t : Tolerance) (goal : String) (range : DateRange) (a : Admission) (reserved : List String) :
    Except Failure RunResult := do
  let outcome ← MatchOutcome.ofRecords t a.records a.groups reserved
  let found ← outcome.made.mapM fun m =>
    ReconciledMatch.judge t m (recordsById a.records m.bankIds) (groupsByKey a.groups m.groupKeys)
  return {
    goal := goal
    range := range
    found := found
    unmatchedBank := (recordsById a.records outcome.unmatchedBankIds).map Unmatched.ofRecord
    unmatchedGroups := (groupsByKey a.groups outcome.unmatchedGroupKeys).map Unmatched.ofGroup
    reversalPairs := a.reversalPairs
    errors := a.errors }

/-- One save, all of its records or none. A store that fails leaves an error for each of them. -/
def persistOne (r : RunResult) (records : List BankRecord) : Procedure RunResult := do
  match ← (Procedure.saveAll [.bank records]).attempt with
  | .ok () => return { r with persisted := r.persisted + records.length }
  | .error (.storage fault) =>
    return { r with errors := r.errors ++ records.map fun record => ⟨record.id, fault.message, "persistence"⟩ }
  | .error failure => throw failure

/-- The planned saves, one after the other. -/
def persist (r : RunResult) : List (List BankRecord) → Procedure RunResult
  | [] => return r
  | records :: rest => do
    let r ← r.persistOne records
    persist r rest

/-- A run for one goal. -/
def ofGoal (t : Tolerance) (now : Timestamp) (goal : String) (range : DateRange) (persistent : Bool)
    (actor : String) : Procedure RunResult := do
  Procedure.report (.runStarted nilId range persistent) (some goal) actor
  let records ← Procedure.bankRecords (some goal) (some range)
  let postings ← Procedure.postings (some goal) (some range)
  let a ← (Admission.ofLoaded t goal records postings : Except Failure Admission)
  let manual ← Procedure.manualMatches (some goal)
  let r ← (ofAdmission t goal range a (reservedKeys a.records manual) : Except Failure RunResult)
  let r ← if persistent then r.persist (plannedSaves now a.records r) else pure r
  Procedure.report (.runCompleted nilId r.counts r.persisted) (some goal) actor
  return r

end RunResult

end GoalReconciliation

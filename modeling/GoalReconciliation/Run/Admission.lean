import GoalReconciliation.Run.Result
import GoalReconciliation.Sorting
import GoalReconciliation.Validation

/-!
# What takes part in a run

* `Admission` : the records and groups that a run matches, the reversal pairs that it leaves alone, and an error for
  each record or group that it refuses.
* `Admission.ofLoaded` : the admission of loaded records and postings.
* `reservedKeys` : the keys of operators' links on records that do not take part.
-/

namespace GoalReconciliation

set_option autoImplicit false

/-- What takes part in a run, and what does not. -/
structure Admission where
  records : List BankRecord
  groups : List Group
  reversalPairs : List (String × String)
  errors : List RecordError

namespace Admission

/-- The error of a record or group that is refused. -/
def refusal (id : String) (problem : Problem) : RecordError :=
  ⟨id, problem.message, "validation"⟩

/-- The errors of the items that fail a check, in order. -/
def refusals {α : Type} (check : α → Except Problem Unit) (name : α → String) (items : List α) : List RecordError :=
  items.filterMap fun item =>
    match check item with
    | .ok () => none
    | .error problem => some (refusal (name item) problem)

/-- The items that pass a check. -/
def passing {α : Type} (check : α → Except Problem Unit) (items : List α) : List α :=
  items.filter fun item => (check item).toBool

/-- Two ids in ascending order. -/
def sortedPair (a b : String) : String × String :=
  if Sorting.atMost a b then (a, b) else (b, a)

/-- The order of pairs: by the first id, then by the second. -/
def pairAtMost (p q : String × String) : Bool :=
  if p.1 = q.1 then Sorting.atMost p.2 q.2 else Sorting.atMost p.1 q.1

/-- The pairs that reversal links make, sorted and each once. -/
def pairsOf (records : List BankRecord) : List (String × String) :=
  let pairs := records.filterMap fun r => r.reversal.map fun link => sortedPair r.id link.partnerId
  (Assoc.distinct pairs).mergeSort pairAtMost

/-- Built groups, and an error for each key whose postings do not agree. -/
def buildGroups : List (String × List Posting) → Except Failure (List Group × List RecordError)
  | [] => .ok ([], [])
  | (key, members) :: rest =>
    match Group.build key members with
    | .ok g => (buildGroups rest).map fun (groups, errors) => (g :: groups, errors)
    | .error (.invalid problem) =>
      (buildGroups rest).map fun (groups, errors) => (groups, refusal key problem :: errors)
    | .error failure => .error failure

/-- The postings on channels that count. -/
def onChannel (t : Tolerance) (postings : List Posting) : List Posting :=
  postings.filter fun p => !t.excludedChannels.contains p.channel

/-- The admission of a goal's loaded records and postings. -/
def ofLoaded (t : Tolerance) (goal : String) (records : List BankRecord) (postings : List Posting) :
    Except Failure Admission := do
  let checkRecord (r : BankRecord) : Except Problem Unit := r.check goal
  let checkPosting (p : Posting) : Except Problem Unit := p.check goal
  let valid := passing checkRecord records
  let postings := onChannel t postings
  let (groups, groupErrors) ← buildGroups (← Group.gather (passing checkPosting postings))
  return {
    records := valid.filter (·.reversal.isNone)
    groups := groups
    reversalPairs := pairsOf valid
    errors := refusals checkRecord BankRecord.id records ++ refusals checkPosting Posting.id postings ++ groupErrors }

end Admission

/-- The keys of the operators' links on records that do not take part. -/
def reservedKeys (records manual : List BankRecord) : List String :=
  let outside := manual.filter fun r => !(records.map BankRecord.id).contains r.id
  outside.flatMap fun r => (r.reference.map MatchReference.groupKeys).getD []

end GoalReconciliation

import GoalReconciliation.Resolution.Counterpart
import GoalReconciliation.Run.Admission
import GoalReconciliation.Store.Procedure

/-!
# The sweep

A sweep visits tagged records and groups in the order of their names and resolves those with a counterpart. It works
in chunks: the cursors that one chunk returns start the next one. What is resolved stays resolved.

* `Sweep` : which records one chunk visits.
* `ResolvedVariance` : one record that a sweep has resolved.
* `SweepResult` : the outcome of one chunk.
* `Sweep.run` : one chunk. A record whose resolution fails is reported and changes no other.
-/

namespace GoalReconciliation

set_option autoImplicit false

/-- The name of a sweep, or a fresh one where it is missing or empty. -/
def Sweep.nameOr (name : Option String) : String :=
  (name.filter (· ≠ "")).getD ("sweep-" ++ nilId)

/-- One chunk of a sweep. -/
structure Sweep where
  range : Option DateRange := none
  /-- The most records and groups of a chunk. -/
  size : Int := 2000
  bankCursor : Option String := none
  groupCursor : Option String := none
  batchId : String := Sweep.nameOr none
  actor : String := "system"

/-- One record or group that a sweep has resolved. -/
structure ResolvedVariance where
  recordId : String
  side : Side
  goal : String
  sourceId : String
  amount : Decimal
  tag : ReviewTag
  reason : String
deriving DecidableEq

def ResolvedVariance.toJson (v : ResolvedVariance) : Json :=
  .object
    [("record_id", .text v.recordId), ("source", .text v.side.name), ("goal_id", .text v.goal),
      ("source_transaction_id", .text v.sourceId), ("amount", .text v.amount.toText),
      ("original_tag", .text v.tag.name), ("resolved_reason", .text v.reason)]

/-- The outcome of one chunk. -/
structure SweepResult where
  batchId : String
  resolvedCount : Nat := 0
  /-- How many of the resolved records had each tag. -/
  byTag : Counts := []
  details : List ResolvedVariance := []
  processed : Nat := 0
  failed : Nat := 0
  remaining : Nat := 0
  bankCursor : Option String
  groupCursor : Option String
  errors : List RecordError := []
deriving DecidableEq

namespace SweepResult

/-- What a visit found, counted: a resolution, nothing, or a failure. -/
def note (r : SweepResult) (id : String) (visit : Except Failure (Option ResolvedVariance)) : SweepResult :=
  match visit with
  | .ok (some v) =>
    { r with
      processed := r.processed + 1, byTag := Assoc.bump v.tag.name r.byTag, details := r.details ++ [v] }
  | .ok none => { r with processed := r.processed + 1 }
  | .error failure =>
    { r with
      processed := r.processed + 1, failed := r.failed + 1,
      errors := r.errors ++ [⟨id, failure.message, failure.kind⟩] }

/-- The outcome after the last visit: `remaining` are left for later chunks. -/
def close (r : SweepResult) (remaining : Nat) : SweepResult :=
  { r with remaining := remaining, resolvedCount := r.details.length }

def toJson (r : SweepResult) : Json :=
  .object
    [("batch_id", .text r.batchId), ("resolved_count", Json.ofNat r.resolvedCount), ("by_tag", r.byTag.toJson),
      ("details", .list (r.details.map ResolvedVariance.toJson)), ("processed", Json.ofNat r.processed),
      ("failed", Json.ofNat r.failed), ("remaining", Json.ofNat r.remaining),
      ("has_more", .bool (0 < r.remaining)), ("bank_cursor", Json.ofText? r.bankCursor),
      ("group_cursor", Json.ofText? r.groupCursor), ("errors", .list (r.errors.map RecordError.toJson))]

end SweepResult

namespace Sweep

/-- The candidates of the goals that a chunk has looked into so far. -/
abbrev Loaded := List (String × Candidates)

/-- The groups whose postings agree; the others are no counterparts. -/
def candidateGroups (t : Tolerance) (postings : List Posting) : Except Failure (List Group) := do
  let (groups, _) ← Admission.buildGroups (← Group.gather (Admission.onChannel t postings))
  return groups

/-- The candidates of a goal, loaded unless they are. -/
def candidates (t : Tolerance) (goal : String) (loaded : Loaded) : Procedure (Candidates × Loaded) := do
  match Assoc.get? goal loaded with
  | some c => return (c, loaded)
  | none =>
    let groups ← (candidateGroups t (← Procedure.postings (some goal) none) : Except Failure (List Group))
    let c : Candidates := ⟨← Procedure.bankRecords (some goal) none, groups⟩
    return (c, Assoc.put goal c loaded)

/-- What is known of the candidates behind a visit, even one that fails later. -/
abbrev Visit := Except Failure (Option ResolvedVariance) × Loaded

/-- A visit with the candidates of a goal at hand. -/
def withCandidates (t : Tolerance) (goal : String) (loaded : Loaded)
    (visit : Candidates → Procedure (Option ResolvedVariance)) : Procedure Visit := do
  match ← (candidates t goal loaded).attempt with
  | .error failure => return (.error failure, loaded)
  | .ok (c, loaded) => return (← (visit c).attempt, loaded)

/-! ## Bank records -/

/-- A bank record resolved, if it has a counterpart. -/
def resolveRecord (t : Tolerance) (now : Timestamp) (batchId : String) (r : BankRecord) (c : Candidates) :
    Procedure (Option ResolvedVariance) := do
  match ← (c.reasonForRecord t r : Except Decimal.Fault (Option String)), r.review.tag with
  | some reason, some tag =>
    Procedure.save (.bank [{ r with review := r.review.resolve reason batchId now }])
    return some ⟨r.id, .bank, r.goalId, r.sourceId, r.amount, tag, reason⟩
  | _, _ => return none

/-- The bank records visited in turn. -/
def visitRecords (t : Tolerance) (now : Timestamp) :
    List BankRecord → SweepResult → Loaded → Procedure (SweepResult × Loaded)
  | [], result, loaded => return (result, loaded)
  | r :: rest, result, loaded => do
    let (visit, loaded) ← withCandidates t r.goalId loaded (resolveRecord t now result.batchId r)
    visitRecords t now rest { result.note r.id visit with bankCursor := some r.id } loaded

/-! ## Groups -/

/-- The postings that a sweep can resolve. -/
def pending (postings : List Posting) : List Posting :=
  postings.filter fun p => p.review.tag.any (ReviewTag.sweptOnLedger.contains ·) && !p.review.resolved

/-- A group's pending postings resolved, if it has a counterpart. -/
def resolveGroup (t : Tolerance) (now : Timestamp) (batchId : String) (g : Group) (tag : ReviewTag)
    (tagged : List Posting) (c : Candidates) : Procedure (Option ResolvedVariance) := do
  match ← (c.reasonForGroup t tag g : Except Decimal.Fault (Option String)) with
  | some reason =>
    Procedure.saveAll
      [.postings (tagged.map fun p => { p with review := p.review.resolve reason batchId now })]
    return some ⟨g.key, .ledger, g.goalId, g.sourceId, g.amount, tag, reason⟩
  | none => return none

/-- The tag of the first pending posting of a group, and the group of all its postings; none if nothing is pending. -/
def taggedGroup (key : String) (postings : List Posting) : Except Failure (Option (ReviewTag × Group)) :=
  match (pending postings).head?.bind (·.review.tag) with
  | none => .ok none
  | some tag => (Group.build key postings).map fun g => some (tag, g)

/-- A group visited. -/
def visitGroup (t : Tolerance) (now : Timestamp) (batchId key : String) (loaded : Loaded) : Procedure Visit := do
  match ← (Procedure.postingsByKey [key]).attempt with
  | .error failure => return (.error failure, loaded)
  | .ok postings =>
    match taggedGroup key postings with
    | .error failure => return (.error failure, loaded)
    | .ok none => return (.ok none, loaded)
    | .ok (some (tag, g)) =>
      withCandidates t g.goalId loaded (resolveGroup t now batchId g tag (pending postings))

/-- The groups visited in turn. -/
def visitGroups (t : Tolerance) (now : Timestamp) :
    List String → SweepResult → Loaded → Procedure SweepResult
  | [], result, _ => return result
  | key :: rest, result, loaded => do
    let (visit, loaded) ← visitGroup t now result.batchId key loaded
    visitGroups t now rest { result.note key visit with groupCursor := some key } loaded

/-! ## One chunk -/

/-- The tagged bank records behind a cursor. -/
def bankFilter (s : Sweep) (cursor : Option String) : TagFilter :=
  ⟨ReviewTag.sweptOnBank, false, s.range, cursor⟩

/-- The keys of tagged postings behind a cursor. -/
def groupFilter (s : Sweep) (cursor : Option String) : TagFilter :=
  ⟨ReviewTag.sweptOnLedger, false, s.range, cursor⟩

/-- One chunk: bank records first, then groups as far as there is room. -/
def run (t : Tolerance) (now : Timestamp) (s : Sweep) : Procedure SweepResult := do
  let records ← Procedure.taggedBank (s.bankFilter s.bankCursor) (some s.size)
  let (result, loaded) ← visitRecords t now records
    { batchId := s.batchId, bankCursor := s.bankCursor, groupCursor := s.groupCursor } []
  let room : Int := s.size - records.length
  let keys ← if 0 < room then Procedure.taggedKeys (s.groupFilter s.groupCursor) (some room) else pure []
  let result ← visitGroups t now keys result loaded
  let records ← Procedure.taggedBankCount (s.bankFilter result.bankCursor)
  let groups ← Procedure.taggedKeyCount (s.groupFilter result.groupCursor)
  let result := result.close (records + groups)
  Procedure.report
    (.sweepCompleted result.batchId result.resolvedCount result.processed result.failed result.remaining)
    none s.actor
  return result

end Sweep

end GoalReconciliation

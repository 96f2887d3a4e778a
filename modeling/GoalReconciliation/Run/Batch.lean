import GoalReconciliation.Natural
import GoalReconciliation.Run.Goal

/-!
# Runs for many goals

* `BatchResult` : the totals of one chunk of goals, and where the next one starts.
* `BatchResult.ofChunk` : a run for each goal of a chunk. A goal whose run fails is reported and changes no other.
-/

namespace GoalReconciliation

set_option autoImplicit false

/-- The totals of one chunk of goals. -/
structure BatchResult where
  totalGoals : Nat
  processed : Nat
  failed : Nat
  offset : Int
  nextOffset : Option Int
  matched : Nat
  unmatchedBank : Nat
  unmatchedGroups : Nat
  autoApproved : Nat
  manualReview : Nat
  byMatchType : Counts
  errors : List RecordError
deriving DecidableEq

namespace BatchResult

/-- How many goals a chunk has unless the caller says so. -/
def standardSize : Int := 100

def hasMore (b : BatchResult) : Bool :=
  b.nextOffset.isSome

/-- The goals behind the chunk. -/
def remaining (b : BatchResult) : Nat :=
  ((b.totalGoals : Int) - b.offset - b.processed - b.failed).toNat

/-- The errors that one goal's outcome adds. -/
def errorsOf (goal : String) : Except Failure RunResult → List RecordError
  | .ok r => r.errors
  | .error failure => [⟨goal, failure.message, failure.kind⟩]

/-- The totals of the outcomes of a chunk's goals. -/
def ofOutcomes (totalGoals : Nat) (offset : Int) (goals : List String) (outcomes : List (Except Failure RunResult)) :
    BatchResult :=
  let results := outcomes.filterMap Except.toOption
  let counts := results.map RunResult.counts
  let next := offset + goals.length
  { totalGoals := totalGoals
    processed := results.length
    failed := outcomes.length - results.length
    offset := offset
    nextOffset := if next < totalGoals then some next else none
    matched := Natural.total (counts.map RunCounts.matched)
    unmatchedBank := Natural.total (counts.map RunCounts.unmatchedBank)
    unmatchedGroups := Natural.total (counts.map RunCounts.unmatchedGroups)
    autoApproved := Natural.total (counts.map RunCounts.autoApproved)
    manualReview := Natural.total (counts.map RunCounts.manualReview)
    byMatchType := Assoc.tally (results.flatMap fun r => r.found.map (·.pairing.matchType.name))
    errors := (List.zipWith errorsOf goals outcomes).flatten }

/-- Which goals a batch takes, and how many of them at once. -/
structure Chunk where
  /-- Goals per chunk; zero means the standard size. -/
  size : Int := 0
  offset : Int := 0
  concurrency : Int := 1
  /-- The store lets runs take turns at each request. -/
  interleaves : Bool := false

/-- The goals of a chunk. -/
def Chunk.goals (chunk : Chunk) (goals : List String) : List String :=
  let size := if chunk.size = 0 then standardSize else chunk.size
  Slice.between chunk.offset (chunk.offset + size) goals

/-- The outcomes of procedures, as many at once as the chunk and the store allow. -/
def Chunk.outcomes {α : Type} (chunk : Chunk) (procedures : List (Procedure α)) :
    Procedure (List (Except Failure α)) :=
  if chunk.interleaves ∧ 1 < chunk.concurrency then Procedure.inTurns chunk.concurrency.toNat procedures
  else Procedure.inOrder (procedures.map Procedure.attempt)

/-- A run for each goal of a chunk. -/
def ofChunk (t : Tolerance) (now : Timestamp) (range : DateRange) (chunk : Chunk) (actor : String) :
    Procedure BatchResult := do
  let all ← Procedure.goalIds (some range)
  let goals := chunk.goals all
  let outcomes ← chunk.outcomes (goals.map fun goal => RunResult.ofGoal t now goal range true actor)
  let b := ofOutcomes all.length chunk.offset goals outcomes
  Procedure.report (.batchCompleted chunk.offset b.processed b.failed b.hasMore) none actor
  return b

def toJson (b : BatchResult) : Json :=
  .object
    [("total_goals", Json.ofNat b.totalGoals), ("processed_goals", Json.ofNat b.processed),
      ("failed_goals", Json.ofNat b.failed), ("remaining_goals", Json.ofNat b.remaining),
      ("offset", .integer b.offset), ("next_offset", Json.ofInt? b.nextOffset), ("has_more", .bool b.hasMore),
      ("matched", Json.ofNat b.matched), ("unmatched_bank", Json.ofNat b.unmatchedBank),
      ("unmatched_groups", Json.ofNat b.unmatchedGroups), ("auto_approved", Json.ofNat b.autoApproved),
      ("manual_review", Json.ofNat b.manualReview), ("by_match_type", b.byMatchType.toJson),
      ("errors", .list (b.errors.map RecordError.toJson))]

end BatchResult

end GoalReconciliation

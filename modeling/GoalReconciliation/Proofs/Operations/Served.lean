import GoalReconciliation.Operation
import GoalReconciliation.Proofs.Operations.Rereading
import GoalReconciliation.Proofs.Operations.Summaries
import GoalReconciliation.Proofs.Resolution.Rereading

/-!
# Operations on a store and on a database

* `Operation.Served` : an operation of the service, with what it takes for both to give one answer;
* `Operation.procedure_parallels` : **such an operation asks the same of a store and of a database, and makes the same
  of the answers**.
-/

namespace GoalReconciliation

set_option autoImplicit false

open Procedure (Parallels parallels_pure parallels_query)

namespace Operation

/-- An operation of the service: its actor and its size are there, and selected amounts add up to one sum in whichever
order they come. What is read or written one record at a time is no such operation. -/
def Served (prices : List (String × Decimal)) : Operation → Prop
  | createMatch ids _ actor => actor ≠ "" ∧ Steady prices ids
  | linkReversal _ _ actor => actor ≠ ""
  | sweep s => 1 ≤ s.size
  | taggedBank _ limit | taggedKeys _ limit => ∀ n ∈ limit, 1 ≤ n
  | bankById _ | postingsByKey _ | save _ => False
  | _ => True

variable {prices : List (String × Decimal)} {α β : Type}

theorem parallels_shown {p q : Procedure α} (h : Parallels prices Eq p q) (shown : α → Json) :
    Parallels prices Eq (do return shown (← p)) (do return shown (← q)) :=
  h.bind fun _ _ hab => parallels_pure (congrArg shown hab)

theorem idsOf_reread (records : List BankRecord) : idsOf (records.map BankRecord.reread) = idsOf records :=
  congrArg Json.texts List.map_map

/-- **An operation of the service does the same on a store and on a database.** -/
theorem procedure_parallels (hnamed : ∀ price ∈ prices, price.1 ≠ "") {operation : Operation}
    (h : operation.Served prices) (t : Tolerance) (now : Timestamp) :
    Parallels prices Eq (operation.procedure t now) (operation.procedure t now) := by
  cases operation with
  | matchGoal goal range tolerance persistent actor =>
      exact parallels_shown (RunResult.ofGoal_parallels _ now goal range persistent actor) _
  | matchBatch range chunk actor => exact parallels_shown (BatchResult.ofChunk_parallels t now range chunk actor) _
  | tagRecords tagging => exact parallels_shown (tagging.apply_parallels now) _
  | createMatch ids keys actor => exact parallels_shown (ManualMatch.create_parallels h.1 h.2 t now keys) _
  | removeMatches ids keys actor => exact parallels_shown (ManualMatch.remove_parallels ids keys actor) _
  | reversalCandidates id range =>
      refine (Reversal.candidates_parallels id range).bind fun found _ hfound => parallels_pure ?_
      rw [hfound, idsOf_reread]
  | linkReversal idA idB actor => exact parallels_shown (Reversal.link_parallels hnamed h t now idA idB) _
  | unlinkReversal id actor => exact parallels_shown (Reversal.unlink_parallels id actor) _
  | reversalPartner id =>
      refine (Reversal.partner_parallels id).bind fun found _ hfound => parallels_pure ?_
      rw [hfound, Option.map_map]
      rfl
  | sweep s => exact parallels_shown (Sweep.run_parallels t now (Int.le_of_lt h)) _
  | resolutionStats range => exact parallels_shown (resolutionStats_parallels range) _
  | resolvedReport range goal tag => exact parallels_shown (ResolvedRow.report_parallels range goal tag) _
  | goalSummary goal range => exact parallels_shown (GoalSummary.ofGoal_parallels t goal range) _
  | instrumentSummary goal range => exact parallels_shown (InstrumentSummary.ofGoal_parallels t goal range) _
  | statusCounts goal range => exact parallels_shown (StatusCounts.ofStore_parallels goal range) _
  | bankIds goal range =>
      exact parallels_query (by exact trivial) fun s _ => parallels_pure (idsOf_reread (s.bankRecords goal range)).symm
  | postingIds goal range =>
      refine parallels_query (by exact trivial) fun s _ => parallels_pure (congrArg Json.texts ?_)
      exact (List.map_map (l := s.postings goal range) (f := Posting.reread) (g := Posting.id)).symm
  | manualMatchIds goal =>
      exact parallels_query (by exact trivial) fun s _ => parallels_pure (idsOf_reread (s.manualMatches goal)).symm
  | holderIds key =>
      refine (ManualMatch.holding_parallels key).bind fun held _ hheld => parallels_pure ?_
      rw [hheld.1, idsOf_reread]
  | goalIds range => exact parallels_query (by exact trivial) fun _ _ => parallels_pure rfl
  | taggedBank filter limit =>
      have hsized : ∀ n ∈ limit, 0 ≤ n := fun n hn => Int.le_of_lt (h n hn)
      refine parallels_query (by exact hsized) fun s _ => parallels_query (by exact trivial) fun _ _ =>
        parallels_pure ?_
      refine congrArg (fun ids => Json.object [("ids", ids), ("count", _)]) ?_
      exact (idsOf_reread (Store.limited limit (s.taggedBank filter))).symm
  | taggedKeys filter limit =>
      have hsized : ∀ n ∈ limit, 0 ≤ n := fun n hn => Int.le_of_lt (h n hn)
      refine parallels_query (by exact hsized) fun _ _ => ?_
      exact parallels_query (by exact trivial) fun _ _ => parallels_pure rfl
  | bankById ids => cases h
  | postingsByKey keys => cases h
  | save writes => cases h

end Operation

end GoalReconciliation

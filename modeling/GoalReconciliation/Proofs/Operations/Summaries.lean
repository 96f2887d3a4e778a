import GoalReconciliation.Proofs.Run.Rereading
import GoalReconciliation.Summary.Goal
import GoalReconciliation.Summary.Instruments
import GoalReconciliation.Summary.Statuses

/-!
# Summaries of records that are read again

* `DirectionSummary.both_reread`, `ReviewProgress.ofRecords_reread`, `StatusCounts.ofRecords_reread` : no count and no
  total of a summary depends on how the amounts of a record are listed;
* `InstrumentSummary.totals_alike` : nor does the sum of an instrument;
* `GoalSummary.ofGoal_parallels`, `InstrumentSummary.ofGoal_parallels`, `StatusCounts.ofStore_parallels` : **the
  summaries are the same on a store and on a database**.
-/

namespace GoalReconciliation

set_option autoImplicit false

open Fallible (Alike)
open Procedure (Parallels parallels_pure parallels_lift parallels_query)

variable {prices : List (String × Decimal)}

/-! ## The summary of a goal -/

namespace DirectionSummary

theorem firstOfGroups_reread (postings : List Posting) :
    firstOfGroups (postings.map Posting.reread) = (firstOfGroups postings).map Posting.reread := by
  rw [firstOfGroups, firstOfGroups, Assoc.gather_map (f := Posting.groupKey) (g := Posting.reread) fun _ => rfl,
    List.filterMap_map, List.map_filterMap]
  exact List.filterMap_congr fun pair _ => List.head?_map ..

theorem ofFlows_reread (t : Tolerance) (records : List BankRecord) (postings : List Posting) (bank ledger : Flows)
    (direction : Direction) :
    ofFlows t (records.map BankRecord.reread) (postings.map Posting.reread) bank ledger direction =
      ofFlows t records postings bank ledger direction := by
  have hbank : (records.map BankRecord.reread).countP (fun r => Direction.ofType r.transactionType = direction) =
      records.countP fun r => Direction.ofType r.transactionType = direction := List.countP_map
  have hledger : ((firstOfGroups postings).map Posting.reread).countP
      (fun p => Direction.ofType p.transactionType = direction) =
      (firstOfGroups postings).countP fun p => Direction.ofType p.transactionType = direction := List.countP_map
  simp only [ofFlows, firstOfGroups_reread, hbank, hledger]

theorem both_reread (t : Tolerance) (records : List BankRecord) (postings : List Posting) :
    both t (records.map BankRecord.reread) (postings.map Posting.reread) = both t records postings := by
  have hbank : (records.map BankRecord.reread).map (fun r => (r.transactionType, r.amount)) =
      records.map fun r => (r.transactionType, r.amount) := List.map_map
  have hledger : (postings.map Posting.reread).map (fun p => (p.transactionType, p.amount)) =
      postings.map fun p => (p.transactionType, p.amount) := List.map_map
  have hflows : ∀ bank ledger,
      ofFlows t (records.map BankRecord.reread) (postings.map Posting.reread) bank ledger =
        ofFlows t records postings bank ledger :=
    fun bank ledger => funext (ofFlows_reread t records postings bank ledger)
  simp only [both, hbank, hledger, hflows]

end DirectionSummary

theorem ReviewProgress.ofRecords_reread (records : List BankRecord) (postings : List Posting) :
    ofRecords (records.map BankRecord.reread) (postings.map Posting.reread) = ofRecords records postings := by
  have hledger : (postings.map Posting.reread).map (fun p => (p.sourceId, p.transactionType)) =
      postings.map fun p => (p.sourceId, p.transactionType) := List.map_map
  have hbank : (records.map BankRecord.reread).map (fun r => (r.sourceId, r.transactionType)) =
      records.map fun r => (r.sourceId, r.transactionType) := List.map_map
  have hmarks : marks (records.map BankRecord.reread) (postings.map Posting.reread) = marks records postings := by
    simp only [marks, hledger, hbank, List.filter_map]
    rw [Assoc.gather_map (f := Posting.groupKey) (g := Posting.reread) fun _ => rfl, List.map_map, List.map_map]
    refine congrArg₂ (· ++ ·) rfl (List.map_congr_left fun pair _ => ?_)
    exact List.any_map
  rw [ofRecords, ofRecords, hmarks]

/-- **The summary of a goal is the same on a store and on a database.** -/
theorem GoalSummary.ofGoal_parallels (t : Tolerance) (goal : String) (range : DateRange) :
    Parallels prices Eq (ofGoal t goal range) (ofGoal t goal range) := by
  refine parallels_query (by exact trivial) fun s _ => parallels_query (by exact trivial) fun s' _ => ?_
  have honChannel := Admission.onChannel_reread t (s'.postings (some goal) (some range))
  have hboth := DirectionSummary.both_reread t (s.bankRecords (some goal) (some range))
    (Admission.onChannel t (s'.postings (some goal) (some range)))
  have hprogress := ReviewProgress.ofRecords_reread (s.bankRecords (some goal) (some range))
    (Admission.onChannel t (s'.postings (some goal) (some range)))
  rw [← honChannel] at hboth hprogress
  refine parallels_lift (R := Eq) (Alike.refl_of_eq (congrArg _ hboth.symm)) fun directions _ hdirections => ?_
  subst hdirections
  exact parallels_pure (congrArg (GoalSummary.mk goal range directions) hprogress.symm)

/-! ## The instruments of a goal -/

/-- Computations that fail alike still do where a fault is a failure among others. -/
theorem Decimal.Fault.alike_lift {α β : Type} {R : α → β → Prop} {x : Except Decimal.Fault α}
    {y : Except Decimal.Fault β} (h : Alike R x y) :
    Alike R (liftM x : Except Failure α) (liftM y : Except Failure β) := by
  cases h with
  | ok h => exact .ok h
  | error fault => exact .error (Failure.arithmetic fault)

namespace InstrumentSummary

theorem foldlM_addTo_known {entries : Amounts} (h : ∀ entry ∈ entries, ∃ code, entry.1 = .known code)
    (sums : Amounts) :
    entries.foldlM addTo sums = (liftM (entries.foldlM (fun sums entry => sums.addTo entry.1 entry.2) sums) :
      Except Failure Amounts) := by
  induction entries generalizing sums with
  | nil => rfl
  | cons entry rest ih =>
      obtain ⟨⟨code, hcode⟩, hrest⟩ := List.forall_mem_cons.mp h
      have hadd : addTo sums entry = liftM (sums.addTo entry.1 entry.2) := by
        rw [addTo, hcode]
      rw [List.foldlM_cons, List.foldlM_cons, hadd]
      cases sums.addTo entry.1 entry.2 with
      | error fault => rfl
      | ok next => exact ih hrest next

theorem totals_known {all : List Amounts} (h : ∀ entry ∈ all.flatten, ∃ code, entry.1 = .known code) :
    totals all.flatten = liftM (Amounts.total all) :=
  foldlM_addTo_known h []

theorem totals_alike {records : List BankRecord} (hrecords : ∀ r ∈ records, r.FitsRow) :
    Alike Amounts.Same (totals (records.flatMap BankRecord.instruments))
      (totals ((records.map BankRecord.reread).flatMap BankRecord.instruments)) := by
  have hknown : ∀ records : List BankRecord, (∀ r ∈ records, r.FitsRow) →
      totals (records.flatMap BankRecord.instruments) = liftM (Amounts.total (records.map BankRecord.instruments)) := by
    refine fun records hrecords => totals_known fun entry hentry => ?_
    obtain ⟨amounts, hamounts, hentry⟩ := List.mem_flatten.mp hentry
    obtain ⟨r, hr, rfl⟩ := List.mem_map.mp hamounts
    exact ((hrecords r hr).instruments.known hentry).1
  rw [hknown records hrecords, hknown _ (List.forall_mem_map.mpr fun r hr =>
    BankRecord.fitsRow_reread (hrecords r hr))]
  exact Decimal.Fault.alike_lift ((unseen_reread.total records hrecords).swap.mono fun _ _ hsame code =>
    (hsame code).symm)

/-- **The instruments of a goal are the same on a store and on a database.** -/
theorem ofGoal_parallels (t : Tolerance) (goal : String) (range : DateRange) :
    Parallels prices Eq (ofGoal t goal range) (ofGoal t goal range) := by
  refine parallels_query (by exact trivial) fun s hs => ?_
  have hrecords : ∀ r ∈ s.bankRecords (some goal) (some range), r.FitsRow := fun r hr =>
    (hs.of_mem (Store.mem_bankRecords.mp hr).1).1
  refine parallels_lift (totals_alike hrecords) fun bank bank' hbank => ?_
  refine parallels_query (by exact trivial) fun s' _ => ?_
  have hledger : (Admission.onChannel t ((s'.postings (some goal) (some range)).map Posting.reread)).map
      (fun p => (p.instrument, p.amount)) =
      (Admission.onChannel t (s'.postings (some goal) (some range))).map fun p => (p.instrument, p.amount) := by
    rw [Admission.onChannel_reread, List.map_map]
    rfl
  refine parallels_lift (R := Eq) (Alike.refl_of_eq (congrArg totals hledger.symm)) fun ledger _ hsame => ?_
  subst hsame
  have hcodes : ofTotals t bank' ledger = ofTotals t bank ledger := by
    funext code
    unfold ofTotals
    rw [hbank code]
  rw [hcodes]
  exact .done (.refl (fun _ => rfl) _)

end InstrumentSummary

/-! ## Counts of bank records -/

theorem StatusCounts.ofRecords_reread (goal : Option String) (records : List BankRecord) :
    ofRecords goal (records.map BankRecord.reread) = ofRecords goal records := by
  simp only [ofRecords, List.length_map, List.countP_map, List.map_map, List.filterMap_map]
  rfl

theorem StatusCounts.ofStore_parallels (goal : Option String) (range : Option DateRange) :
    Parallels prices Eq (ofStore goal range) (ofStore goal range) :=
  parallels_query (by exact trivial) fun _ _ => parallels_pure (ofRecords_reread goal _).symm

end GoalReconciliation

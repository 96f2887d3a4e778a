import GoalReconciliation.Proofs.Amounts
import GoalReconciliation.Proofs.Matching.Marks
import GoalReconciliation.Run.Goal

/-!
# What a run does not look at

* `Unseen` : a change of records that no run sees;
* `ofLoaded_map`, `ofAdmission_map` : **what a run admits of changed records are the changed records, and what it finds
  is the same**.
-/

namespace GoalReconciliation

set_option autoImplicit false

open Fallible (Alike)

theorem Variance.ofInstrument_congr {a b : Amounts} (h : a.Same b) (t : Tolerance) (ledger : Amounts) :
    Variance.ofInstrument t a ledger = Variance.ofInstrument t b ledger := by
  funext code
  unfold Variance.ofInstrument
  rw [h code]

/-- A change of records that no run sees, as long as they have some property. -/
structure Unseen (P : BankRecord → Prop) (f : BankRecord → BankRecord) : Prop extends Matching.Unseen f where
  goalId : ∀ r, (f r).goalId = r.goalId
  reversal : ∀ r, (f r).reversal = r.reversal
  check : ∀ r goal, P r → (f r).check goal = r.check goal
  total : ∀ rs : List BankRecord, (∀ r ∈ rs, P r) →
    Alike Amounts.Same (Amounts.total ((rs.map f).map BankRecord.instruments))
      (Amounts.total (rs.map BankRecord.instruments))

def Admission.changed (f : BankRecord → BankRecord) (a : Admission) : Admission :=
  { a with records := a.records.map f }

theorem recordsById_subset (records : List BankRecord) (ids : List String) : recordsById records ids ⊆ records := by
  intro r hr
  obtain ⟨id, -, hfind⟩ := List.mem_filterMap.mp hr
  exact List.mem_of_find?_eq_some hfind

namespace Unseen

variable {P : BankRecord → Prop} {f : BankRecord → BankRecord} (hf : Unseen P f)

include hf

/-! ## What is admitted -/

theorem recordsById_map (records : List BankRecord) (ids : List String) :
    recordsById (records.map f) ids = (recordsById records ids).map f := by
  have hfind : ∀ id : String, (records.map f).find? (fun r => decide (r.id = id)) =
      (records.find? fun r => decide (r.id = id)).map f := by
    intro id
    have hsame : (fun r : BankRecord => decide (r.id = id)) ∘ f = fun r => decide (r.id = id) :=
      funext fun r => by simp [hf.id]
    rw [List.find?_map, hsame]
  rw [recordsById, recordsById, List.map_filterMap, funext hfind]

theorem reservedKeys_map (records manual : List BankRecord) :
    reservedKeys (records.map f) manual = reservedKeys records manual := by
  rw [reservedKeys, reservedKeys, hf.map_id]

theorem pairsOf_map (records : List BankRecord) : Admission.pairsOf (records.map f) = Admission.pairsOf records := by
  have hpairs : (records.map f).filterMap (fun r => r.reversal.map fun link =>
      Admission.sortedPair r.id link.partnerId) =
        records.filterMap fun r => r.reversal.map fun link => Admission.sortedPair r.id link.partnerId := by
    rw [List.filterMap_map]
    exact List.filterMap_congr fun r _ => by simp [hf.reversal, hf.id]
  rw [Admission.pairsOf, hpairs]
  rfl

theorem ofLoaded_map (t : Tolerance) (goal : String) {records : List BankRecord} (hrecords : ∀ r ∈ records, P r)
    (postings : List Posting) :
    Admission.ofLoaded t goal (records.map f) postings =
      (Admission.ofLoaded t goal records postings).map (Admission.changed f) := by
  have hchecked : ∀ r ∈ records, (f r).check goal = r.check goal := fun r hr => hf.check r goal (hrecords r hr)
  have hvalid : Admission.passing (fun r => r.check goal) (records.map f) =
      (Admission.passing (fun r => r.check goal) records).map f := by
    rw [Admission.passing, Admission.passing, List.filter_map]
    exact congrArg _ (List.filter_congr fun r hr => congrArg Except.toBool (hchecked r hr))
  have hrefused : Admission.refusals (fun r => r.check goal) BankRecord.id (records.map f) =
      Admission.refusals (fun r => r.check goal) BankRecord.id records := by
    rw [Admission.refusals, Admission.refusals, List.filterMap_map]
    refine List.filterMap_congr fun r hr => ?_
    simp only [Function.comp_apply, hchecked r hr, hf.id]
  have hpresent : ∀ rs : List BankRecord, (rs.map f).filter (·.reversal.isNone) =
      (rs.filter (·.reversal.isNone)).map f := by
    intro rs
    rw [List.filter_map]
    exact congrArg _ (List.filter_congr fun r _ => by simp [hf.reversal])
  unfold Admission.ofLoaded
  simp only [hvalid, hrefused, hf.pairsOf_map, hpresent]
  cases Group.gather (Admission.passing (fun p => p.check goal) (Admission.onChannel t postings)) with
  | error problem => rfl
  | ok keyed =>
      simp only [liftM, monadLift, MonadLift.monadLift]
      cases hbuilt : Admission.buildGroups keyed with
      | error failure => simp [bind, Except.bind, hbuilt, Except.map]
      | ok built => simp [bind, Except.bind, hbuilt, Except.map, pure, Except.pure, Admission.changed]

/-! ## What is found -/

theorem classify_map (t : Tolerance) {records : List BankRecord} (hrecords : ∀ r ∈ records, P r)
    (groups : List Group) : Variance.classify t (records.map f) groups = Variance.classify t records groups := by
  have hdates : (records.map f).map BankRecord.date = records.map BankRecord.date :=
    List.map_map.trans (List.map_congr_left fun r _ => hf.date r)
  unfold Variance.classify
  rw [hdates, hf.map_amount]
  split
  · refine bind_congr fun bankTotal => bind_congr fun ledgerTotal => bind_congr fun totals => ?_
    refine (hf.total records hrecords).bind_eq fun a b hsame => ?_
    simp only [Variance.ofInstrument_congr hsame]
  · rfl

theorem judge_map (t : Tolerance) (m : Match) {records : List BankRecord} (hrecords : ∀ r ∈ records, P r)
    (groups : List Group) :
    ReconciledMatch.judge t m (records.map f) groups = ReconciledMatch.judge t m records groups := by
  rw [ReconciledMatch.judge, ReconciledMatch.judge, hf.classify_map t hrecords]

theorem ofRecord_eq (r : BankRecord) : Unmatched.ofRecord (f r) = Unmatched.ofRecord r := by
  simp only [Unmatched.ofRecord, Variance.missingInLedger, hf.id, hf.goalId, hf.sourceId, hf.amount, hf.date]

theorem ofAdmission_map (t : Tolerance) (goal : String) (range : DateRange) {a : Admission}
    (hrecords : ∀ r ∈ a.records, P r) (reserved : List String) :
    RunResult.ofAdmission t goal range (a.changed f) reserved = RunResult.ofAdmission t goal range a reserved := by
  have hjudged : ∀ m : Match,
      ReconciledMatch.judge t m ((recordsById a.records m.bankIds).map f)
          (RunResult.groupsByKey a.groups m.groupKeys) =
        ReconciledMatch.judge t m (recordsById a.records m.bankIds)
          (RunResult.groupsByKey a.groups m.groupKeys) := fun m =>
    hf.judge_map t m (fun r hr => hrecords r (recordsById_subset _ _ hr)) _
  have hleft : ∀ rs : List BankRecord, (rs.map f).map Unmatched.ofRecord = rs.map Unmatched.ofRecord := fun rs =>
    List.map_map.trans (List.map_congr_left fun r _ => hf.ofRecord_eq r)
  unfold RunResult.ofAdmission Admission.changed
  simp only [hf.ofRecords_map, hf.recordsById_map, hjudged, hleft]

end Unseen

end GoalReconciliation

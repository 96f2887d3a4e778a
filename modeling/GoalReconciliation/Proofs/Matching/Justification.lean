import GoalReconciliation.Proofs.Matching.Exactness
import GoalReconciliation.Proofs.Matching.Partition

/-!
# Every match is justified by its type

* `Justified` : what justifies a match of each type that is no operator's;
* `Checked.justified` : what a pass has checked justifies its match;
* `Run.rejected` : what the last pass matches was rejected by the first, as claims only grow;
* `Justification`, `ofRecords_justified` : **all matches of a run are justified, and their totals are exact sums**.
-/

namespace GoalReconciliation

set_option autoImplicit false

open Decimal (total)
open Matching

namespace Matching

/-- What justifies a match of each type that is no operator's. -/
inductive Justified (t : Tolerance) : MatchType → Bool → List BankRecord → List Group → Prop
  | exact {r : BankRecord} {g : Group} (hsource : g.sourceId = r.sourceId)
      (htype : g.transactionType = r.transactionType) (hamounts : t.amountsMatch r.amount g.amount = .ok true) :
      Justified t .exact true [r] [g]
  | amount {r : BankRecord} {g : Group} (htype : g.transactionType = r.transactionType)
      (hdates : (r.date.daysApart g.date : Int) ≤ t.dateWindow)
      (hamounts : t.amountsMatch r.amount g.amount = .ok true) : Justified t .amount true [r] [g]
  | splitBank {rs : List BankRecord} {g : Group} {bound : Decimal} (hmany : 2 ≤ rs.length)
      (hday : ∀ r ∈ rs, r.date = g.date ∧ r.transactionType = g.transactionType)
      (hbound : t.allowance g.amount = .ok bound)
      (hnear : bound.Bounds (total (rs.map BankRecord.amount) - g.amount.value)) :
      Justified t .splitBankToGroup true rs [g]
  | splitGroup {r : BankRecord} {gs : List Group} {bound : Decimal} (hmany : 2 ≤ gs.length)
      (hday : ∀ g ∈ gs, r.date = g.date ∧ r.transactionType = g.transactionType)
      (hbound : t.allowance r.amount = .ok bound)
      (hnear : bound.Bounds (total (gs.map Group.amount) - r.amount.value)) :
      Justified t .splitGroupToBank true [r] gs
  | source {r : BankRecord} {g : Group} (hsource : g.sourceId = r.sourceId)
      (htype : g.transactionType = r.transactionType) (hamounts : t.amountsMatch r.amount g.amount = .ok false) :
      Justified t .exact false [r] [g]

section Justified

variable {t : Tolerance} {records : List BankRecord} {groups : List Group} {reserved : List String}

theorem sameSource_iff {r : BankRecord} {g : Group} :
    sameSource r g = true ↔ g.sourceId = r.sourceId ∧ g.transactionType = r.transactionType := by
  simp [sameSource]

theorem sameDay_iff {r : BankRecord} {g : Group} :
    sameDay r g = true ↔ r.date = g.date ∧ r.transactionType = g.transactionType := by
  simp [sameDay]

/-- What a pass has checked justifies its match; the last pass relies on the first one's rejection. -/
theorem Checked.justified (hrecords : (records.map BankRecord.id).Nodup) (hgroups : (groups.map Group.key).Nodup)
    (hexact : ExactAmounts records groups) {c : Claims} {matchType : MatchType} {within : Bool}
    {rs : List BankRecord} {gs : List Group} (h : Checked t records groups c matchType within rs gs)
    (hrs : rs ⊆ records) (hgs : gs ⊆ groups)
    (hrejected : within = false → ∀ r ∈ rs, ∀ g ∈ gs, exactFits t r g = .ok false) :
    Justified t matchType within rs gs := by
  cases h with
  | exact hsource hamounts =>
      obtain ⟨hsource, htype⟩ := sameSource_iff.mp hsource
      exact Justified.exact hsource htype hamounts
  | amount htype hdates hamounts => exact Justified.amount htype hdates hamounts
  | @splitBank _ g _ hof hmany hbound hfound =>
      refine Justified.splitBank hmany (fun r hr => sameDay_iff.mp (Claims.mem_recordsOf.mp (hof hr)).2.2) hbound ?_
      have hcandidates := hexact.records_exact (c.recordsOf_sublist records g) (hgs List.mem_cons_self)
      exact Combination.find_picked_solves (Claims.recordsOf_nodup hrecords g) hcandidates hof hfound hmany
  | @splitGroup r _ _ hof hmany hbound hfound =>
      refine Justified.splitGroup hmany (fun g hg => sameDay_iff.mp (Claims.mem_groupsOf.mp (hof hg)).2.2) hbound ?_
      have hcandidates := hexact.groups_exact (c.groupsOf_sublist groups r) (hrs List.mem_cons_self)
      exact Combination.find_picked_solves (Claims.groupsOf_nodup hgroups r) hcandidates hof hfound hmany
  | source hsource =>
      have hfits := hrejected rfl _ List.mem_cons_self _ List.mem_cons_self
      rw [exactFits, if_pos hsource] at hfits
      obtain ⟨hsource, htype⟩ := sameSource_iff.mp hsource
      exact Justified.source hsource htype hfits

/-- Each match of a run is taken from what is free, and if it is out of tolerance, the first pass has rejected it. -/
theorem Run.rejected {outcome : MatchOutcome} (run : Run t records groups reserved outcome)
    (hrecords : (records.map BankRecord.id).Nodup) (hgroups : (groups.map Group.key).Nodup) {m : Match}
    (hm : m ∈ outcome.algorithmic) :
    ∃ c rs gs, Taken t records groups c m rs gs ∧
      (m.withinTolerance = false → ∀ r ∈ rs, ∀ g ∈ gs, exactFits t r g = .ok false) := by
  have hmiddle := run.stages.middle_steps hrecords hgroups
  obtain ⟨tolerant, htolerant⟩ := (run.stages.tolerant_steps hrecords hgroups).extends
  obtain ⟨sourced, hsourced⟩ := run.stages.source_steps.extends
  have hnew : run.new = tolerant ++ sourced := by
    have hmade := run.added.made_eq
    rw [hsourced.made_eq, htolerant.made_eq, List.append_assoc] at hmade
    exact (List.append_cancel_left hmade).symm
  rw [run.algorithmic_eq, hnew] at hm
  rcases List.mem_append.mp hm with hm | hm
  · obtain ⟨before, rs, gs, -, -, htaken⟩ := htolerant.each m hm
    refine ⟨before, rs, gs, htaken, fun hwithin => ?_⟩
    exact absurd ((htolerant.kinds m hm).2.symm.trans hwithin) (by decide)
  · -- What was free in the last pass was free after the first.
    obtain ⟨before, rs, gs, hbank, hkeys, htaken⟩ := hsourced.each m hm
    refine ⟨before, rs, gs, htaken, fun _ r hr g hg => ?_⟩
    have hrfree : run.stages.splitGroup.freeBank r = true :=
      Claims.freeBank_iff.mpr fun hc => Claims.freeBank_iff.mp (htaken.records_free r hr) (hbank hc)
    have hgfree : run.stages.splitGroup.freeGroup g = true :=
      Claims.freeGroup_iff.mpr fun hc => Claims.freeGroup_iff.mp (htaken.groups_free g hg) (hkeys hc)
    exact run.stages.exact_rejected (htaken.records_of hr) (htaken.groups_of hg) (hmiddle.freeBank hrfree)
      (hmiddle.freeGroup hgfree)

end Justified

end Matching

/-- A match of records and groups of the run, each taken once, that its type justifies, with their exact totals. -/
structure Justification (t : Tolerance) (records : List BankRecord) (groups : List Group) (m : Match)
    (rs : List BankRecord) (gs : List Group) : Prop where
  records_of : rs ⊆ records
  groups_of : gs ⊆ groups
  records_once : (rs.map BankRecord.id).Nodup
  groups_once : (gs.map Group.key).Nodup
  pairs : m.Pairs rs gs
  justified : Justified t m.matchType m.withinTolerance rs gs
  bankTotal : m.bankTotal.Worth (total (rs.map BankRecord.amount))
  groupTotal : m.groupTotal.Worth (total (gs.map Group.amount))

/-- **Every match that is no operator's is justified by its type, and its totals are exact sums.** -/
theorem ofRecords_justified {t : Tolerance} {records : List BankRecord} {groups : List Group}
    {reserved : List String} {outcome : MatchOutcome} (hrecords : (records.map BankRecord.id).Nodup)
    (hgroups : (groups.map Group.key).Nodup) (hexact : ExactAmounts records groups)
    (h : MatchOutcome.ofRecords t records groups reserved = .ok outcome) :
    ∀ m ∈ outcome.algorithmic, ∃ rs gs, Justification t records groups m rs gs := by
  intro m hm
  obtain ⟨run⟩ := ofRecords_run hrecords hgroups h
  obtain ⟨c, rs, gs, htaken, hrejected⟩ := run.rejected hrecords hgroups hm
  have hbank := List.subperm_of_subset htaken.records_once.of_map htaken.records_of
  have hgroup := List.subperm_of_subset htaken.groups_once.of_map htaken.groups_of
  obtain ⟨bankTotal, hbankSum, hbankWorth⟩ :=
    Decimal.sum_exact (hexact.bank_sums.subperm (Related.map_subperm BankRecord.amount hbank))
  obtain ⟨groupTotal, hgroupSum, hgroupWorth⟩ :=
    Decimal.sum_exact (hexact.group_sums.subperm (Related.map_subperm Group.amount hgroup))
  obtain rfl := Except.ok.inj (hbankSum.symm.trans htaken.pairs.bankTotal)
  obtain rfl := Except.ok.inj (hgroupSum.symm.trans htaken.pairs.groupTotal)
  exact ⟨rs, gs, {
    records_of := htaken.records_of
    groups_of := htaken.groups_of
    records_once := htaken.records_once
    groups_once := htaken.groups_once
    pairs := htaken.pairs
    justified := htaken.checked.justified hrecords hgroups hexact htaken.records_of htaken.groups_of hrejected
    bankTotal := hbankWorth
    groupTotal := hgroupWorth }⟩

theorem ofRecords_justified_sample :
    ∃ outcome, MatchOutcome.ofRecords {} Sample.records Sample.groups ["b"] = .ok outcome ∧
      outcome.algorithmic.map Match.bankIds = [["paired"]] ∧
      ∀ m ∈ outcome.algorithmic, ∃ rs gs, Justification {} Sample.records Sample.groups m rs gs := by
  have hrun : (MatchOutcome.ofRecords {} Sample.records Sample.groups ["b"]).map
      (fun outcome => outcome.algorithmic.map Match.bankIds) = .ok [["paired"]] := by decide +kernel
  obtain ⟨outcome, h, hmade⟩ := Fallible.map_eq_ok.mp hrun
  refine ⟨outcome, h, hmade, ofRecords_justified (by decide) (by decide) ?_ h⟩
  exact exactAmounts_of_units (by decide : Decimal.minExponent ≤ 0) (by decide) (by decide) (by decide) (by decide)

end GoalReconciliation

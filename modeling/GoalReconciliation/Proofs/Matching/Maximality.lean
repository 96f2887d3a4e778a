import GoalReconciliation.Proofs.Matching.Exactness
import GoalReconciliation.Proofs.Matching.Partition

/-!
# No pair that fits is left behind

* `Covered` : a record or a group is in a match of some kind;
* `Run.covered` : of a pair that a pass does not leave free, one side is in a match that was made so far;
* `Run.splitBank_maximal`, `Run.splitGroup_maximal` : what is left of one side does not sum to what is left of the
  other, as far as the searches go;
* `Maximal`, `ofRecords_maximal` : **every pair that fits is covered by a match of its pass or an earlier one**.
-/

namespace GoalReconciliation

set_option autoImplicit false

open Decimal (total)
open Matching

namespace Matching

def Covered (outcome : MatchOutcome) (kind : Match → Prop) (r : BankRecord) (g : Group) : Prop :=
  ∃ m ∈ outcome.made, kind m ∧ (r.id ∈ m.bankIds ∨ g.key ∈ m.groupKeys)

/-- Where nothing was found among candidates that the search does not cut off, no two or more of them sum to the
target. -/
theorem NothingFound.none_sums {α : Type} {t : Tolerance} {name : α → String} {amount : α → Decimal}
    {candidates : List α} {target : Decimal} (h : NothingFound t name amount candidates target)
    (hexact : Combination.Exact (candidates.map fun a => (name a, amount a)) target)
    (hlimit : (candidates.length : Int) ≤ t.splitLimit) {chosen : List α} (hchosen : chosen.Subperm candidates)
    (hmany : 2 ≤ chosen.length) :
    ∃ bound, t.allowance target = .ok bound ∧ ¬bound.Bounds (total (chosen.map amount) - target.value) := by
  rcases h with hfew | ⟨bound, hbound, hnone⟩
  · exact absurd (hmany.trans hchosen.length_le) (by omega)
  · exact ⟨bound, hbound, Combination.find_none_solves hexact hnone hlimit hchosen hmany⟩

section Maximality

variable {t : Tolerance} {records : List BankRecord} {groups : List Group} {reserved : List String}
  {outcome : MatchOutcome} (run : Run t records groups reserved outcome)
  (hrecords : (records.map BankRecord.id).Nodup) (hgroups : (groups.map Group.key).Nodup)

include run hrecords

/-- Of a pair that some steps do not leave free, one side is in a match that they have made. -/
theorem Run.covered {kind : Match → Prop} {c : Claims} (hsteps : Steps t records groups kind run.stages.start c)
    (hmade : c.made ⊆ outcome.made) {r : BankRecord} {g : Group} (hr : r ∈ records) (hg : g ∈ groups)
    (hmanual : r.hasManualMatch = false) (hfree : withheld records reserved g.key = false)
    (hnot : ¬(c.freeBank r = true ∧ c.freeGroup g = true)) : Covered outcome kind r g := by
  by_cases hbank : c.freeBank r = true
  · have hgroup : ¬c.freeGroup g = true := fun h => hnot ⟨hbank, h⟩
    obtain ⟨m, hm, hkind, hkey⟩ := hsteps.group_claimed ((run.start_freeGroup hg).mpr hfree) hgroup
    exact ⟨m, hmade hm, hkind, Or.inr hkey⟩
  · obtain ⟨m, hm, hkind, hid⟩ := hsteps.bank_claimed ((run.start_freeBank hrecords hr).mpr hmanual) hbank
    exact ⟨m, hmade hm, hkind, Or.inl hid⟩

include hgroups

theorem Run.exact_made : run.stages.exact.made ⊆ outcome.made := by
  rw [run.made_eq]
  exact (run.stages.after_exact hrecords hgroups).made_subset

theorem Run.amount_made : run.stages.amount.made ⊆ outcome.made := by
  have hsplitBank := (run.stages.splitBank_steps hrecords).made_subset
  have hafter := (run.stages.after_splitBank hgroups).made_subset
  rw [run.made_eq]
  exact fun _ hm => hafter (hsplitBank hm)

/-- What is left of a group's records does not sum to a group that is left. -/
theorem Run.splitBank_maximal (hexact : ExactAmounts records groups) {g : Group} (hg : g ∈ groups)
    (hunmatched : g.key ∈ outcome.unmatchedGroupKeys)
    (hlimit : ((records.filter fun r => sameDay r g).length : Int) ≤ t.splitLimit) {rs : List BankRecord}
    (hof : rs ⊆ records) (honce : (rs.map BankRecord.id).Nodup) (hmany : 2 ≤ rs.length)
    (hleft : ∀ r ∈ rs, r.id ∈ outcome.unmatchedBankIds ∧ sameDay r g = true) :
    ∃ bound, t.allowance g.amount = .ok bound ∧
      ¬bound.Bounds (total (rs.map BankRecord.amount) - g.amount.value) := by
  have hafter := run.stages.after_splitBank hgroups
  have hgfree := hafter.freeGroup (run.free_of_unmatched_group hgroups hg hunmatched)
  obtain ⟨before, hfree, hsearch⟩ :=
    splitBankPass_rejected hrecords (fun _ => And.intro) run.stages.splitBank_ok hg hgfree
  have hcandidates : rs.Subperm (before.recordsOf records g) := by
    refine List.subperm_of_subset honce.of_map fun r hr => ?_
    obtain ⟨hid, hday⟩ := hleft r hr
    have hrfree := hafter.freeBank (run.free_of_unmatched_bank hrecords (hof hr) hid)
    exact Claims.mem_recordsOf.mpr ⟨hof hr, hfree r hrfree, hday⟩
  have hshort : (before.recordsOf records g).length ≤ (records.filter fun r => sameDay r g).length := by
    rw [Claims.recordsOf, ← List.filter_filter]
    exact List.length_filter_le _ _
  have hexact := hexact.records_exact (before.recordsOf_sublist records g) hg
  exact hsearch.none_sums hexact (by omega) hcandidates hmany

/-- What is left of a record's groups does not sum to a record that is left. -/
theorem Run.splitGroup_maximal (hexact : ExactAmounts records groups) {r : BankRecord} (hr : r ∈ records)
    (hunmatched : r.id ∈ outcome.unmatchedBankIds)
    (hlimit : ((groups.filter fun g => sameDay r g).length : Int) ≤ t.splitLimit) {gs : List Group}
    (hof : gs ⊆ groups) (honce : (gs.map Group.key).Nodup) (hmany : 2 ≤ gs.length)
    (hleft : ∀ g ∈ gs, g.key ∈ outcome.unmatchedGroupKeys ∧ sameDay r g = true) :
    ∃ bound, t.allowance r.amount = .ok bound ∧
      ¬bound.Bounds (total (gs.map Group.amount) - r.amount.value) := by
  have hafter := run.stages.source_steps
  have hrfree := hafter.freeBank (run.free_of_unmatched_bank hrecords hr hunmatched)
  obtain ⟨before, hfree, hsearch⟩ :=
    splitGroupPass_rejected hgroups (fun _ => And.intro) run.stages.splitGroup_ok hr hrfree
  have hcandidates : gs.Subperm (before.groupsOf groups r) := by
    refine List.subperm_of_subset honce.of_map fun g hg => ?_
    obtain ⟨hkey, hday⟩ := hleft g hg
    have hgfree := hafter.freeGroup (run.free_of_unmatched_group hgroups (hof hg) hkey)
    exact Claims.mem_groupsOf.mpr ⟨hof hg, hfree g hgfree, hday⟩
  have hshort : (before.groupsOf groups r).length ≤ (groups.filter fun g => sameDay r g).length := by
    rw [Claims.groupsOf, ← List.filter_filter]
    exact List.length_filter_le _ _
  have hexact := hexact.groups_exact (before.groupsOf_sublist groups r) hr
  exact hsearch.none_sums hexact (by omega) hcandidates hmany

end Maximality

end Matching

/-- Every pair that fits is covered by a match of its pass or an earlier one, and no left-over amounts of one side sum
to a left-over amount of the other, as far as the searches go. -/
structure Maximal (t : Tolerance) (records : List BankRecord) (groups : List Group) (reserved : List String)
    (outcome : MatchOutcome) : Prop where
  exact : ∀ r ∈ records, ∀ g ∈ groups, r.hasManualMatch = false → withheld records reserved g.key = false →
    g.sourceId = r.sourceId → g.transactionType = r.transactionType →
    t.amountsMatch r.amount g.amount = .ok true → Covered outcome (OfType .exact true) r g
  amount : ∀ r ∈ records, ∀ g ∈ groups, r.hasManualMatch = false → withheld records reserved g.key = false →
    g.transactionType = r.transactionType → (r.date.daysApart g.date : Int) ≤ t.dateWindow →
    t.amountsMatch r.amount g.amount = .ok true →
    Covered outcome (fun m => m.matchType = .amount ∨ OfType .exact true m) r g
  source : ∀ r ∈ records, ∀ g ∈ groups, g.sourceId = r.sourceId → g.transactionType = r.transactionType →
    ¬(r.id ∈ outcome.unmatchedBankIds ∧ g.key ∈ outcome.unmatchedGroupKeys)
  splitBank : ∀ g ∈ groups, g.key ∈ outcome.unmatchedGroupKeys →
    ((records.filter fun r => sameDay r g).length : Int) ≤ t.splitLimit →
    ∀ rs ⊆ records, (rs.map BankRecord.id).Nodup → 2 ≤ rs.length →
      (∀ r ∈ rs, r.id ∈ outcome.unmatchedBankIds ∧ sameDay r g = true) →
      ∃ bound, t.allowance g.amount = .ok bound ∧
        ¬bound.Bounds (total (rs.map BankRecord.amount) - g.amount.value)
  splitGroup : ∀ r ∈ records, r.id ∈ outcome.unmatchedBankIds →
    ((groups.filter fun g => sameDay r g).length : Int) ≤ t.splitLimit →
    ∀ gs ⊆ groups, (gs.map Group.key).Nodup → 2 ≤ gs.length →
      (∀ g ∈ gs, g.key ∈ outcome.unmatchedGroupKeys ∧ sameDay r g = true) →
      ∃ bound, t.allowance r.amount = .ok bound ∧
        ¬bound.Bounds (total (gs.map Group.amount) - r.amount.value)

/-- **No pair that fits is left behind.** -/
theorem ofRecords_maximal {t : Tolerance} {records : List BankRecord} {groups : List Group} {reserved : List String}
    {outcome : MatchOutcome} (hrecords : (records.map BankRecord.id).Nodup)
    (hgroups : (groups.map Group.key).Nodup) (hexact : ExactAmounts records groups)
    (h : MatchOutcome.ofRecords t records groups reserved = .ok outcome) :
    Maximal t records groups reserved outcome := by
  obtain ⟨run⟩ := ofRecords_run hrecords hgroups h
  refine { exact := ?_, amount := ?_, source := ?_, splitBank := ?_, splitGroup := ?_ }
  · intro r hr g hg hmanual hfree hsource htype hamounts
    refine run.covered hrecords run.stages.exact_steps (run.exact_made hrecords hgroups) hr hg hmanual hfree ?_
    rintro ⟨hrfree, hgfree⟩
    have hrejected := run.stages.exact_rejected hr hg hrfree hgfree
    rw [exactFits, if_pos (by simp [sameSource, hsource, htype]), hamounts] at hrejected
    cases hrejected
  · intro r hr g hg hmanual hfree htype hdates hamounts
    have hsteps : Steps t records groups (fun m => m.matchType = .amount ∨ OfType .exact true m) run.stages.start
        run.stages.amount :=
      (run.stages.exact_steps.mono fun _ hm => Or.inr hm).trans (run.stages.amount_steps.mono fun _ hm => Or.inl hm.1)
    refine run.covered hrecords hsteps (run.amount_made hrecords hgroups) hr hg hmanual hfree ?_
    rintro ⟨hrfree, hgfree⟩
    have hrejected := run.stages.amount_rejected hr hg hrfree hgfree
    rw [amountFits, if_pos ⟨htype, hdates⟩, hamounts] at hrejected
    cases hrejected
  · rintro r hr g hg hsource htype ⟨hid, hkey⟩
    have hrejected := run.stages.source_rejected hr hg (run.free_of_unmatched_bank hrecords hr hid)
      (run.free_of_unmatched_group hgroups hg hkey)
    simp [sameSource, hsource, htype] at hrejected
  · intro g hg hkey hlimit rs hof honce hmany hleft
    exact run.splitBank_maximal hrecords hgroups hexact hg hkey hlimit hof honce hmany hleft
  · intro r hr hid hlimit gs hof honce hmany hleft
    exact run.splitGroup_maximal hrecords hgroups hexact hr hid hlimit hof honce hmany hleft

theorem ofRecords_maximal_sample :
    ∃ outcome, MatchOutcome.ofRecords {} Sample.records Sample.groups ["b"] = .ok outcome ∧
      outcome.unmatchedBankIds = ["left"] ∧ Maximal {} Sample.records Sample.groups ["b"] outcome := by
  have hrun : (MatchOutcome.ofRecords {} Sample.records Sample.groups ["b"]).map MatchOutcome.unmatchedBankIds =
      .ok ["left"] := by decide +kernel
  obtain ⟨outcome, h, hleft⟩ := Fallible.map_eq_ok.mp hrun
  refine ⟨outcome, h, hleft, ofRecords_maximal (by decide) (by decide) ?_ h⟩
  exact exactAmounts_of_units (by decide : Decimal.minExponent ≤ 0) (by decide) (by decide) (by decide) (by decide)

end GoalReconciliation

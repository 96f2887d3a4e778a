import GoalReconciliation.Proofs.Matching.Manual
import GoalReconciliation.Proofs.Matching.Passes

/-!
# Nothing is matched twice and nothing is lost

* `withheld` : the keys that operators' links name, and the reserved ones;
* `MatchOutcome.algorithmic` : the matches that are no operator's;
* `Run` : what the matches of a run are made of, on top of what the operators' matches claim;
* `Partitioned`, `ofRecords_partitioned` : **matches and leftovers partition the records and groups of the run**.
-/

namespace GoalReconciliation

set_option autoImplicit false

open Fallible (bind_eq_ok pure_eq_ok)
open Matching

def MatchOutcome.algorithmic (outcome : MatchOutcome) : List Match :=
  outcome.made.filter (·.matchType ≠ .manual)

namespace Matching

/-- A key that an operator's link of one of the records names, or that is reserved. -/
def withheld (records : List BankRecord) (reserved : List String) (key : String) : Bool :=
  records.any (·.links key) || reserved.contains key

theorem withheld_iff {records : List BankRecord} {reserved : List String} {key : String} :
    withheld records reserved key = true ↔ (∃ r ∈ records, r.links key = true) ∨ key ∈ reserved := by
  simp [withheld]

/-- What the matches of a run are made of: the operators' matches first, then what the steps of the other passes add. -/
structure Run (t : Tolerance) (records : List BankRecord) (groups : List Group) (reserved : List String)
    (outcome : MatchOutcome) where
  last : Claims
  stages : Stages t records groups reserved last
  new : List Match
  manual : ManualClaims records groups stages.manual
  added : Extends t records groups (fun m => m.matchType ≠ .manual) stages.start last new
  made_eq : outcome.made = last.made
  unmatchedBank_eq : outcome.unmatchedBankIds = (records.filter last.freeBank).map BankRecord.id
  unmatchedGroups_eq : outcome.unmatchedGroupKeys = (groups.filter last.freeGroup).map Group.key

section Runs

variable {t : Tolerance} {records : List BankRecord} {groups : List Group} {reserved : List String}
  {outcome : MatchOutcome}

theorem ofRecords_run (hrecords : (records.map BankRecord.id).Nodup) (hgroups : (groups.map Group.key).Nodup)
    (h : MatchOutcome.ofRecords t records groups reserved = .ok outcome) :
    Nonempty (Run t records groups reserved outcome) := by
  obtain ⟨last, hlast, h⟩ := bind_eq_ok.mp h
  obtain rfl := pure_eq_ok.mp h
  obtain ⟨stages⟩ := claims_stages hlast
  obtain ⟨new, hnew⟩ := (stages.steps hrecords hgroups).extends
  exact ⟨⟨last, stages, new, manualPass_claims hgroups stages.manual_ok, hnew, rfl, rfl, rfl⟩⟩

namespace Run

variable (run : Run t records groups reserved outcome)

include run

theorem made_append : outcome.made = run.stages.manual.made ++ run.new := by
  rw [run.made_eq, run.added.made_eq]
  rfl

theorem algorithmic_eq : outcome.algorithmic = run.new := by
  have hmanual : run.stages.manual.made.filter (·.matchType ≠ .manual) = [] :=
    List.filter_eq_nil_iff.mpr fun m hm => by simp [run.manual.types m hm]
  have hnew : run.new.filter (·.matchType ≠ .manual) = run.new :=
    List.filter_eq_self.mpr fun m hm => by simpa using run.added.kinds m hm
  rw [MatchOutcome.algorithmic, run.made_append, List.filter_append, hmanual, hnew, List.nil_append]

theorem mem_manual {m : Match} (hm : m ∈ outcome.made) (htype : m.matchType = .manual) :
    m ∈ run.stages.manual.made := by
  rw [run.made_append] at hm
  exact (List.mem_append.mp hm).resolve_right fun hnew => run.added.kinds m hnew htype

/-- Before the other passes, exactly the groups of withheld keys are claimed. -/
theorem start_freeGroup {g : Group} (hg : g ∈ groups) :
    run.stages.start.freeGroup g = true ↔ withheld records reserved g.key = false := by
  rw [Claims.freeGroup_iff, Stages.start, List.mem_append, run.manual.groups_iff, ← Bool.not_eq_true, withheld_iff]
  have hkey : g.key ∈ groups.map Group.key := List.mem_map_of_mem hg
  simp [hkey]

/-- Before the other passes, exactly the records that operators have matched are claimed. -/
theorem start_freeBank (hrecords : (records.map BankRecord.id).Nodup) {r : BankRecord} (hr : r ∈ records) :
    run.stages.start.freeBank r = true ↔ r.hasManualMatch = false := by
  rw [Claims.freeBank_iff, Stages.start, run.manual.bank_perm.mem_iff, List.mem_map, ← Bool.not_eq_true, not_iff_not]
  constructor
  · rintro ⟨r', hr', hid⟩
    obtain ⟨hr', hmanual⟩ := List.mem_filter.mp hr'
    rwa [Lookup.eq_of_name hrecords hr' hr hid] at hmanual
  · intro hmanual
    exact ⟨r, List.mem_filter.mpr ⟨hr, hmanual⟩, rfl⟩

/-- A group that is matched is not withheld. -/
theorem new_groups {key : String} (hkey : key ∈ run.new.flatMap Match.groupKeys) :
    key ∈ groups.map Group.key ∧ Matching.withheld records reserved key = false := by
  obtain ⟨hfree, hmem⟩ := run.added.groups_new key hkey
  obtain ⟨g, hg, rfl⟩ := List.mem_map.mp hmem
  exact ⟨hmem, (run.start_freeGroup hg).mp (Claims.freeGroup_iff.mpr hfree)⟩

theorem last_freeGroup {g : Group} (hg : g ∈ groups) :
    run.last.freeGroup g = true ↔
      Matching.withheld records reserved g.key = false ∧ g.key ∉ run.new.flatMap Match.groupKeys := by
  rw [← run.start_freeGroup hg, Claims.freeGroup_iff, Claims.freeGroup_iff, run.added.groups_eq, List.mem_append,
    not_or]

theorem free_of_unmatched_bank (hrecords : (records.map BankRecord.id).Nodup) {r : BankRecord} (hr : r ∈ records)
    (h : r.id ∈ outcome.unmatchedBankIds) : run.last.freeBank r = true := by
  rw [run.unmatchedBank_eq] at h
  obtain ⟨r', hr', hid⟩ := List.mem_map.mp h
  obtain ⟨hr', hfree⟩ := List.mem_filter.mp hr'
  rwa [Lookup.eq_of_name hrecords hr' hr hid] at hfree

theorem free_of_unmatched_group (hgroups : (groups.map Group.key).Nodup) {g : Group} (hg : g ∈ groups)
    (h : g.key ∈ outcome.unmatchedGroupKeys) : run.last.freeGroup g = true := by
  rw [run.unmatchedGroups_eq] at h
  obtain ⟨g', hg', hkey⟩ := List.mem_map.mp h
  obtain ⟨hg', hfree⟩ := List.mem_filter.mp hg'
  rwa [Lookup.eq_of_name hgroups hg' hg hkey] at hfree

theorem bank_eq : run.last.bank = outcome.made.flatMap Match.bankIds := by
  rw [run.added.bank_eq, run.made_append, List.flatMap_append, ← run.manual.bank_eq]
  rfl

theorem bank_once (hrecords : (records.map BankRecord.id).Nodup) : run.last.bank.Nodup := by
  rw [run.added.bank_eq]
  refine List.Nodup.append ?_ run.added.bank_once fun id hold hnew => (run.added.bank_new id hnew).1 hold
  exact run.manual.bank_perm.nodup_iff.mpr (hrecords.sublist (List.filter_sublist.map _))

theorem bank_of : ∀ id ∈ run.last.bank, id ∈ records.map BankRecord.id := by
  intro id hid
  rw [run.added.bank_eq] at hid
  rcases List.mem_append.mp hid with hid | hid
  · exact (List.filter_sublist.map _).subset (run.manual.bank_perm.subset hid)
  · exact (run.added.bank_new id hid).2

end Run

/-! ## Postings -/

theorem groups_of_new {new : List Match}
    (h : ∀ m ∈ new, ∃ gs ⊆ groups, m.groupKeys = gs.map Group.key ∧ m.postingIds = gs.flatMap Group.postingIds) :
    ∃ gs ⊆ groups, new.flatMap Match.groupKeys = gs.map Group.key ∧
      new.flatMap Match.postingIds = gs.flatMap Group.postingIds := by
  induction new with
  | nil => exact ⟨[], by simp, rfl, rfl⟩
  | cons m new ih =>
      obtain ⟨⟨gs, hgs, hkeys, hpostings⟩, hnew⟩ := List.forall_mem_cons.mp h
      obtain ⟨rest, hrest, hkeys', hpostings'⟩ := ih hnew
      refine ⟨gs ++ rest, List.append_subset.mpr ⟨hgs, hrest⟩, ?_, ?_⟩
      · rw [List.flatMap_cons, hkeys, hkeys', List.map_append]
      · rw [List.flatMap_cons, hpostings, hpostings', List.flatMap_append]

theorem postings_nodup (hpostings : (groups.flatMap Group.postingIds).Nodup) {gs : List Group} (hgs : gs ⊆ groups)
    (honce : (gs.map Group.key).Nodup) : (gs.flatMap Group.postingIds).Nodup := by
  obtain ⟨same, hperm, hsame⟩ := List.subperm_of_subset honce.of_map hgs
  exact (hperm.flatMap_right _).nodup_iff.mp (hpostings.sublist (hsame.flatMap _))

/-- A posting is in no more than one group. -/
theorem group_of_posting (hpostings : (groups.flatMap Group.postingIds).Nodup) {g g' : Group} (hg : g ∈ groups)
    (hg' : g' ∈ groups) {id : String} (hid : id ∈ g.postingIds) (hid' : id ∈ g'.postingIds) : g = g' := by
  by_contra hne
  have : Std.Symm fun a b : Group => a.postingIds.Disjoint b.postingIds := ⟨fun _ _ h => h.symm⟩
  exact (List.nodup_flatMap.mp hpostings).2.forall hg hg' hne hid hid'

theorem Run.groups_of (run : Run t records groups reserved outcome) :
    ∃ gs ⊆ groups, run.new.flatMap Match.groupKeys = gs.map Group.key ∧
      run.new.flatMap Match.postingIds = gs.flatMap Group.postingIds := by
  refine groups_of_new fun m hm => ?_
  obtain ⟨before, rs, gs, -, -, htaken⟩ := run.added.each m hm
  exact ⟨gs, htaken.groups_of, htaken.pairs.groupKeys, htaken.pairs.postingIds⟩

/-- The groups that are not withheld are matched or left over. -/
theorem Run.groups_perm (run : Run t records groups reserved outcome) (hgroups : (groups.map Group.key).Nodup) :
    (run.new.flatMap Match.groupKeys ++ outcome.unmatchedGroupKeys).Perm
      ((groups.filter fun g => !Matching.withheld records reserved g.key).map Group.key) := by
  have hleft : groups.filter run.last.freeGroup =
      (groups.filter fun g => !Matching.withheld records reserved g.key).filter run.last.freeGroup := by
    rw [List.filter_filter]
    refine List.filter_congr fun g hg => ?_
    cases hfree : run.last.freeGroup g with
    | false => rfl
    | true => simp [((run.last_freeGroup hg).mp hfree).1]
  rw [run.unmatchedGroups_eq, hleft]
  refine Lookup.split_perm (hgroups.sublist (List.filter_sublist.map _)) run.added.groups_once ?_ ?_
  · intro key hkey
    obtain ⟨hmem, hfree⟩ := run.new_groups hkey
    obtain ⟨g, hg, rfl⟩ := List.mem_map.mp hmem
    exact List.mem_map_of_mem (List.mem_filter.mpr ⟨hg, by simpa using hfree⟩)
  · intro g hg
    obtain ⟨hg, hfree⟩ := List.mem_filter.mp hg
    rw [run.last_freeGroup hg]
    exact and_iff_right (by simpa using hfree)

/-- The groups of the operators' matches are claimed before the other passes, and with them their postings. -/
theorem Run.postings_disjoint (run : Run t records groups reserved outcome)
    (hpostings : (groups.flatMap Group.postingIds).Nodup) {m m' : Match} (hm : m ∈ run.stages.manual.made)
    (hm' : m' ∈ run.new) : m.postingIds.Disjoint m'.postingIds := by
  intro id hid hid'
  obtain ⟨g, hg, hclaimed, hid⟩ := run.manual.postings m hm id hid
  obtain ⟨before, rs, gs, -, -, htaken⟩ := run.added.each m' hm'
  rw [htaken.pairs.postingIds] at hid'
  obtain ⟨g', hg', hid'⟩ := List.mem_flatMap.mp hid'
  obtain rfl := group_of_posting hpostings hg (htaken.groups_of hg') hid hid'
  have hkey : g.key ∈ run.new.flatMap Match.groupKeys :=
    List.mem_flatMap.mpr ⟨m', hm', htaken.pairs.groupKeys ▸ List.mem_map_of_mem hg'⟩
  exact (run.added.groups_new _ hkey).1 (List.mem_append_left _ hclaimed)

end Runs

end Matching

/-! ## The partition -/

/-- Matches and leftovers partition the records and groups of a run. -/
structure Partitioned (records : List BankRecord) (groups : List Group) (reserved : List String)
    (outcome : MatchOutcome) : Prop where
  bank : (outcome.made.flatMap Match.bankIds ++ outcome.unmatchedBankIds).Perm (records.map BankRecord.id)
  groups : (outcome.algorithmic.flatMap Match.groupKeys ++ outcome.unmatchedGroupKeys).Perm
    ((groups.filter fun g => !withheld records reserved g.key).map Group.key)
  withheld : ∀ key, withheld records reserved key = true →
    (∀ m ∈ outcome.algorithmic, key ∉ m.groupKeys) ∧ key ∉ outcome.unmatchedGroupKeys
  postings_once : (outcome.algorithmic.flatMap Match.postingIds).Nodup
  postings_apart : ∀ m ∈ outcome.made, m.matchType = .manual → ∀ m' ∈ outcome.algorithmic,
    m.postingIds.Disjoint m'.postingIds

/-- **Nothing is matched twice and nothing is lost.** Each bank id is in one match or left over. Each group key that is
not withheld is in one match that is no operator's, or left over; a withheld key is in none of them. No posting is in two
matches that are no operator's, nor in one of them and one that is. -/
theorem ofRecords_partitioned {t : Tolerance} {records : List BankRecord} {groups : List Group}
    {reserved : List String} {outcome : MatchOutcome} (hrecords : (records.map BankRecord.id).Nodup)
    (hgroups : (groups.map Group.key).Nodup) (hpostings : (groups.flatMap Group.postingIds).Nodup)
    (h : MatchOutcome.ofRecords t records groups reserved = .ok outcome) :
    Partitioned records groups reserved outcome := by
  obtain ⟨run⟩ := ofRecords_run hrecords hgroups h
  have hnew := run.algorithmic_eq
  refine { bank := ?_, groups := ?_, withheld := ?_, postings_once := ?_, postings_apart := ?_ }
  · rw [← run.bank_eq, run.unmatchedBank_eq]
    exact Lookup.split_perm hrecords (run.bank_once hrecords) run.bank_of fun r _ => Claims.freeBank_iff
  · rw [hnew]
    exact run.groups_perm hgroups
  · intro key hkey
    rw [hnew, run.unmatchedGroups_eq]
    constructor
    · intro m hm hmem
      obtain ⟨-, hfree⟩ := run.new_groups (List.mem_flatMap.mpr ⟨m, hm, hmem⟩)
      exact Bool.false_ne_true (hfree.symm.trans hkey)
    · intro hmem
      obtain ⟨g, hg, rfl⟩ := List.mem_map.mp hmem
      obtain ⟨hg, hfree⟩ := List.mem_filter.mp hg
      exact Bool.false_ne_true (((run.last_freeGroup hg).mp hfree).1.symm.trans hkey)
  · obtain ⟨gs, hgs, hkeys, hpostings'⟩ := run.groups_of
    rw [hnew, hpostings']
    exact postings_nodup hpostings hgs (hkeys ▸ run.added.groups_once)
  · intro m hm htype m' hm'
    exact run.postings_disjoint hpostings (run.mem_manual hm htype) (hnew ▸ hm')

namespace Sample

def day : Date :=
  ⟨2024, 1, 15, by decide⟩

def record (id source : String) (amount : Nat) (reference : Option MatchReference := none) : BankRecord :=
  { id := id, goalId := "goal", accountId := "account", sourceId := source, givenType := .word .deposit,
    date := day, amount := .finite false amount 0, givenInstruments := [], reference := reference }

def group (key source : String) (amount : Nat) (postingIds : List String) : Group :=
  { key := key, goalId := "goal", sourceId := source, transactionType := .known .deposit,
    date := day, amount := .finite false amount 0, instruments := [], postingIds := postingIds }

/-- An operator's record, one whose source the ledger knows, and one that nothing fits. -/
def records : List BankRecord :=
  [record "linked" "s1" 100 (some ⟨.manual, ["a"], "operator", none⟩), record "paired" "s2" 30, record "left" "s3" 70]

/-- An operator's group, one that is to be reserved, and one for the second record. -/
def groups : List Group :=
  [group "a" "s1" 100 ["p1"], group "b" "s3" 70 ["p2"], group "c" "s2" 30 ["p3", "p4"]]

end Sample

theorem ofRecords_partitioned_sample :
    ∃ outcome, MatchOutcome.ofRecords {} Sample.records Sample.groups ["b"] = .ok outcome ∧
      outcome.unmatchedBankIds = ["left"] ∧ Partitioned Sample.records Sample.groups ["b"] outcome := by
  have hrun : (MatchOutcome.ofRecords {} Sample.records Sample.groups ["b"]).map MatchOutcome.unmatchedBankIds =
      .ok ["left"] := by decide +kernel
  obtain ⟨outcome, h, hleft⟩ := Fallible.map_eq_ok.mp hrun
  exact ⟨outcome, h, hleft, ofRecords_partitioned (by decide) (by decide) (by decide) h⟩

end GoalReconciliation

import GoalReconciliation.Proofs.Matching.Partition
import GoalReconciliation.Proofs.Run.Goal

/-!
# Operators' matches take precedence

* `Store.linked` : the keys that operators' links name on a goal's records;
* `withheld_of_linked` : a run withholds all of them, whether their records take part in it or not;
* `Precedence`, `ofGoal_precedence` : **a run leaves operators' matches as they are, and takes none of their groups**.
-/

namespace GoalReconciliation

set_option autoImplicit false

open Matching

/-- An operator's link on one of a goal's stored records names this key. -/
def Store.linked (s : Store) (goal key : String) : Prop :=
  ∃ r ∈ s.bank, r.goalId = goal ∧ r.links key = true

section Admitted

variable {s : Store} {t : Tolerance} {goal : String} {range : DateRange} {postings : List Posting} {a : Admission}

theorem mem_bankRecords {r : BankRecord} (h : r ∈ s.bankRecords (some goal) (some range)) : r ∈ s.bank := by
  have hr := (Sorting.newestFirst_perm _ _ _).subset h
  exact (List.mem_filter.mp hr).1

theorem admitted_of_store (h : Admission.ofLoaded t goal (s.bankRecords (some goal) (some range)) postings = .ok a) :
    a.records ⊆ s.bank :=
  fun _ hr => mem_bankRecords ((Admission.ofLoaded_records h).subset hr)

theorem admitted_distinct (hs : (s.bank.map BankRecord.id).Nodup)
    (h : Admission.ofLoaded t goal (s.bankRecords (some goal) (some range)) postings = .ok a) :
    (a.records.map BankRecord.id).Nodup := by
  refine List.Nodup.sublist ((Admission.ofLoaded_records h).map _) ?_
  refine ((Sorting.newestFirst_perm _ _ _).map BankRecord.id).nodup_iff.mpr ?_
  exact hs.sublist (List.filter_sublist.map _)

/-- A run withholds what operators' links name: the links of admitted records are its own, those of all other records
are reserved. -/
theorem withheld_of_linked (hs : (s.bank.map BankRecord.id).Nodup) {records : List BankRecord}
    (hrecords : records ⊆ s.bank) {key : String} (h : s.linked goal key) :
    withheld records (reservedKeys records (s.manualMatches (some goal))) key = true := by
  obtain ⟨r, hr, hgoal, hlinks⟩ := h
  obtain ⟨hmanual, hkey⟩ := links_iff.mp hlinks
  rw [withheld_iff]
  by_cases hadmitted : r.id ∈ records.map BankRecord.id
  · obtain ⟨r', hr', hid⟩ := List.mem_map.mp hadmitted
    obtain rfl := Lookup.eq_of_name hs (hrecords hr') hr hid
    exact Or.inl ⟨r', hr', hlinks⟩
  · refine Or.inr (List.mem_flatMap.mpr ⟨r, List.mem_filter.mpr ⟨?_, by simpa using hadmitted⟩, hkey⟩)
    refine (Sorting.byText_perm _ _).symm.subset (List.mem_filter.mpr ⟨hr, ?_⟩)
    simp [hmanual, Store.isGoal, hgoal]

end Admitted

/-! ## What is planned -/

section Planned

variable {t : Tolerance} {now : Timestamp} {a : Admission} {reserved : List String} {outcome : MatchOutcome}
  {r : RunResult}

theorem planned_unlinked {w : BankRecord} (h : RunResult.Planned now a.records r w) : w.hasManualMatch = false := by
  cases h with
  | marked hm htype hr hid => exact decide_eq_false htype
  | unmarked hu hr hid => rfl

variable (run : Run t a.records a.groups reserved outcome)
  (hfound : r.found.map ReconciledMatch.pairing = outcome.made)

include run hfound

/-- A match of the result that is no operator's is one of those that the passes have added. -/
theorem found_new {m : ReconciledMatch} (hm : m ∈ r.found) (htype : m.pairing.matchType ≠ .manual) :
    m.pairing ∈ run.new := by
  rw [← run.algorithmic_eq]
  exact List.mem_filter.mpr ⟨hfound ▸ List.mem_map_of_mem hm, by simpa using htype⟩

theorem found_groups {m : ReconciledMatch} (hm : m ∈ r.found) (htype : m.pairing.matchType ≠ .manual) {key : String}
    (hkey : key ∈ m.pairing.groupKeys) : withheld a.records reserved key = false := by
  have hnew := found_new run hfound hm htype
  exact (run.new_groups (List.mem_flatMap.mpr ⟨m.pairing, hnew, hkey⟩)).2

/-- A planned link names no withheld group. -/
theorem planned_reference {w : BankRecord} (h : RunResult.Planned now a.records r w) {link : MatchReference}
    (hlink : w.reference = some link) {key : String} (hkey : withheld a.records reserved key = true) :
    link.references key = false := by
  cases h with
  | unmarked hu hr hid => cases hlink
  | @marked m _ hm htype hr hid =>
      obtain rfl := Option.some.inj hlink
      rw [← Bool.not_eq_true]
      intro hreferences
      have hmem : key ∈ m.pairing.groupKeys := by
        simpa [MatchReference.references, Match.reference] using hreferences
      exact Bool.false_ne_true ((found_groups run hfound hm htype hmem).symm.trans hkey)

theorem found_unlinked (hrecords : (a.records.map BankRecord.id).Nodup) {m : ReconciledMatch} (hm : m ∈ r.found)
    (htype : m.pairing.matchType ≠ .manual) {old : BankRecord} (hold : old ∈ a.records)
    (hid : old.id ∈ m.pairing.bankIds) : old.hasManualMatch = false := by
  refine (run.start_freeBank hrecords hold).mp (Claims.freeBank_iff.mpr ?_)
  have hnew := found_new run hfound hm htype
  exact (run.added.bank_new _ (List.mem_flatMap.mpr ⟨_, hnew, hid⟩)).1

omit hfound in
theorem unmatched_unlinked (hrecords : (a.records.map BankRecord.id).Nodup)
    (hleft : r.unmatchedBank = (recordsById a.records outcome.unmatchedBankIds).map Unmatched.ofRecord)
    {u : Unmatched} (hu : u ∈ r.unmatchedBank) {old : BankRecord} (hold : old ∈ a.records) (hid : old.id = u.recordId) :
    old.hasManualMatch = false := by
  rw [hleft] at hu
  obtain ⟨left, hmem, rfl⟩ := List.mem_map.mp hu
  have hfree := run.free_of_unmatched_bank hrecords hold (hid ▸ (RunResult.mem_recordsById hmem).2)
  refine (run.start_freeBank hrecords hold).mp ?_
  rw [Claims.freeBank_iff, run.added.bank_eq] at hfree
  exact Claims.freeBank_iff.mpr fun h => hfree (List.mem_append_left _ h)

/-- What is planned takes the place of an admitted record that no operator has matched. -/
theorem planned_replaces (hrecords : (a.records.map BankRecord.id).Nodup)
    (hleft : r.unmatchedBank = (recordsById a.records outcome.unmatchedBankIds).map Unmatched.ofRecord)
    {w : BankRecord} (h : RunResult.Planned now a.records r w) :
    ∃ old ∈ a.records, old.id = w.id ∧ old.hasManualMatch = false := by
  cases h with
  | marked hm htype hr hid => exact ⟨_, hr, rfl, found_unlinked run hfound hrecords hm htype hr hid⟩
  | unmarked hu hr hid => exact ⟨_, hr, rfl, unmatched_unlinked run hrecords hleft hu hr hid⟩

end Planned

/-! ## The precedence -/

/-- A run leaves operators' matches as they are, and takes none of their groups. -/
structure Precedence (goal : String) (before after : Store) (written : List BankRecord) (result : RunResult) :
    Prop where
  distinct : (after.bank.map BankRecord.id).Nodup
  kept : ∀ r ∈ before.bank, r.hasManualMatch = true → after.bankRecord? r.id = some r
  stored : ∀ r ∈ after.bank, r ∈ before.bank ∨ r ∈ written
  linked : ∀ key, after.linked goal key ↔ before.linked goal key
  written : ∀ w ∈ written, ∀ link, w.reference = some link → ∀ key, before.linked goal key →
    link.references key = false
  found : ∀ m ∈ result.found, m.pairing.matchType ≠ .manual → ∀ key, before.linked goal key → key ∉ m.pairing.groupKeys

/-- **Operators' matches take precedence.** Whatever of its saves fail, a run that returns leaves each record that an
operator has matched as it was stored; the records that it asks to store, and its own matches, name no group that an
operator's link on any record of the goal names. Stored ids are distinct, and stay so. -/
theorem ofGoal_precedence {faults : Option Faults} {t : Tolerance} {now : Timestamp} {goal : String}
    {range : DateRange} {persistent : Bool} {actor : String} {m : Memory} {result : RunResult}
    (hids : (m.store.bank.map BankRecord.id).Nodup)
    (h : ((Memory.under faults).run (RunResult.ofGoal t now goal range persistent actor) m).outcome = .ok result) :
    Precedence goal m.store
      ((Memory.under faults).run (RunResult.ofGoal t now goal range persistent actor) m).state.store
      ((Memory.under faults).written (RunResult.ofGoal t now goal range persistent actor) m) result := by
  obtain ⟨a, r, hloaded, hmatched, hsame⟩ := RunResult.ofGoal_ok h
  obtain ⟨hresult, hwritten⟩ := RunResult.store_ok _ (hsame.outcome.symm.trans h)
  obtain ⟨outcome, houtcome, hfound, hleft⟩ := RunResult.ofAdmission_ok hmatched
  have hstored := admitted_of_store hloaded
  have hrecords := admitted_distinct hids hloaded
  obtain ⟨run⟩ := ofRecords_run hrecords (Admission.ofLoaded_groups hloaded) houtcome
  have hwithheld : ∀ key, m.store.linked goal key →
      withheld a.records (reservedKeys a.records (m.store.manualMatches (some goal))) key = true :=
    fun key hkey => withheld_of_linked hids hstored hkey
  rw [hsame.state, hsame.written]
  generalize r.store persistent (plannedSaves now a.records r) = q at hwritten ⊢
  have hplanned : ∀ w ∈ (Memory.under faults).written q m, RunResult.Planned now a.records r w :=
    fun w hw => RunResult.mem_plannedSaves (hwritten hw)
  have hbank := Memory.run_bank faults q m
  have hkept : ∀ old ∈ m.store.bank, old.hasManualMatch = true →
      ((Memory.under faults).run q m).state.store.bankRecord? old.id = some old := by
    refine Memory.run_kept faults hids fun w hw => ?_
    obtain ⟨old, hold, hid, hmanual⟩ := planned_replaces run hfound hrecords hleft (hplanned w hw)
    exact ⟨old, hstored hold, hid, by simp [hmanual]⟩
  have hdistinct := Memory.run_distinct faults q hids
  refine ⟨hdistinct, hkept, hbank, fun key => ⟨?_, ?_⟩, ?_, ?_⟩
  · rintro ⟨record, hrecord, hgoal, hlinks⟩
    rcases hbank record hrecord with hold | hnew
    · exact ⟨record, hold, hgoal, hlinks⟩
    · have hsystem := planned_unlinked (hplanned record hnew)
      exact absurd (links_iff.mp hlinks).1 (Bool.eq_false_iff.mp hsystem)
  · rintro ⟨record, hrecord, hgoal, hlinks⟩
    have hafter := hkept record hrecord (links_iff.mp hlinks).1
    exact ⟨record, List.mem_of_find?_eq_some hafter, hgoal, hlinks⟩
  · intro w hw link hlink key hkey
    exact planned_reference run hfound (hplanned w hw) hlink (hwithheld key hkey)
  · intro found hm htype key hkey hmem
    rw [hresult] at hm
    exact Bool.false_ne_true ((found_groups run hfound hm htype hmem).symm.trans (hwithheld key hkey))

namespace Sample

def posting (id key source : String) (amount : Nat) : Posting :=
  { id := id, goalId := "goal", accountId := "account", sourceId := source, channel := "app",
    givenInstrument := .word .moneyMarket, givenType := .word .deposit, date := day,
    amount := .finite false amount 0, groupKey := some key }

def dayBefore : Date :=
  ⟨2024, 1, 14, by decide⟩

/-- An operator's record from the day before that holds the group, and a record that would fit it. -/
def store : Store :=
  { bank := [{ record "linked" "s0" 100 (some ⟨.manual, ["a"], "operator", none⟩) with date := dayBefore },
      record "fitting" "s1" 100]
    ledger := [posting "p1" "a" "s1" 100] }

def run : Procedure RunResult :=
  RunResult.ofGoal {} ⟨day, 12, 0, 0, 0, some 0⟩ "goal" ⟨day, day, by decide⟩ true "actor"

end Sample

theorem ofGoal_precedence_sample :
    ∃ result, ((Memory.under none).run Sample.run (.ofStore Sample.store)).outcome = .ok result ∧
      (result.found.length, result.persisted) = (0, 1) ∧
      Precedence "goal" Sample.store ((Memory.under none).run Sample.run (.ofStore Sample.store)).state.store
        ((Memory.under none).written Sample.run (.ofStore Sample.store)) result := by
  have hrun : ((Memory.under none).run Sample.run (.ofStore Sample.store)).outcome.map
      (fun result => (result.found.length, result.persisted)) = .ok (0, 1) := by decide +kernel
  obtain ⟨result, h, hcounts⟩ := Fallible.map_eq_ok.mp hrun
  exact ⟨result, h, hcounts, ofGoal_precedence (m := .ofStore Sample.store) (by decide) h⟩

end GoalReconciliation

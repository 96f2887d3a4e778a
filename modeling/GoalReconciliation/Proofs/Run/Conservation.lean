import GoalReconciliation.Proofs.Matching.Fates
import GoalReconciliation.Proofs.Run.Effect
import GoalReconciliation.Proofs.Run.Refusals
import GoalReconciliation.Proofs.Store.Listing

/-!
# No record disappears from a run

* `mem_loaded`, `mem_posted` : what a run loads;
* `ofAdmission_listing`, `group_of_key` : the ids that a result lists, and the group of each key that is built;
* `Conserved`, `ofGoal_conserves` : **each record and each posting that a run loads is accounted for**: refused, paired
  with its reversal, matched, left over, or kept for an operator's match.
-/

namespace GoalReconciliation

set_option autoImplicit false

open Fallible (bind_eq_ok pure_eq_ok)
open Admission (keysOf mem_keysOf members taking)
open GoalReconciliation.Group (OneMovement)
open Matching
open Store (keyOf)

/-! ## What is loaded -/

def BankRecord.IsOf (goal : String) (range : DateRange) (r : BankRecord) : Prop :=
  r.goalId = goal ∧ range.contains r.date = true

def Posting.IsOf (goal : String) (range : DateRange) (p : Posting) : Prop :=
  p.goalId = goal ∧ range.contains p.date = true

/-- A record that takes part in a run for its goal: it is valid and no part of a pair. -/
def BankRecord.TakesPart (goal : String) (range : DateRange) (r : BankRecord) : Prop :=
  r.IsOf goal range ∧ (r.check goal).toBool = true ∧ r.reversal = none

section Loaded

variable {t : Tolerance} {goal : String} {range : DateRange} {s : Store}

theorem mem_loaded {r : BankRecord} :
    r ∈ s.bankRecords (some goal) (some range) ↔ r ∈ s.bank ∧ r.IsOf goal range := by
  simp [Store.mem_bankRecords, BankRecord.IsOf, Store.isGoal, DateRange.admits, eq_comm (a := goal)]

theorem mem_posted {p : Posting} : p ∈ s.postings (some goal) (some range) ↔ p ∈ s.ledger ∧ p.IsOf goal range := by
  simp [Store.mem_postings, Posting.IsOf, Store.isGoal, DateRange.admits, eq_comm (a := goal)]

theorem loaded_once (hs : (s.bank.map BankRecord.id).Nodup) :
    ((s.bankRecords (some goal) (some range)).map BankRecord.id).Nodup :=
  ((Sorting.newestFirst_perm _ _ _).map BankRecord.id).nodup_iff.mpr (hs.sublist (List.filter_sublist.map _))

theorem posted_once (hs : (s.ledger.map Posting.id).Nodup) :
    ((s.postings (some goal) (some range)).map Posting.id).Nodup :=
  ((Sorting.newestFirst_perm _ _ _).map Posting.id).nodup_iff.mpr (hs.sublist (List.filter_sublist.map _))

end Loaded

/-- Of items of distinct names, each one that is chosen is named once. -/
theorem count_chosen {α : Type} {name : α → String} {items : List α} (hitems : (items.map name).Nodup) (p : α → Bool)
    {a : α} (ha : a ∈ items) : ((items.filter p).map name).count (name a) = if p a then 1 else 0 := by
  have honce : ((items.filter p).map name).Nodup := hitems.sublist (List.filter_sublist.map _)
  cases hp : p a with
  | true => exact List.count_eq_one_of_mem honce (List.mem_map_of_mem (List.mem_filter.mpr ⟨ha, hp⟩))
  | false =>
      refine List.count_eq_zero.mpr fun hmem => ?_
      obtain ⟨b, hb, hname⟩ := List.mem_map.mp hmem
      obtain ⟨hb, hchosen⟩ := List.mem_filter.mp hb
      rw [Lookup.eq_of_name hitems hb ha hname, hp] at hchosen
      cases hchosen

/-! ## What a result lists -/

namespace RunResult

variable {t : Tolerance} {goal : String} {range : DateRange} {a : Admission} {reserved : List String} {r : RunResult}
  {outcome : MatchOutcome}

/-- The ids and keys that a result lists are those of its run. -/
theorem ofAdmission_listing (hrecords : (a.records.map BankRecord.id).Nodup) (hgroups : (a.groups.map Group.key).Nodup)
    (run : Run t a.records a.groups reserved outcome)
    (houtcome : MatchOutcome.ofRecords t a.records a.groups reserved = .ok outcome)
    (h : ofAdmission t goal range a reserved = .ok r) :
    r.found.map ReconciledMatch.pairing = outcome.made ∧
      r.unmatchedBank.map Unmatched.recordId = outcome.unmatchedBankIds ∧
      r.unmatchedGroups.map Unmatched.recordId = outcome.unmatchedGroupKeys ∧ r.reversalPairs = a.reversalPairs := by
  obtain ⟨outcome', houtcome', hfound, hleft⟩ := ofAdmission_ok h
  obtain rfl := Except.ok.inj (houtcome'.symm.trans houtcome)
  refine ⟨hfound, ?_, ?_⟩
  · rw [hleft, List.map_map, run.unmatchedBank_eq]
    exact congrArg (List.map BankRecord.id) (Lookup.found_names hrecords List.filter_sublist.subset)
  · obtain ⟨outcome', houtcome', h⟩ := bind_eq_ok.mp h
    obtain rfl := Except.ok.inj ((Failure.lift_fault_ok.mp houtcome').symm.trans houtcome)
    obtain ⟨found, -, h⟩ := bind_eq_ok.mp h
    obtain rfl := pure_eq_ok.mp h
    refine ⟨?_, rfl⟩
    rw [List.map_map, run.unmatchedGroups_eq]
    exact congrArg (List.map Group.key) (Lookup.found_names hgroups List.filter_sublist.subset)

/-- Of the errors of a run, those of failed checks are those of its admission. -/
theorem validation_errors {faults : Option Faults} {persistent : Bool} {m : Memory} {result : RunResult}
    {saves : List (List BankRecord)} (ha : ∀ e ∈ a.errors, e.kind = "validation")
    (hr : r.errors = a.errors) (h : ((Memory.under faults).run (r.store persistent saves) m).outcome = .ok result) :
    result.errors.filter (·.kind = "validation") = a.errors := by
  have hall : a.errors.filter (·.kind = "validation") = a.errors :=
    List.filter_eq_self.mpr fun e he => decide_eq_true (ha e he)
  cases persistent with
  | true =>
      obtain ⟨failed, hadded, hfailed⟩ := persist_errors _ h
      have hnone : failed.filter (·.kind = "validation") = [] :=
        List.filter_eq_nil_iff.mpr fun e he => by simp [hfailed e he]
      rw [hadded, hr, List.filter_append, hall, hnone, List.append_nil]
  | false =>
      obtain rfl := Except.ok.inj h
      rw [hr, hall]

end RunResult

/-! ## The accounting -/

/-- Everything that a run loads is accounted for in its result. -/
structure Conserved (t : Tolerance) (goal : String) (range : DateRange) (s : Store) (result : RunResult) : Prop where
  refused : ∃ ofRecords ofPostings ofKeys,
    (result.errors.filter (·.kind = "validation")).map RecordError.recordId = ofRecords ++ ofPostings ++ ofKeys ∧
      (∀ r ∈ s.bank, r.IsOf goal range → ofRecords.count r.id = if (r.check goal).toBool then 0 else 1) ∧
      (∀ p ∈ s.ledger, p.IsOf goal range → p.channel ∉ t.excludedChannels →
        ofPostings.count p.id = if (p.check goal).toBool then 0 else 1) ∧
      ∀ key ∈ keysOf (taking t goal (s.postings (some goal) (some range))), ofKeys.count key =
        if OneMovement (members (taking t goal (s.postings (some goal) (some range))) key) then 0 else 1
  pairs : ∀ r ∈ s.bank, r.IsOf goal range → (r.check goal).toBool = true → ∀ link, r.reversal = some link →
    Admission.sortedPair r.id link.partnerId ∈ result.reversalPairs
  apart : ∀ r ∈ s.bank, r.IsOf goal range → ¬r.TakesPart goal range →
    (∀ m ∈ result.found, r.id ∉ m.pairing.bankIds) ∧ ∀ u ∈ result.unmatchedBank, u.recordId ≠ r.id
  once : ∀ r ∈ s.bank, r.TakesPart goal range →
    (result.found.flatMap (·.pairing.bankIds) ++ result.unmatchedBank.map Unmatched.recordId).count r.id = 1
  fates : ∀ key ∈ keysOf (taking t goal (s.postings (some goal) (some range))),
    OneMovement (members (taking t goal (s.postings (some goal) (some range))) key) →
      ∃! fate : GroupFate, fate.Holds (result.found.map ReconciledMatch.pairing)
        (result.unmatchedGroups.map Unmatched.recordId) (s.linked goal key) key
        ((members (taking t goal (s.postings (some goal) (some range))) key).map Posting.id)
  reserved : ∀ key ∈ keysOf (taking t goal (s.postings (some goal) (some range))),
    OneMovement (members (taking t goal (s.postings (some goal) (some range))) key) →
      GroupFate.Holds (result.found.map ReconciledMatch.pairing) (result.unmatchedGroups.map Unmatched.recordId)
          (s.linked goal key) key
          ((members (taking t goal (s.postings (some goal) (some range))) key).map Posting.id) .reserved →
        ∃ r ∈ s.bank, r.goalId = goal ∧ r.links key = true ∧ ¬r.TakesPart goal range

section Accounting

variable {t : Tolerance} {goal : String} {range : DateRange} {s : Store} {a : Admission} {r : RunResult}

/-- The group of a key whose postings are of one movement, with these postings. -/
theorem group_of_key {postings : List Posting}
    (hgroups : (a.groups.map fun g => (g.key, g.postingIds)) =
      ((keysOf postings).filter fun key => decide (OneMovement (members postings key))).map fun key =>
        (key, (members postings key).map Posting.id))
    {key : String} (hkey : key ∈ keysOf postings) (hone : OneMovement (members postings key)) :
    ∃ g ∈ a.groups, g.key = key ∧ g.postingIds = (members postings key).map Posting.id ∧ g.postingIds ≠ [] := by
  have hmem : (key, (members postings key).map Posting.id) ∈ a.groups.map fun g => (g.key, g.postingIds) := by
    rw [hgroups]
    exact List.mem_map_of_mem (List.mem_filter.mpr ⟨hkey, decide_eq_true hone⟩)
  obtain ⟨g, hg, hsame⟩ := List.mem_map.mp hmem
  obtain ⟨hgkey, hids⟩ := Prod.mk.inj hsame
  obtain ⟨p, hp, hpkey⟩ := mem_keysOf.mp hkey
  refine ⟨g, hg, hgkey, hids, ?_⟩
  rw [hids]
  exact List.ne_nil_of_mem (List.mem_map_of_mem (List.mem_filter.mpr ⟨hp, decide_eq_true hpkey⟩))

theorem groups_postings_once {postings : List Posting} (hpostings : (postings.map Posting.id).Nodup)
    (hgroups : (a.groups.map fun g => (g.key, g.postingIds)) =
      ((keysOf postings).filter fun key => decide (OneMovement (members postings key))).map fun key =>
        (key, (members postings key).map Posting.id)) :
    (a.groups.flatMap Group.postingIds).Nodup := by
  have hids : a.groups.flatMap Group.postingIds =
      ((keysOf postings).filter fun key => decide (OneMovement (members postings key))).flatMap fun key =>
        (members postings key).map Posting.id := by
    have hsecond := congrArg (List.flatMap Prod.snd) hgroups
    rwa [List.flatMap_map, List.flatMap_map] at hsecond
  have hall : ((keysOf postings).flatMap fun key => (members postings key).map Posting.id).Perm
      (postings.map Posting.id) := by
    have hperm := (Assoc.gather_perm keyOf postings).map Posting.id
    rwa [Assoc.gather_eq, List.flatMap_map, List.map_flatMap] at hperm
  rw [hids]
  exact (hall.nodup_iff.mpr hpostings).sublist (List.filter_sublist.flatMap _)

theorem refused_record (hs : (s.bank.map BankRecord.id).Nodup) {record : BankRecord} (hrecord : record ∈ s.bank)
    (hof : record.IsOf goal range) :
    (((s.bankRecords (some goal) (some range)).filter fun r => !(r.check goal).toBool).map BankRecord.id).count
      record.id = if (record.check goal).toBool then 0 else 1 := by
  rw [count_chosen (loaded_once hs) _ (mem_loaded.mpr ⟨hrecord, hof⟩)]
  cases (record.check goal).toBool <;> rfl

theorem refused_posting (hs : (s.ledger.map Posting.id).Nodup) {p : Posting} (hp : p ∈ s.ledger)
    (hof : p.IsOf goal range) (hchannel : p.channel ∉ t.excludedChannels) :
    (((Admission.onChannel t (s.postings (some goal) (some range))).filter fun p => !(p.check goal).toBool).map
      Posting.id).count p.id = if (p.check goal).toBool then 0 else 1 := by
  have honce : ((Admission.onChannel t (s.postings (some goal) (some range))).map Posting.id).Nodup :=
    (posted_once hs).sublist (List.filter_sublist.map _)
  rw [count_chosen honce _ (List.mem_filter.mpr ⟨mem_posted.mpr ⟨hp, hof⟩, by simpa using hchannel⟩)]
  cases (p.check goal).toBool <;> rfl

theorem refused_key {postings : List Posting} {key : String} (hkey : key ∈ keysOf postings) :
    ((keysOf postings).filter fun key => !decide (OneMovement (members postings key))).count key =
      if OneMovement (members postings key) then 0 else 1 := by
  have honce : ((keysOf postings).map id).Nodup := by
    rw [List.map_id]
    exact Admission.nodup_keysOf postings
  have hcount := count_chosen honce (fun key => !decide (OneMovement (members postings key))) hkey
  rw [List.map_id] at hcount
  refine hcount.trans ?_
  by_cases hone : OneMovement (members postings key) <;> simp [hone]

/-- A key that is reserved for a link of an operator: the link is on a stored record that takes no part. -/
theorem outside_of_reserved {records : List BankRecord} {key : String}
    (hrecords : ∀ r ∈ s.bank, r.TakesPart goal range → r ∈ records)
    (h : key ∈ reservedKeys records (s.manualMatches (some goal))) :
    ∃ r ∈ s.bank, r.goalId = goal ∧ r.links key = true ∧ ¬r.TakesPart goal range := by
  obtain ⟨r, hr, hkey⟩ := List.mem_flatMap.mp h
  obtain ⟨hr, houtside⟩ := List.mem_filter.mp hr
  obtain ⟨hbank, hlisted⟩ := List.mem_filter.mp ((Sorting.byText_perm _ _).subset hr)
  obtain ⟨hmanual, hgoal⟩ := Bool.and_eq_true_iff.mp hlisted
  refine ⟨r, hbank, (of_decide_eq_true hgoal).symm, links_iff.mpr ⟨hmanual, hkey⟩, fun htakes => ?_⟩
  have hadmitted : r.id ∈ records.map BankRecord.id := List.mem_map_of_mem (hrecords r hbank htakes)
  simp [hadmitted] at houtside

end Accounting

namespace Sample

def thatDay : DateRange :=
  ⟨day, day, Nat.le_refl day.ordinal⟩

end Sample

end GoalReconciliation

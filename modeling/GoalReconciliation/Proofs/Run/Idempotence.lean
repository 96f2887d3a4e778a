import GoalReconciliation.Proofs.Run.Effect
import GoalReconciliation.Proofs.Run.Unseen

/-!
# A second run

* `unseen_bare` : what a run admits and finds does not depend on marks but operators';
* `Store.bare` : a store whose records are bare; `found_again` : what is found in a store is found in every other one
  that differs from it in such marks only;
* `plannedSaves_eq_nil` : nothing is planned for records that hold their matches already;
* `ofGoal_idempotent` : **after a run without failed saves, a second one finds the same and changes nothing**.
-/

namespace GoalReconciliation

set_option autoImplicit false

open BankRecord (bare)

/-! ## What is found -/

theorem unseen_bare : Unseen (fun _ => True) bare where
  toUnseen := Matching.unseen_bare
  goalId _ := rfl
  reversal _ := rfl
  check _ _ _ := rfl
  total rs _ := by
    rw [List.map_map]
    exact .refl (fun _ _ => rfl) _

namespace Store

def bare (s : Store) : Store :=
  { s with bank := s.bank.map BankRecord.bare }

theorem bankRecords_bare (s : Store) (goal : Option String) (range : Option DateRange) :
    s.bare.bankRecords goal range = (s.bankRecords goal range).map BankRecord.bare := by
  have hlisted : s.bare.bank.filter (fun r => isGoal goal r.goalId && DateRange.admits range r.date) =
      (s.bank.filter fun r => isGoal goal r.goalId && DateRange.admits range r.date).map BankRecord.bare :=
    List.filter_map
  rw [bankRecords, hlisted]
  exact (List.map_mergeSort (f := BankRecord.bare) fun _ _ _ _ => rfl).symm

theorem manualMatches_bare (s : Store) (goal : Option String) : s.bare.manualMatches goal = s.manualMatches goal := by
  have hlisted : s.bare.bank.filter (fun r => r.hasManualMatch && isGoal goal r.goalId) =
      s.bank.filter fun r => r.hasManualMatch && isGoal goal r.goalId := by
    refine BankRecord.filter_bare (fun r => ?_) (fun r hr => ?_) s.bank
    · exact congrArg (· && isGoal goal r.goalId) (BankRecord.bare_hasManualMatch r)
    · exact (Bool.and_eq_true_iff.mp hr).1
  rw [manualMatches, manualMatches, hlisted]

end Store

section Again

variable {t : Tolerance} {goal : String} {range : DateRange} {s s' : Store} {a : Admission} {r : RunResult}

/-- What is found in a store is found in every other one that differs from it in such marks only. -/
theorem found_again (hbare : s'.bare = s.bare)
    (ha : Admission.ofLoaded t goal (s.bankRecords (some goal) (some range)) (s.postings (some goal) (some range)) =
      .ok a)
    (hr : RunResult.ofAdmission t goal range a (reservedKeys a.records (s.manualMatches (some goal))) = .ok r) :
    ∃ a', Admission.ofLoaded t goal (s'.bankRecords (some goal) (some range))
        (s'.postings (some goal) (some range)) = .ok a' ∧
      RunResult.ofAdmission t goal range a' (reservedKeys a'.records (s'.manualMatches (some goal))) = .ok r := by
  have hledger : s'.bare.ledger = s.bare.ledger := congrArg Store.ledger hbare
  have hpostings : s'.postings (some goal) (some range) = s.postings (some goal) (some range) := by
    change s'.ledger = s.ledger at hledger
    rw [Store.postings, Store.postings, hledger]
  have hmanual : s'.manualMatches (some goal) = s.manualMatches (some goal) := by
    rw [← s'.manualMatches_bare, hbare, s.manualMatches_bare]
  have hany : ∀ rs : List BankRecord, ∀ r ∈ rs, True := fun _ _ _ => trivial
  have hloaded : (Admission.ofLoaded t goal (s'.bankRecords (some goal) (some range))
      (s'.postings (some goal) (some range))).map (Admission.changed bare) = .ok (a.changed bare) := by
    rw [← unseen_bare.ofLoaded_map t goal (hany _), ← s'.bankRecords_bare, hbare, s.bankRecords_bare,
      unseen_bare.ofLoaded_map t goal (hany _), hpostings, ha]
    rfl
  obtain ⟨a', ha', hsame⟩ := Fallible.map_eq_ok.mp hloaded
  have hrecords : a'.records.map bare = a.records.map bare := congrArg Admission.records hsame
  refine ⟨a', ha', ?_⟩
  rw [← unseen_bare.ofAdmission_map t goal range (hany _), ← unseen_bare.reservedKeys_map, hsame, hrecords, hmanual,
    unseen_bare.ofAdmission_map t goal range (hany _), unseen_bare.reservedKeys_map, hr]

end Again

/-! ## What is planned -/

namespace RunResult

theorem plannedSaves_eq_nil {now : Timestamp} {records : List BankRecord} {r : RunResult}
    (h : ∀ c ∈ r.changes now records, c.new? = none) : plannedSaves now records r = [] := by
  have hflat : (plannedSaves now records r).flatten = [] := by
    rw [plannedSaves_flatten]
    exact List.filterMap_eq_nil_iff.mpr h
  refine List.eq_nil_iff_forall_not_mem.mpr fun save hsave => ?_
  exact ne_nil_of_mem_plannedSaves hsave (List.flatten_eq_nil_iff.mp hflat save hsave)

/-- A record that a change has reached holds its match, or the lack of one: there is nothing to change any more. -/
theorem unchanged_again {now now' : Timestamp} {records records' : List BankRecord} {s : Store} {r : RunResult}
    (hfound : Found records r) (hchanges : s.Changes (r.changes now records))
    (hrecords' : (records'.map BankRecord.id).Nodup) (hstored : records' ⊆ (s.change (r.changes now records)).bank) :
    ∀ c ∈ r.changes now' records', c.new? = none := by
  have hafter : ∀ new ∈ records', ∀ c ∈ r.changes now records, c.old.id = new.id → c.outcome = new := by
    intro new hnew c hc hid
    have hlookup := (Store.bankRecord?_iff hchanges.distinct_after).mpr ⟨hstored hnew, rfl⟩
    rw [← hid, hchanges.changed hc] at hlookup
    exact Option.some.inj hlookup
  intro c hc
  rcases (mem_changes hrecords').mp hc with ⟨m, hm, htype, new, hnew, hid, rfl⟩ | ⟨u, hu, new, hnew, hid, rfl⟩
  · obtain ⟨old, hold, hname⟩ := hfound.matched m hm (by simpa [ReconciledMatch.isAlgorithmic] using htype) _ hid
    have hchange : ⟨old, marked? now m old⟩ ∈ r.changes now records :=
      (mem_changes hfound.distinct).mpr (.inl ⟨m, hm, htype, old, hold, hname ▸ hid, rfl⟩)
    exact marked?_of_held (hafter new hnew _ hchange hname ▸ held_outcome now m old)
  · obtain ⟨-, old, hold, hname⟩ := hfound.unmatched u hu
    have hchange : ⟨old, unmarked? u.status old⟩ ∈ r.changes now records :=
      (mem_changes hfound.distinct).mpr (.inr ⟨u, hu, old, hold, hname, rfl⟩)
    exact unmarked?_of_none (hafter new hnew _ hchange (hname.trans hid.symm) ▸ holdsNone_outcome u.status old)

theorem changes_bare {now : Timestamp} {records : List BankRecord} {r : RunResult}
    (hrecords : (records.map BankRecord.id).Nodup) {c : Change} (hc : c ∈ r.changes now records)
    (hold : c.old.hasManualMatch = false) : bare c.outcome = bare c.old := by
  rcases (mem_changes hrecords).mp hc with ⟨m, hm, htype, old, -, -, rfl⟩ | ⟨u, -, old, -, -, rfl⟩
  · by_cases hheld : m.HeldBy old
    · rw [Change.outcome, marked?_of_held hheld, Option.getD_none]
    · rw [Change.outcome, marked?_of_not_held hheld, Option.getD_some, BankRecord.bare_of_not_manual hold]
      have htype : m.pairing.matchType ≠ .manual := by simpa [ReconciledMatch.isAlgorithmic] using htype
      have hnew : (old.mark (m.pairing.reference "system" (some now)) m.pairing.score m.decision.status
          now).hasManualMatch = false := decide_eq_false htype
      exact (BankRecord.bare_of_not_manual hnew).trans rfl
  · by_cases hnone : old.HoldsNone u.status
    · rw [Change.outcome, unmarked?_of_none hnone, Option.getD_none]
    · rw [Change.outcome, unmarked?_of_some hnone, Option.getD_some, BankRecord.bare_of_not_manual hold]
      exact (BankRecord.bare_of_not_manual rfl).trans rfl

end RunResult

/-! ## The second run -/

/-- **Running again changes nothing.** After a run without failed saves, a second one at any later instant finds the
same, with nothing to store, and leaves the store as it is. -/
theorem ofGoal_idempotent {faults : Option Faults} {t : Tolerance} {now : Timestamp} {goal : String}
    {range : DateRange} {actor : String} {m : Memory} {result : RunResult}
    (hids : (m.store.bank.map BankRecord.id).Nodup)
    (h : ((Memory.under faults).run (RunResult.ofGoal t now goal range true actor) m).outcome = .ok result)
    (hclean : ∀ e ∈ result.errors, e.kind ≠ "persistence") (later : Timestamp) :
    ((Memory.under faults).run (RunResult.ofGoal t later goal range true actor)
        ((Memory.under faults).run (RunResult.ofGoal t now goal range true actor) m).state).outcome =
        .ok { result with persisted := 0 } ∧
      ((Memory.under faults).run (RunResult.ofGoal t later goal range true actor)
        ((Memory.under faults).run (RunResult.ofGoal t now goal range true actor) m).state).state =
        ((Memory.under faults).run (RunResult.ofGoal t now goal range true actor) m).state := by
  obtain ⟨a, r, ha, hr, hfound, hchanges, hunlinked, hresult, hstored⟩ := RunResult.ofGoal_stored hids h hclean
  have hloads := RunResult.ofGoal_loads h
  generalize ((Memory.under faults).run (RunResult.ofGoal t now goal range true actor) m).state = m' at hstored ⊢
  have hbare : m'.store.bare = m.store.bare := by
    have hbank := hchanges.map_eq bare fun c hc => RunResult.changes_bare hfound.distinct hc (hunlinked c hc)
    have hledger : (m.store.change (r.changes now a.records)).ledger = m.store.ledger := Store.ledger_foldl_putBank _
    rw [hstored, Store.bare, Store.bare, hbank, hledger]
  obtain ⟨a', ha', hr'⟩ := found_again hbare ha hr
  have hids' : (m'.store.bank.map BankRecord.id).Nodup := hstored ▸ hchanges.distinct_after
  have hnone : plannedSaves later a'.records r = [] := by
    refine RunResult.plannedSaves_eq_nil (RunResult.unchanged_again hfound hchanges (admitted_distinct hids' ha') ?_)
    exact hstored ▸ admitted_of_store ha'
  have hsame := RunResult.ofGoal_same hloads ha' hr' later true actor
  rw [hnone] at hsame
  refine ⟨hsame.outcome.trans ?_, hsame.state⟩
  rw [hresult, ← (RunResult.ofAdmission_fresh hr).1]
  rfl

namespace Sample

theorem day_le : day ≤ day := by decide

def rerun : Procedure RunResult :=
  RunResult.ofGoal {} ⟨day, 13, 0, 0, 0, some 0⟩ "goal" ⟨day, day, day_le⟩ true "actor"

end Sample

theorem ofGoal_idempotent_sample :
    ∃ result, ((Memory.under none).run Sample.run (.ofStore Sample.paired)).outcome = .ok result ∧
      result.persisted = 1 ∧
      ((Memory.under none).run Sample.rerun
        ((Memory.under none).run Sample.run (.ofStore Sample.paired)).state).outcome =
          .ok { result with persisted := 0 } := by
  have hrun : ((Memory.under none).run Sample.run (.ofStore Sample.paired)).outcome.map
      (fun result => (result.persisted, result.errors)) = .ok (1, []) := by decide +kernel
  obtain ⟨result, h, hresult⟩ := Fallible.map_eq_ok.mp hrun
  obtain ⟨hcount, herrors⟩ := Prod.mk.inj hresult
  have hagain := ofGoal_idempotent (m := .ofStore Sample.paired) (by decide) h (by simp [herrors])
    ⟨Sample.day, 13, 0, 0, 0, some 0⟩
  exact ⟨result, h, hcount, hagain.1⟩

end GoalReconciliation

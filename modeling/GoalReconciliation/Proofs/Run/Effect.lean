import GoalReconciliation.Proofs.Run.Saves

/-!
# What a run writes is what it reports

* `Marked`, `Unmarked` : what becomes of a record of a match, and of a record without one;
* `ofGoal_stored` : a run without failed saves leaves the store with the changes of its result;
* `Effect`, `ofGoal_effect` : **such a run changes the records of its matches and those without a match, and nothing
  else**; a run that is not to store anything finds the same and leaves everything as it is.
-/

namespace GoalReconciliation

set_option autoImplicit false

open Fallible (bind_eq_ok pure_eq_ok)
open Matching

namespace RunResult

/-- A result that nothing is stored of yet counts nothing as stored, and its errors are those of the admission. -/
theorem ofAdmission_fresh {t : Tolerance} {goal : String} {range : DateRange} {a : Admission} {reserved : List String}
    {r : RunResult} (h : ofAdmission t goal range a reserved = .ok r) : r.persisted = 0 ∧ r.errors = a.errors := by
  obtain ⟨outcome, -, h⟩ := bind_eq_ok.mp h
  obtain ⟨found, -, h⟩ := bind_eq_ok.mp h
  obtain rfl := pure_eq_ok.mp h
  exact ⟨rfl, rfl⟩

section Runs

variable {faults : Option Faults} {t : Tolerance} {now : Timestamp} {goal : String} {range : DateRange}
  {actor : String} {m : Memory} {result : RunResult}

/-- What a run finds is found again by one that is not to store anything. -/
theorem ofGoal_dry
    (h : ((Memory.under faults).run (ofGoal t now goal range true actor) m).outcome = .ok result) :
    ((Memory.under faults).run (ofGoal t now goal range false actor) m).outcome =
      .ok { result with persisted := 0, errors := result.errors.filter (·.kind ≠ "persistence") } := by
  have hloads := ofGoal_loads h
  obtain ⟨a, r, ha, hr, hsame⟩ := ofGoal_ok h
  obtain ⟨hfresh, herrors⟩ := ofAdmission_fresh hr
  replace h := hsame.outcome.symm.trans h
  obtain ⟨failed, hadded, hfailed⟩ := persist_errors _ h
  have hrefused : result.errors.filter (·.kind ≠ "persistence") = r.errors := by
    have hnone : failed.filter (·.kind ≠ "persistence") = [] :=
      List.filter_eq_nil_iff.mpr fun e he => by simp [hfailed e he]
    have hall : r.errors.filter (·.kind ≠ "persistence") = r.errors :=
      List.filter_eq_self.mpr fun e he => by simp [Admission.ofLoaded_kind ha e (herrors ▸ he)]
    rw [hadded, List.filter_append, hall, hnone, List.append_nil]
  rw [(ofGoal_same hloads ha hr now false actor).outcome, hrefused, (persist_ok _ h).1, ← hfresh]
  rfl

/-- **A run without failed saves leaves the store with the changes of its result**, each record changed once and none
that an operator has matched, and counts what it has stored. -/
theorem ofGoal_stored (hids : (m.store.bank.map BankRecord.id).Nodup)
    (h : ((Memory.under faults).run (ofGoal t now goal range true actor) m).outcome = .ok result)
    (hclean : result.Clean) :
    ∃ a r,
      Admission.ofLoaded t goal (m.store.bankRecords (some goal) (some range))
          (m.store.postings (some goal) (some range)) = .ok a ∧
        ofAdmission t goal range a (reservedKeys a.records (m.store.manualMatches (some goal))) = .ok r ∧
        Found a.records r ∧ m.store.Changes (r.changes now a.records) ∧
        (∀ c ∈ r.changes now a.records, c.old.hasManualMatch = false) ∧
        result = { r with persisted := ((r.changes now a.records).filterMap Change.new?).length } ∧
        ((Memory.under faults).run (ofGoal t now goal range true actor) m).state.store =
          m.store.change (r.changes now a.records) := by
  obtain ⟨a, r, hloaded, hmatched, hsame⟩ := ofGoal_ok h
  obtain ⟨outcome, houtcome, hfound, hleft⟩ := ofAdmission_ok hmatched
  have hrecords := admitted_distinct hids hloaded
  obtain ⟨run⟩ := ofRecords_run hrecords (Admission.ofLoaded_groups hloaded) houtcome
  obtain ⟨hresult, hstored⟩ :=
    persist_clean (fun _ => ne_nil_of_mem_plannedSaves) (hsame.outcome.symm.trans h) hclean
  refine ⟨a, r, hloaded, hmatched, found_spec run hfound hleft hrecords,
    changes_spec run hfound hleft hids (admitted_of_store hloaded) hrecords,
    fun c hc => (changes_unlinked run hfound hleft hrecords hc).2, ?_, ?_⟩
  · rw [hresult, (ofAdmission_fresh hmatched).1, Nat.zero_add, plannedSaves_flatten]
  · exact (congrArg Memory.store hsame.state).trans (hstored.trans (by rw [plannedSaves_flatten]; rfl))

end Runs

end RunResult

/-! ## The effect -/

/-- What becomes of a record of a match. -/
structure Marked (now : Timestamp) (m : ReconciledMatch) (old new : BankRecord) : Prop where
  kept : m.HeldBy old → new = old
  written : ¬m.HeldBy old → new = { old with
    reference := some ⟨m.pairing.matchType, m.pairing.groupKeys, "system", some now⟩, matchedAt := some now,
    score := some m.pairing.score, status := m.decision.status }

/-- What becomes of a record without a match. -/
structure Unmarked (old new : BankRecord) : Prop where
  kept : old.HoldsNone .missingInLedger → new = old
  cleared : ¬old.HoldsNone .missingInLedger → new = { old with
    reference := none, matchedAt := none, score := none, status := .missingInLedger }

structure Effect (now : Timestamp) (before after : Store) (result : RunResult) : Prop where
  ids : after.bank.map BankRecord.id = before.bank.map BankRecord.id
  ledger : after.ledger = before.ledger
  matched : ∀ m ∈ result.found, m.pairing.matchType ≠ .manual → ∀ id ∈ m.pairing.bankIds, ∃ old new,
    before.bankRecord? id = some old ∧ after.bankRecord? id = some new ∧ Marked now m old new
  unmatched : ∀ u ∈ result.unmatchedBank, ∃ old new,
    before.bankRecord? u.recordId = some old ∧ after.bankRecord? u.recordId = some new ∧ Unmarked old new
  others : ∀ r ∈ before.bank, (∀ m ∈ result.found, m.pairing.matchType ≠ .manual → r.id ∉ m.pairing.bankIds) →
    (∀ u ∈ result.unmatchedBank, u.recordId ≠ r.id) → after.bankRecord? r.id = some r
  persisted : result.persisted = before.bank.countP fun r => decide (after.bankRecord? r.id ≠ some r)

theorem marked_outcome (now : Timestamp) (m : ReconciledMatch) (r : BankRecord) :
    Marked now m r (Change.outcome ⟨r, marked? now m r⟩) where
  kept hheld := by rw [Change.outcome, marked?_of_held hheld, Option.getD_none]
  written hheld := by
    rw [Change.outcome, marked?_of_not_held hheld, Option.getD_some]
    rfl

theorem unmarked_outcome (r : BankRecord) : Unmarked r (Change.outcome ⟨r, unmarked? .missingInLedger r⟩) where
  kept hnone := by rw [Change.outcome, unmarked?_of_none hnone, Option.getD_none]
  cleared hnone := by
    rw [Change.outcome, unmarked?_of_some hnone, Option.getD_some]
    rfl

/-- **What a run writes is what it reports.** A run without failed saves leaves each record of a match that is no
operator's with that match, each record without a match with none, and everything else as it was, and counts the records
that differ. A run that is not to store anything leaves everything as it is and finds the same; only the errors of failed
saves are not among its own. -/
theorem ofGoal_effect {faults : Option Faults} {t : Tolerance} {now : Timestamp} {goal : String} {range : DateRange}
    {actor : String} {m : Memory} (hids : (m.store.bank.map BankRecord.id).Nodup) :
    ((Memory.under faults).run (RunResult.ofGoal t now goal range false actor) m).state = m ∧
      ∀ result, ((Memory.under faults).run (RunResult.ofGoal t now goal range true actor) m).outcome = .ok result →
        ((Memory.under faults).run (RunResult.ofGoal t now goal range false actor) m).outcome =
            .ok { result with persisted := 0, errors := result.errors.filter (·.kind ≠ "persistence") } ∧
          (result.Clean → Effect now m.store
            ((Memory.under faults).run (RunResult.ofGoal t now goal range true actor) m).state.store result) := by
  refine ⟨Memory.run_reads faults (RunResult.ofGoal_reads t now goal range actor) m, fun result h => ?_⟩
  refine ⟨RunResult.ofGoal_dry h, fun hclean => ?_⟩
  obtain ⟨a, r, -, -, hfound, hchanges, -, hresult, hstored⟩ := RunResult.ofGoal_stored hids h hclean
  have hmem : ∀ c, c ∈ r.changes now a.records ↔ _ := fun _ => RunResult.mem_changes hfound.distinct
  have hbefore : ∀ c ∈ r.changes now a.records, m.store.bankRecord? c.old.id = some c.old :=
    fun c hc => (Store.bankRecord?_iff hids).mpr ⟨hchanges.stored c hc, rfl⟩
  rw [hstored]
  subst hresult
  refine { ids := hchanges.names_eq, ledger := Store.ledger_foldl_putBank _, matched := ?_, unmatched := ?_,
           others := ?_, persisted := hchanges.length_eq }
  · intro found hm htype id hid
    obtain ⟨old, hold, rfl⟩ := hfound.matched found hm htype id hid
    have hc := (hmem ⟨old, marked? now found old⟩).mpr
      (.inl ⟨found, hm, by simpa [ReconciledMatch.isAlgorithmic] using htype, old, hold, hid, rfl⟩)
    exact ⟨old, _, hbefore _ hc, hchanges.changed hc, marked_outcome now found old⟩
  · intro u hu
    obtain ⟨hstatus, old, hold, hid⟩ := hfound.unmatched u hu
    have hc := (hmem ⟨old, unmarked? u.status old⟩).mpr (.inr ⟨u, hu, old, hold, hid, rfl⟩)
    rw [← hid]
    exact ⟨old, _, hbefore _ hc, hchanges.changed hc, hstatus ▸ unmarked_outcome old⟩
  · intro record hrecord hmatched hunmatched
    refine (hchanges.other fun c hc hid => ?_).trans ((Store.bankRecord?_iff hids).mpr ⟨hrecord, rfl⟩)
    rcases (hmem c).mp hc with ⟨found, hm, htype, old, -, hold, rfl⟩ | ⟨u, hu, old, -, hold, rfl⟩
    · exact hmatched found hm (by simpa [ReconciledMatch.isAlgorithmic] using htype) (hid ▸ hold)
    · exact hunmatched u hu (hold.symm.trans hid)

namespace Sample

def paired : Store :=
  { bank := [record "paired" "s1" 100], ledger := [posting "p1" "a" "s1" 100] }

/-- A record that no posting fits any longer, with the marks of the match that it once had. -/
def staleRecord : BankRecord :=
  { record "stale" "s9" 70 (some ⟨.exact, ["gone"], "system", none⟩) with
    matchedAt := some ⟨day, 9, 0, 0, 0, some 0⟩, score := some 100, status := .matched }

def stale : Store :=
  { bank := [staleRecord] }

end Sample

theorem ofGoal_effect_sample :
    ∃ result, ((Memory.under none).run Sample.run (.ofStore Sample.paired)).outcome = .ok result ∧
      (result.found.length, result.persisted) = (1, 1) ∧
      Effect ⟨Sample.day, 12, 0, 0, 0, some 0⟩ Sample.paired
        ((Memory.under none).run Sample.run (.ofStore Sample.paired)).state.store result := by
  have hrun : ((Memory.under none).run Sample.run (.ofStore Sample.paired)).outcome.map
      (fun result => ((result.found.length, result.persisted), result.errors)) = .ok ((1, 1), []) := by decide +kernel
  obtain ⟨result, h, hresult⟩ := Fallible.map_eq_ok.mp hrun
  obtain ⟨hcounts, herrors⟩ := Prod.mk.inj hresult
  refine ⟨result, h, hcounts, ((ofGoal_effect (m := .ofStore Sample.paired) (by decide)).2 result h).2 ?_⟩
  simp [RunResult.Clean, herrors]

/-- A record that loses its match also loses the instant of the match. -/
theorem ofGoal_effect_instant :
    ∃ result old new, ((Memory.under none).run Sample.run (.ofStore Sample.stale)).outcome = .ok result ∧
      result.errors = [] ∧ result.unmatchedBank.map Unmatched.recordId = ["stale"] ∧
      Sample.stale.bankRecord? "stale" = some old ∧
      ((Memory.under none).run Sample.run (.ofStore Sample.stale)).state.store.bankRecord? "stale" = some new ∧
      new ≠ { old with reference := none, score := none, status := .missingInLedger } := by
  have hrun : ((Memory.under none).run Sample.run (.ofStore Sample.stale)).outcome.map
      (fun result => (result.errors, result.unmatchedBank.map Unmatched.recordId)) = .ok ([], ["stale"]) := by
    decide +kernel
  have hstored : ((Memory.under none).run Sample.run (.ofStore Sample.stale)).state.store.bankRecord? "stale" =
      some { Sample.staleRecord with
        reference := none, matchedAt := none, score := none, status := .missingInLedger } := by decide +kernel
  obtain ⟨result, h, hresult⟩ := Fallible.map_eq_ok.mp hrun
  obtain ⟨herrors, hleft⟩ := Prod.mk.inj hresult
  exact ⟨result, Sample.staleRecord, _, h, herrors, hleft, rfl, hstored, by decide⟩

end GoalReconciliation

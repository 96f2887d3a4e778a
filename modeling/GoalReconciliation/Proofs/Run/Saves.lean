import GoalReconciliation.Proofs.Run.ManualPrecedence
import GoalReconciliation.Proofs.Store.Changes

/-!
# The saves of a run

* `changes` : each record of a match that is no operator's, or of none, with what is to take its place;
* `plannedSaves_flatten` : what is planned are these changes;
* `changes_spec` : they change stored records, each once, and none that an operator has matched;
* `persist_clean` : saves of which none is reported as failed have all been stored.
-/

namespace GoalReconciliation

set_option autoImplicit false

open Matching

/-! ## What is to be changed -/

namespace ReconciledMatch

def isAlgorithmic (m : ReconciledMatch) : Bool :=
  m.pairing.matchType ≠ .manual

/-- What a run writes to the records of a match. -/
def changes (now : Timestamp) (records : List BankRecord) (m : ReconciledMatch) : List Change :=
  (recordsById records m.pairing.bankIds).map fun r => ⟨r, marked? now m r⟩

end ReconciledMatch

def Unmatched.changes (records : List BankRecord) (u : Unmatched) : List Change :=
  (recordsById records [u.recordId]).map fun r => ⟨r, unmarked? u.status r⟩

section Updates

/-- A record already holds a match: its link, its score and its status. -/
def ReconciledMatch.HeldBy (m : ReconciledMatch) (r : BankRecord) : Prop :=
  (∃ link, r.reference = some link ∧ link.matchType = m.pairing.matchType ∧ link.groupKeys = m.pairing.groupKeys) ∧
    r.score = some m.pairing.score ∧ r.status = m.decision.status

/-- A record already holds the lack of a match. -/
def BankRecord.HoldsNone (r : BankRecord) (status : Status) : Prop :=
  r.reference = none ∧ r.score = none ∧ r.status = status

variable {now : Timestamp} {m : ReconciledMatch} {r w : BankRecord} {status : Status}

theorem heldBy_iff : m.HeldBy r ↔
    (m.pairing.reference "system" (some now)).sameLink r.reference ∧ r.score = some m.pairing.score ∧
      r.status = m.decision.status := by
  unfold ReconciledMatch.HeldBy MatchReference.sameLink Match.reference
  cases r.reference <;> simp

theorem marked?_of_held (h : m.HeldBy r) : marked? now m r = none :=
  if_pos (heldBy_iff.mp h)

theorem marked?_of_not_held (h : ¬m.HeldBy r) : marked? now m r =
    some (r.mark (m.pairing.reference "system" (some now)) m.pairing.score m.decision.status now) :=
  if_neg (mt heldBy_iff.mpr h)

theorem held_of_marked? (h : marked? now m r = some w) : m.HeldBy w := by
  by_cases hheld : m.HeldBy r
  · rw [marked?_of_held hheld] at h
    cases h
  · rw [marked?_of_not_held hheld] at h
    obtain rfl := Option.some.inj h
    exact ⟨⟨_, rfl, rfl, rfl⟩, rfl, rfl⟩

/-- After a change, a record of a match holds the match. -/
theorem held_outcome (now : Timestamp) (m : ReconciledMatch) (r : BankRecord) :
    m.HeldBy (Change.outcome ⟨r, marked? now m r⟩) := by
  by_cases h : m.HeldBy r
  · rwa [Change.outcome, marked?_of_held h, Option.getD_none]
  · rw [Change.outcome, marked?_of_not_held h, Option.getD_some]
    exact held_of_marked? (marked?_of_not_held h)

theorem marked?_ne (h : marked? now m r = some w) : w ≠ r := by
  rintro rfl
  rw [marked?_of_held (held_of_marked? h)] at h
  cases h

theorem holdsNone_iff : r.HoldsNone status ↔ r.reference.isNone ∧ r.score.isNone ∧ r.status = status := by
  simp [BankRecord.HoldsNone]

theorem unmarked?_of_none (h : r.HoldsNone status) : unmarked? status r = none :=
  if_pos (holdsNone_iff.mp h)

theorem unmarked?_of_some (h : ¬r.HoldsNone status) :
    unmarked? status r = some { r.clearMatch with status := status } :=
  if_neg (mt holdsNone_iff.mpr h)

theorem none_of_unmarked? (h : unmarked? status r = some w) : w.HoldsNone status := by
  by_cases hnone : r.HoldsNone status
  · rw [unmarked?_of_none hnone] at h
    cases h
  · rw [unmarked?_of_some hnone] at h
    obtain rfl := Option.some.inj h
    exact ⟨rfl, rfl, rfl⟩

theorem holdsNone_outcome (status : Status) (r : BankRecord) :
    BankRecord.HoldsNone (Change.outcome ⟨r, unmarked? status r⟩) status := by
  by_cases h : r.HoldsNone status
  · rwa [Change.outcome, unmarked?_of_none h, Option.getD_none]
  · rw [Change.outcome, unmarked?_of_some h, Option.getD_some]
    exact none_of_unmarked? (unmarked?_of_some h)

theorem unmarked?_ne (h : unmarked? status r = some w) : w ≠ r := by
  rintro rfl
  rw [unmarked?_of_none (none_of_unmarked? h)] at h
  cases h

end Updates

namespace RunResult

/-- The records of the matches that are no operator's, and those without a match, with what is to take their places. -/
def changes (now : Timestamp) (records : List BankRecord) (r : RunResult) : List Change :=
  (r.found.filter ReconciledMatch.isAlgorithmic).flatMap (ReconciledMatch.changes now records) ++
    r.unmatchedBank.flatMap (Unmatched.changes records)

/-- What is planned are the changes, those that change nothing left out. -/
theorem plannedSaves_flatten (now : Timestamp) (records : List BankRecord) (r : RunResult) :
    (plannedSaves now records r).flatten = (r.changes now records).filterMap Change.new? := by
  have hsaved : ∀ (update : BankRecord → Option BankRecord) (rs : List BankRecord),
      (rs.map fun x => Change.mk x (update x)).filterMap Change.new? = rs.filterMap update :=
    fun update rs => List.filterMap_map
  rw [plannedSaves, List.flatten_filter_not_isEmpty, List.flatten_append, changes, List.filterMap_append,
    List.filterMap_flatMap, List.filterMap_flatMap, List.flatMap, List.flatMap]
  simp only [ReconciledMatch.changes, Unmatched.changes, hsaved]
  rfl

theorem ne_nil_of_mem_plannedSaves {now : Timestamp} {records : List BankRecord} {r : RunResult}
    {save : List BankRecord} (h : save ∈ plannedSaves now records r) : save ≠ [] := by
  simpa using (List.mem_filter.mp h).2

/-- The records that a result names are among the admitted ones. -/
structure Found (records : List BankRecord) (r : RunResult) : Prop where
  distinct : (records.map BankRecord.id).Nodup
  matched : ∀ m ∈ r.found, m.pairing.matchType ≠ .manual → ∀ id ∈ m.pairing.bankIds, ∃ old ∈ records, old.id = id
  unmatched : ∀ u ∈ r.unmatchedBank, u.status = .missingInLedger ∧ ∃ old ∈ records, old.id = u.recordId

/-! ## Each record once -/

theorem recordsById_names (records : List BankRecord) (ids : List String) :
    ((recordsById records ids).map BankRecord.id).Sublist ids := by
  induction ids with
  | nil => exact List.Sublist.slnil
  | cons id ids ih =>
      rw [recordsById, List.filterMap_cons]
      cases hfind : records.find? (fun r => decide (r.id = id)) with
      | none => exact ih.cons id
      | some r =>
          have hid : r.id = id := by simpa using List.find?_some hfind
          rw [List.map_cons, hid]
          exact ih.cons_cons id

theorem mem_recordsById_iff {records : List BankRecord} (hrecords : (records.map BankRecord.id).Nodup)
    {ids : List String} {r : BankRecord} : r ∈ recordsById records ids ↔ r ∈ records ∧ r.id ∈ ids := by
  refine ⟨mem_recordsById, ?_⟩
  rintro ⟨hr, hid⟩
  exact List.mem_filterMap.mpr ⟨r.id, hid, (Lookup.find?_eq_some_iff hrecords).mpr ⟨hr, rfl⟩⟩

theorem mem_changes {now : Timestamp} {records : List BankRecord} {r : RunResult}
    (hrecords : (records.map BankRecord.id).Nodup) {c : Change} :
    c ∈ r.changes now records ↔
      (∃ m ∈ r.found, m.isAlgorithmic = true ∧ ∃ old ∈ records, old.id ∈ m.pairing.bankIds ∧
        c = ⟨old, marked? now m old⟩) ∨
      ∃ u ∈ r.unmatchedBank, ∃ old ∈ records, old.id = u.recordId ∧ c = ⟨old, unmarked? u.status old⟩ := by
  simp only [changes, ReconciledMatch.changes, Unmatched.changes, List.mem_append, List.mem_flatMap, List.mem_map,
    List.mem_filter, mem_recordsById_iff hrecords, List.mem_singleton, and_assoc, eq_comm]

section Changes

variable {t : Tolerance} {now : Timestamp} {a : Admission} {reserved : List String} {outcome : MatchOutcome}
  {r : RunResult}

/-- The ids of the changes are those of the matches and of the unmatched records, some left out. -/
theorem changes_names : ((r.changes now a.records).map fun c => c.old.id).Sublist
    ((r.found.filter ReconciledMatch.isAlgorithmic).flatMap (·.pairing.bankIds) ++
      r.unmatchedBank.map Unmatched.recordId) := by
  rw [changes, List.map_append, List.map_flatMap, List.map_flatMap, ← List.flatMap_singleton' (r.unmatchedBank.map _),
    List.flatMap_map]
  refine List.Sublist.append (List.Sublist.flatMap_right _ fun m _ => ?_)
    (List.Sublist.flatMap_right _ fun u _ => ?_)
  · rw [ReconciledMatch.changes, List.map_map]
    exact recordsById_names a.records m.pairing.bankIds
  · rw [Unmatched.changes, List.map_map]
    exact recordsById_names a.records [u.recordId]

variable (run : Run t a.records a.groups reserved outcome)
  (hfound : r.found.map ReconciledMatch.pairing = outcome.made)
  (hleft : r.unmatchedBank = (recordsById a.records outcome.unmatchedBankIds).map Unmatched.ofRecord)

include run hfound

theorem algorithmic_bankIds :
    (r.found.filter ReconciledMatch.isAlgorithmic).flatMap (·.pairing.bankIds) = run.new.flatMap Match.bankIds := by
  rw [← run.algorithmic_eq, MatchOutcome.algorithmic, ← hfound, List.filter_map, List.flatMap_map]
  rfl

include hleft

/-- Each record is changed once: it is in no more than one match, and not left over if it is in one. -/
theorem changes_once (hrecords : (a.records.map BankRecord.id).Nodup) :
    ((r.changes now a.records).map fun c => c.old.id).Nodup := by
  have hunmatched : (r.unmatchedBank.map Unmatched.recordId).Sublist outcome.unmatchedBankIds := by
    rw [hleft, List.map_map]
    exact recordsById_names a.records outcome.unmatchedBankIds
  refine List.Nodup.sublist ((changes_names).trans ((List.Sublist.refl _).append hunmatched)) ?_
  rw [algorithmic_bankIds run hfound, run.unmatchedBank_eq]
  refine run.added.bank_once.append (hrecords.sublist (List.filter_sublist.map _)) fun id hnew hfree => ?_
  obtain ⟨left, hleft, rfl⟩ := List.mem_map.mp hfree
  refine Claims.freeBank_iff.mp (List.mem_filter.mp hleft).2 ?_
  rw [run.added.bank_eq]
  exact List.mem_append_right _ hnew

theorem changes_unlinked (hrecords : (a.records.map BankRecord.id).Nodup) {c : Change}
    (hc : c ∈ r.changes now a.records) : c.old ∈ a.records ∧ c.old.hasManualMatch = false := by
  rcases (mem_changes hrecords).mp hc with ⟨m, hm, htype, old, hold, hid, rfl⟩ | ⟨u, hu, old, hold, hid, rfl⟩
  · have hnot : m.pairing.matchType ≠ .manual := by simpa [ReconciledMatch.isAlgorithmic] using htype
    exact ⟨hold, found_unlinked run hfound hrecords hm hnot hold hid⟩
  · exact ⟨hold, unmatched_unlinked run hrecords hleft hu hold hid⟩

theorem found_spec (hrecords : (a.records.map BankRecord.id).Nodup) : Found a.records r where
  distinct := hrecords
  matched m hm htype id hid := by
    have hnew := found_new run hfound hm htype
    exact List.mem_map.mp (run.added.bank_new id (List.mem_flatMap.mpr ⟨_, hnew, hid⟩)).2
  unmatched u hu := by
    rw [hleft] at hu
    obtain ⟨left, hmem, rfl⟩ := List.mem_map.mp hu
    exact ⟨rfl, left, (mem_recordsById hmem).1, rfl⟩

/-- **A run changes stored records, each of them once.** -/
theorem changes_spec {s : Store} (hs : (s.bank.map BankRecord.id).Nodup) (hstored : a.records ⊆ s.bank)
    (hrecords : (a.records.map BankRecord.id).Nodup) : s.Changes (r.changes now a.records) where
  distinct := hs
  once := changes_once run hfound hleft hrecords
  stored c hc := hstored (changes_unlinked run hfound hleft hrecords hc).1
  new c hc w hw := by
    rcases (mem_changes hrecords).mp hc with ⟨m, hm, htype, old, hold, hid, rfl⟩ | ⟨u, hu, old, hold, hid, rfl⟩
    · refine ⟨?_, marked?_ne hw⟩
      by_cases hheld : m.HeldBy old
      · rw [marked?_of_held hheld] at hw
        cases hw
      · rw [marked?_of_not_held hheld] at hw
        obtain rfl := Option.some.inj hw
        rfl
    · refine ⟨?_, unmarked?_ne hw⟩
      by_cases hnone : old.HoldsNone u.status
      · rw [unmarked?_of_none hnone] at hw
        cases hw
      · rw [unmarked?_of_some hnone] at hw
        obtain rfl := Option.some.inj hw
        rfl

end Changes

/-! ## Saves that all succeed -/

def Clean (r : RunResult) : Prop :=
  ∀ e ∈ r.errors, e.kind ≠ "persistence"

def Adds (r r' : RunResult) : Prop :=
  ∃ failed, r'.errors = r.errors ++ failed ∧ ∀ e ∈ failed, e.kind = "persistence"

theorem persistOne_errors {σ : Type} (repo : Repository σ) {r r' : RunResult} {records : List BankRecord} {s : σ}
    (h : (repo.run (r.persistOne records) s).outcome = .ok r') : r.Adds r' := by
  obtain ⟨answer, -, h, -, -⟩ := repo.run_bind_ok h
  cases answer with
  | ok _ =>
      obtain rfl := Except.ok.inj h
      exact ⟨[], (List.append_nil _).symm, by simp⟩
  | error failure =>
      cases failure with
      | storage fault =>
          obtain rfl := Except.ok.inj h
          exact ⟨_, rfl, by simp⟩
      | _ => cases h

theorem persist_errors {σ : Type} (repo : Repository σ) {r r' : RunResult} {saves : List (List BankRecord)} {s : σ}
    (h : (repo.run (r.persist saves) s).outcome = .ok r') : r.Adds r' := by
  induction saves generalizing r s with
  | nil =>
      obtain rfl := Except.ok.inj h
      exact ⟨[], (List.append_nil _).symm, by simp⟩
  | cons records rest ih =>
      obtain ⟨next, hnext, h, -, -⟩ := repo.run_bind_ok h
      obtain ⟨failed, hfailed, hkind⟩ := persistOne_errors repo hnext
      obtain ⟨others, hothers, hkinds⟩ := ih h
      refine ⟨failed ++ others, ?_, List.forall_mem_append.mpr ⟨hkind, hkinds⟩⟩
      rw [hothers, hfailed, List.append_assoc]

theorem Clean.before {r r' : RunResult} (h : r.Adds r') (hclean : r'.Clean) : r.Clean := by
  obtain ⟨failed, hfailed, -⟩ := h
  exact fun e he => hclean e (hfailed ▸ List.mem_append_left failed he)

variable {faults : Option Faults} {r r' : RunResult} {m : Memory}

theorem persistOne_clean {records : List BankRecord} (hrecords : records ≠ [])
    (h : ((Memory.under faults).run (r.persistOne records) m).outcome = .ok r') (hclean : r'.Clean) :
    r' = { r with persisted := r.persisted + records.length } ∧
      ((Memory.under faults).run (r.persistOne records) m).state.store = records.foldl Store.putBank m.store := by
  obtain ⟨answer, hanswer, h, hstate, -⟩ := Repository.run_bind_ok _ h
  rw [persistOne, hstate]
  rw [Repository.run_attempt] at hanswer ⊢
  have hsaved : ((Memory.under faults).answer (.saveAll [.bank records]) m).1 = answer := Except.ok.inj hanswer
  cases answer with
  | ok _ =>
      obtain rfl := Except.ok.inj h
      exact ⟨rfl, Memory.saveAll_bank_ok hsaved⟩
  | error failure =>
      cases failure with
      | storage fault =>
          obtain rfl := Except.ok.inj h
          obtain ⟨record, rest, rfl⟩ := List.exists_cons_of_ne_nil hrecords
          refine absurd rfl (hclean ⟨record.id, fault.message, "persistence"⟩ ?_)
          exact List.mem_append_right _ List.mem_cons_self
      | _ => cases h

/-- **Saves of which none is reported as failed have all been stored, and are counted.** -/
theorem persist_clean {saves : List (List BankRecord)} (hsaves : ∀ save ∈ saves, save ≠ [])
    (h : ((Memory.under faults).run (r.persist saves) m).outcome = .ok r') (hclean : r'.Clean) :
    r' = { r with persisted := r.persisted + saves.flatten.length } ∧
      ((Memory.under faults).run (r.persist saves) m).state.store = saves.flatten.foldl Store.putBank m.store := by
  induction saves generalizing r m with
  | nil =>
      obtain rfl := Except.ok.inj h
      exact ⟨rfl, rfl⟩
  | cons records rest ih =>
      obtain ⟨hrecords, hrest⟩ := List.forall_mem_cons.mp hsaves
      obtain ⟨next, hnext, h, hstate, -⟩ := Repository.run_bind_ok _ h
      obtain ⟨hone, hstored⟩ := persistOne_clean hrecords hnext (hclean.before (persist_errors _ h))
      obtain ⟨hall, hstored'⟩ := ih hrest h
      rw [persist, hstate, hstored', hstored, List.flatten_cons, List.foldl_append]
      refine ⟨?_, rfl⟩
      rw [hall, hone, List.length_append, Nat.add_assoc]

end RunResult

end GoalReconciliation

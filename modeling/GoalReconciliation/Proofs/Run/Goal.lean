import GoalReconciliation.Proofs.Related
import GoalReconciliation.Proofs.Run.Admission
import GoalReconciliation.Proofs.Store.Memory
import GoalReconciliation.Run.Goal

/-!
# A run for one goal, taken apart

* `persist_ok` : storing what is planned changes nothing of the result but what is stored and what has failed, and
  stores nothing else;
* `mem_plannedSaves` : what is planned are admitted records with the match, or the lack of one, of the result;
* `ofGoal_ok` : a run that returns admits what it has loaded, matches it and stores what is planned;
* `ofGoal_same` : so does a run for a goal that can be loaded, once what it admits and finds is known;
* `ofGoal_reads` : a run that is not to store anything asks questions only.
-/

namespace GoalReconciliation.RunResult

set_option autoImplicit false

open Fallible (bind_eq_ok pure_eq_ok)

/-! ## Storing -/

section Storing

variable {σ : Type} (repo : Repository σ)

theorem persistOne_written (r : RunResult) (records : List BankRecord) (s : σ) :
    repo.written (r.persistOne records) s = records := by
  change repo.written ((Procedure.saveAll [.bank records]).attempt >>= _) s = records
  rw [Repository.written_bind, Repository.written_attempt, Repository.run_attempt]
  have hsaved : repo.written (Procedure.saveAll [.bank records]) s = records := by
    change [Write.bank records].flatMap Write.records ++ [] = records
    rw [List.append_nil, List.flatMap_singleton, Write.records]
  rw [hsaved]
  refine (congrArg (records ++ ·) ?_).trans (List.append_nil records)
  -- nothing more is stored, whatever has become of the save
  cases (repo.run (Procedure.saveAll [.bank records]) s).outcome with
  | ok _ => rfl
  | error failure => cases failure <;> rfl

/-- What is stored and what has failed is noted in the result, and nothing else of it changes. -/
theorem persistOne_ok {r r' : RunResult} {records : List BankRecord} {s : σ}
    (h : (repo.run (r.persistOne records) s).outcome = .ok r') :
    r' = { r with persisted := r'.persisted, errors := r'.errors } := by
  obtain ⟨answer, -, h, -, -⟩ := repo.run_bind_ok h
  cases answer with
  | ok _ =>
      obtain rfl := Except.ok.inj h
      rfl
  | error failure =>
      cases failure with
      | storage fault =>
          obtain rfl := Except.ok.inj h
          rfl
      | _ => cases h

theorem persist_ok {r r' : RunResult} {saves : List (List BankRecord)} {s : σ}
    (h : (repo.run (r.persist saves) s).outcome = .ok r') :
    r' = { r with persisted := r'.persisted, errors := r'.errors } ∧
      repo.written (r.persist saves) s = saves.flatten := by
  induction saves generalizing r s with
  | nil =>
      obtain rfl := Except.ok.inj h
      exact ⟨rfl, rfl⟩
  | cons records rest ih =>
      obtain ⟨next, hnext, h, -, hwritten⟩ := repo.run_bind_ok h
      obtain ⟨hresult, hrest⟩ := ih h
      rw [persistOne_ok repo hnext] at hresult
      refine ⟨hresult, ?_⟩
      rw [persist, hwritten, persistOne_written, hrest, List.flatten_cons]

def store (r : RunResult) (persistent : Bool) (saves : List (List BankRecord)) : Procedure RunResult :=
  if persistent then r.persist saves else pure r

theorem store_ok {r r' : RunResult} {persistent : Bool} {saves : List (List BankRecord)} {s : σ}
    (h : (repo.run (r.store persistent saves) s).outcome = .ok r') :
    r' = { r with persisted := r'.persisted, errors := r'.errors } ∧
      repo.written (r.store persistent saves) s ⊆ saves.flatten := by
  cases persistent with
  | true =>
      obtain ⟨hresult, hwritten⟩ := persist_ok repo h
      exact ⟨hresult, hwritten ▸ List.Subset.refl _⟩
  | false =>
      obtain rfl := Except.ok.inj h
      exact ⟨rfl, List.nil_subset _⟩

end Storing

/-! ## What is planned -/

theorem mem_recordsById {records : List BankRecord} {ids : List String} {r : BankRecord}
    (h : r ∈ recordsById records ids) : r ∈ records ∧ r.id ∈ ids := by
  obtain ⟨id, hid, hfind⟩ := List.mem_filterMap.mp h
  have hname : r.id = id := by simpa using List.find?_some hfind
  exact ⟨List.mem_of_find?_eq_some hfind, hname ▸ hid⟩

/-- What is planned are admitted records, each with a match that is no operator's, or with the lack of one. -/
inductive Planned (now : Timestamp) (records : List BankRecord) (result : RunResult) : BankRecord → Prop
  | marked {m : ReconciledMatch} {r : BankRecord} (hm : m ∈ result.found) (htype : m.pairing.matchType ≠ .manual)
      (hr : r ∈ records) (hid : r.id ∈ m.pairing.bankIds) :
      Planned now records result
        (r.mark (m.pairing.reference "system" (some now)) m.pairing.score m.decision.status now)
  | unmarked {u : Unmatched} {r : BankRecord} (hu : u ∈ result.unmatchedBank) (hr : r ∈ records)
      (hid : r.id = u.recordId) : Planned now records result { r.clearMatch with status := u.status }

theorem mem_plannedSaves {now : Timestamp} {records : List BankRecord} {result : RunResult} {w : BankRecord}
    (h : w ∈ (plannedSaves now records result).flatten) : Planned now records result w := by
  obtain ⟨saved, hsaved, hw⟩ := List.mem_flatten.mp h
  rcases List.mem_append.mp (List.mem_filter.mp hsaved).1 with hmatched | hunmatched
  · obtain ⟨m, hm, rfl⟩ := List.mem_map.mp hmatched
    obtain ⟨hm, htype⟩ := List.mem_filter.mp hm
    obtain ⟨r, hr, hmark⟩ := List.mem_filterMap.mp hw
    obtain ⟨hr, hid⟩ := mem_recordsById hr
    simp only [marked?] at hmark
    split at hmark
    · cases hmark
    · obtain rfl := Option.some.inj hmark
      exact Planned.marked hm (by simpa using htype) hr hid
  · obtain ⟨u, hu, rfl⟩ := List.mem_map.mp hunmatched
    obtain ⟨r, hr, hmark⟩ := List.mem_filterMap.mp hw
    obtain ⟨hr, hid⟩ := mem_recordsById hr
    simp only [unmarked?] at hmark
    split at hmark
    · cases hmark
    · obtain rfl := Option.some.inj hmark
      exact Planned.unmarked hu hr (List.mem_singleton.mp hid)

/-! ## The run -/

theorem judge_pairing {t : Tolerance} {m : Match} {records : List BankRecord} {groups : List Group}
    {judged : ReconciledMatch}
    (h : (liftM (ReconciledMatch.judge t m records groups) : Except Failure ReconciledMatch) = .ok judged) :
    judged.pairing = m := by
  obtain ⟨variances, -, h⟩ := bind_eq_ok.mp (Failure.lift_fault_ok.mp h)
  obtain rfl := pure_eq_ok.mp h
  rfl

/-- A result is made of the matches of its run, in their order, and of the records that are left over. -/
theorem ofAdmission_ok {t : Tolerance} {goal : String} {range : DateRange} {a : Admission} {reserved : List String}
    {r : RunResult} (h : ofAdmission t goal range a reserved = .ok r) :
    ∃ outcome, MatchOutcome.ofRecords t a.records a.groups reserved = .ok outcome ∧
      r.found.map ReconciledMatch.pairing = outcome.made ∧
      r.unmatchedBank = (recordsById a.records outcome.unmatchedBankIds).map Unmatched.ofRecord := by
  obtain ⟨outcome, houtcome, h⟩ := bind_eq_ok.mp h
  obtain ⟨found, hfound, h⟩ := bind_eq_ok.mp h
  obtain rfl := pure_eq_ok.mp h
  refine ⟨outcome, Failure.lift_fault_ok.mp houtcome, ?_, rfl⟩
  have hpairings := Related.map_eq ((Fallible.mapM_eq_ok.mp hfound).imp fun _ _ hm => judge_pairing hm)
  rwa [List.map_id'] at hpairings

theorem ofGoal_same {faults : Option Faults} {t : Tolerance} {goal : String} {range : DateRange} {m : Memory}
    {a : Admission} {r : RunResult} (hloads : Memory.Answers faults (.bankRecords (some goal) (some range)))
    (ha : Admission.ofLoaded t goal (m.store.bankRecords (some goal) (some range))
      (m.store.postings (some goal) (some range)) = .ok a)
    (hr : ofAdmission t goal range a (reservedKeys a.records (m.store.manualMatches (some goal))) = .ok r)
    (now : Timestamp) (persistent : Bool) (actor : String) :
    (Memory.under faults).Same m (ofGoal t now goal range persistent actor)
      (r.store persistent (plannedSaves now a.records r)) := by
  refine (Repository.same_report _ _ _ _).trans ((Memory.same_answered hloads).trans ?_)
  refine (Memory.same_answered fun f _ => rfl).trans ((Repository.same_lifted ha).trans ?_)
  refine (Memory.same_answered fun f _ => rfl).trans ((Repository.same_lifted hr).trans ?_)
  cases persistent with
  | true => exact Repository.same_reported _ _ _ _
  | false => exact Repository.same_reported _ _ _ _

theorem ofGoal_loads {faults : Option Faults} {t : Tolerance} {now : Timestamp} {goal : String} {range : DateRange}
    {persistent : Bool} {actor : String} {m : Memory} {result : RunResult}
    (h : ((Memory.under faults).run (ofGoal t now goal range persistent actor) m).outcome = .ok result) :
    Memory.Answers faults (.bankRecords (some goal) (some range)) := by
  have hstart : (Memory.under faults).Same m (ofGoal t now goal range persistent actor) _ :=
    Repository.same_report _ _ _ _
  exact Memory.answers_of_ok (hstart.outcome.symm.trans h)

theorem ofGoal_ok {faults : Option Faults} {t : Tolerance} {now : Timestamp} {goal : String} {range : DateRange}
    {persistent : Bool} {actor : String} {m : Memory} {result : RunResult}
    (h : ((Memory.under faults).run (ofGoal t now goal range persistent actor) m).outcome = .ok result) :
    ∃ a r,
      Admission.ofLoaded t goal (m.store.bankRecords (some goal) (some range))
          (m.store.postings (some goal) (some range)) = .ok a ∧
        ofAdmission t goal range a (reservedKeys a.records (m.store.manualMatches (some goal))) = .ok r ∧
        (Memory.under faults).Same m (ofGoal t now goal range persistent actor)
          (r.store persistent (plannedSaves now a.records r)) := by
  have hloads := ofGoal_loads h
  have hloaded : (Memory.under faults).Same m (ofGoal t now goal range persistent actor) _ :=
    (Repository.same_report _ _ _ _).trans ((Memory.same_answered hloads).trans (Memory.same_answered fun f _ => rfl))
  replace h := hloaded.outcome.symm.trans h
  obtain ⟨a, ha, hadmitted⟩ := Repository.same_lift h
  replace h := hadmitted.outcome.symm.trans h
  replace h := (Memory.same_query h).outcome.symm.trans h
  obtain ⟨r, hr, -⟩ := Repository.same_lift h
  exact ⟨a, r, ha, hr, ofGoal_same hloads ha hr now persistent actor⟩

theorem ofGoal_reads (t : Tolerance) (now : Timestamp) (goal : String) (range : DateRange) (actor : String) :
    (ofGoal t now goal range false actor).Reads := by
  change Procedure.Reads (Procedure.query _ >>= _)
  refine Procedure.reads_query fun records => Procedure.reads_query fun postings => Procedure.reads_lift fun a => ?_
  exact Procedure.reads_query fun manual => Procedure.reads_lift fun r => trivial

end GoalReconciliation.RunResult

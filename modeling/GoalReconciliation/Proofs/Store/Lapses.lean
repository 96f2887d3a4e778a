import GoalReconciliation.Proofs.Store.Saved

/-!
# Saves that lapse

* `Lapse`, `Memory.faltering` : the store in memory, any of whose saves may be given up after some of its records have
  been stored;
* `run_unfailing` : where none is given up, it is the store in memory;
* `through`, `lapsed` : the saves that are carried out, and the others with their lapses;
* `effect_saveRecords` : the records of a save that is a scope of its own are all stored, or none of them is;
* `Repository.AnswersFrom` : a repository that answers by what is stored.
-/

namespace GoalReconciliation

set_option autoImplicit false

/-- How a save of records is given up: with which fault, and after which of its records have been stored. -/
structure Lapse where
  fault : StorageFault
  stored : BankRecord → Bool := fun _ => false

/-- A store in use, and the records of each save that it has been asked for. -/
structure Attended where
  memory : Memory
  saves : List (List BankRecord) := []

/-- The saves that are carried out: a pattern tells for each number whether the save of that number lapses, and how. -/
def through (pattern : Nat → Option Lapse) (saves : List (List BankRecord)) (first : Nat := 0) :
    List (List BankRecord) :=
  ((saves.zipIdx first).filter fun save => (pattern save.2).isNone).map Prod.fst

def lapsed (pattern : Nat → Option Lapse) (saves : List (List BankRecord)) (first : Nat := 0) :
    List (List BankRecord × Lapse) :=
  (saves.zipIdx first).filterMap fun save => (pattern save.2).map fun lapse => (save.1, lapse)

namespace Memory

/-- The store in memory, with a pattern that tells which of the saves lapse. -/
def faltering (pattern : Nat → Option Lapse) : Repository Attended where
  query question s := (.ok (s.memory.store.answer question), s)
  save w s :=
    match pattern s.saves.length, w with
    | some lapse, .bank records =>
      (.error (.storage lapse.fault), ⟨(s.memory.save (.bank (records.filter lapse.stored))).2, s.saves ++ [records]⟩)
    | _, w => ((s.memory.save w).1, ⟨(s.memory.save w).2, s.saves ++ [w.records]⟩)
  enter s := { s with memory := s.memory.enter }
  leave failure s := ((s.memory.leave failure).1, { s with memory := (s.memory.leave failure).2 })

def unfailing : Repository Attended :=
  faltering fun _ => none

end Memory

/-- The repository answers questions by what is stored, and they change nothing. -/
def Repository.AnswersFrom {σ : Type} (repo : Repository σ) (content : σ → Store) : Prop :=
  ∀ question s, repo.query question s = (.ok ((content s).answer question), s)

theorem Repository.AnswersFrom.effect_query {σ β : Type} {repo : Repository σ} {content : σ → Store}
    (h : repo.AnswersFrom content) (question : Query) (f : question.Answer → Procedure β) (s : σ) :
    repo.effect (Procedure.query question >>= f) s = repo.effect (f ((content s).answer question)) s :=
  Repository.effect_bind (h question s)

theorem Memory.repository_answersFrom : Memory.repository.AnswersFrom Memory.store := fun _ _ => rfl

section Numbered

variable (pattern : Nat → Option Lapse) (records : List BankRecord) (saves : List (List BankRecord)) (n : Nat)

variable {pattern n} in
theorem through_cons_of_none (h : pattern n = none) :
    through pattern (records :: saves) n = records :: through pattern saves (n + 1) := by
  simp [through, List.zipIdx_cons, h]

variable {pattern n} in
theorem through_cons_of_some {lapse : Lapse} (h : pattern n = some lapse) :
    through pattern (records :: saves) n = through pattern saves (n + 1) := by
  simp [through, List.zipIdx_cons, h]

variable {pattern n} in
theorem lapsed_cons_of_none (h : pattern n = none) :
    lapsed pattern (records :: saves) n = lapsed pattern saves (n + 1) := by
  simp [lapsed, List.zipIdx_cons, h]

variable {pattern n} in
theorem lapsed_cons_of_some {lapse : Lapse} (h : pattern n = some lapse) :
    lapsed pattern (records :: saves) n = (records, lapse) :: lapsed pattern saves (n + 1) := by
  simp [lapsed, List.zipIdx_cons, h]

theorem through_sublist : (through pattern saves n).Sublist saves := by
  induction saves generalizing n with
  | nil => exact List.Sublist.slnil
  | cons records saves ih =>
      cases h : pattern n with
      | none =>
          rw [through_cons_of_none records saves h]
          exact (ih (n + 1)).cons_cons records
      | some lapse =>
          rw [through_cons_of_some records saves h]
          exact (ih (n + 1)).cons records

theorem lapsed_sublist : ((lapsed pattern saves n).map Prod.fst).Sublist saves := by
  induction saves generalizing n with
  | nil => exact List.Sublist.slnil
  | cons records saves ih =>
      cases h : pattern n with
      | none =>
          rw [lapsed_cons_of_none records saves h]
          exact (ih (n + 1)).cons records
      | some lapse =>
          rw [lapsed_cons_of_some records saves h]
          exact (ih (n + 1)).cons_cons records

theorem through_unfailing : through (fun _ => none) saves n = saves := by
  induction saves generalizing n with
  | nil => rfl
  | cons records saves ih => rw [through_cons_of_none records saves rfl, ih]

theorem lapsed_unfailing : lapsed (fun _ => none) saves n = [] := by
  induction saves generalizing n with
  | nil => rfl
  | cons records saves ih => rw [lapsed_cons_of_none records saves rfl, ih]

end Numbered

namespace Memory

/-! ## Where no save lapses -/

theorem unfailing_saveEach (writes : List Write) (s : Attended) :
    (unfailing.saveEach writes s).1 = (repository.saveEach writes s.memory).1 ∧
      (unfailing.saveEach writes s).2.memory = (repository.saveEach writes s.memory).2 := by
  induction writes generalizing s with
  | nil => exact ⟨rfl, rfl⟩
  | cons w rest ih =>
      have hsave : unfailing.save w s =
          ((repository.save w s.memory).1, ⟨(repository.save w s.memory).2, s.saves ++ [w.records]⟩) := rfl
      unfold Repository.saveEach
      rw [hsave]
      cases repository.save w s.memory with
      | mk outcome next =>
          cases outcome with
          | ok _ => exact ih ⟨next, _⟩
          | error failure => exact ⟨rfl, rfl⟩

theorem unfailing_close {α : Type} (outcome : Except Failure α) (s : Attended) :
    (unfailing.close outcome s).1 = (repository.close outcome s.memory).1 ∧
      (unfailing.close outcome s).2.memory = (repository.close outcome s.memory).2 := by
  have hleave : ∀ failure, unfailing.leave failure s =
    ((repository.leave failure s.memory).1, { s with memory := (repository.leave failure s.memory).2 }) := fun _ => rfl
  unfold Repository.close
  cases outcome with
  | ok a =>
      simp only [hleave]
      cases repository.leave none s.memory with
      | mk failure next => cases failure <;> exact ⟨rfl, rfl⟩
  | error failure =>
      simp only [hleave]
      cases repository.leave (some failure) s.memory with
      | mk failure next => cases failure <;> exact ⟨rfl, rfl⟩

theorem unfailing_answer (request : Request) (s : Attended) :
    (unfailing.answer request s).1 = (repository.answer request s.memory).1 ∧
      (unfailing.answer request s).2.memory = (repository.answer request s.memory).2 := by
  cases request with
  | query question => exact ⟨rfl, rfl⟩
  | save w => exact ⟨rfl, rfl⟩
  | saveAll writes =>
      obtain ⟨houtcome, hmemory⟩ := unfailing_saveEach writes { s with memory := s.memory.enter }
      obtain ⟨hclosed, hleft⟩ := unfailing_close (unfailing.saveEach writes { s with memory := s.memory.enter }).1
        (unfailing.saveEach writes { s with memory := s.memory.enter }).2
      refine ⟨hclosed.trans ?_, hleft.trans ?_⟩
      · rw [houtcome, hmemory]
        rfl
      · rw [houtcome, hmemory]
        rfl

/-- Where no save lapses, a procedure runs as on the store in memory. -/
theorem run_unfailing {α : Type} (p : Procedure α) (s : Attended) :
    (unfailing.run p s).outcome = (repository.run p s.memory).outcome ∧
      (unfailing.run p s).state.memory = (repository.run p s.memory).state := by
  induction p generalizing s with
  | done outcome => exact ⟨rfl, rfl⟩
  | ask request next ih =>
      obtain ⟨hanswer, hmemory⟩ := unfailing_answer request s
      have hrun : repository.run (.ask request next) s.memory =
        repository.run (next (repository.answer request s.memory).1) (repository.answer request s.memory).2 := rfl
      rw [hrun, ← hanswer, ← hmemory]
      exact ih _ _
  | record event rest ih => exact ih s

/-! ## One save -/

variable (pattern : Nat → Option Lapse)

theorem faltering_answersFrom : (faltering pattern).AnswersFrom fun s => s.memory.store :=
  fun _ _ => rfl

variable {pattern}

theorem effect_saveRecords {s : Attended} (hs : s.memory.depth = 0) (records : List BankRecord)
    (h : pattern s.saves.length = none) :
    (faltering pattern).effect (Procedure.saveAll [.bank records]) s =
      (.ok (), ⟨⟨records.foldl Store.putBank s.memory.store, s.memory.store, 0⟩, s.saves ++ [records]⟩) := by
  change (faltering pattern).inScope ((faltering pattern).saveEach [.bank records]) s = _
  have henter : s.memory.enter = { s.memory with snapshot := s.memory.store, depth := 1 } := if_pos hs
  simp [Repository.inScope, Repository.saveEach, Repository.close, faltering, h, henter, save, Store.write, leave,
    Write.records]

/-- A save of records that is a scope of its own and lapses stores nothing, whatever it has stored until then. -/
theorem effect_saveRecords_lapse {s : Attended} (hs : s.memory.depth = 0) (records : List BankRecord) {lapse : Lapse}
    (h : pattern s.saves.length = some lapse) :
    (faltering pattern).effect (Procedure.saveAll [.bank records]) s =
      (.error (.storage lapse.fault), ⟨⟨s.memory.store, s.memory.store, 0⟩, s.saves ++ [records]⟩) := by
  change (faltering pattern).inScope ((faltering pattern).saveEach [.bank records]) s = _
  have henter : s.memory.enter = { s.memory with snapshot := s.memory.store, depth := 1 } := if_pos hs
  simp [Repository.inScope, Repository.saveEach, Repository.close, faltering, h, henter, save, leave]

end Memory

end GoalReconciliation

import GoalReconciliation.Proofs.Operations.Rejection
import GoalReconciliation.Proofs.Store.Guarantee
import GoalReconciliation.Proofs.Store.Saved

/-!
# Two procedures on one store

* `Concurrent`, `turn`, `play` : a run and an operation of an operator on one store, one step after the other in any
  order, with the requests of both so far;
* `Access.Stores`, `Overtaken` : a record that the run has listed before the operator stored it, and stored after that;
* `Procedure.Saves` : all that a procedure asks to be stored are records with a property, several at once;
* `Procedure.Commits`, `Procedure.Reports` : a procedure that asks questions, stores some records at once, and then
  only reports and returns a result that belongs to them;
* `bankRecord?_foldl_putBank_of_mem`, `bankRecord?_foldl_putBank_of_notMem` : what one save makes of one record;
* `play_invariant` : what each step preserves, every order of steps preserves.
-/

namespace GoalReconciliation

set_option autoImplicit false

/-! ## Interleavings -/

inductive Party where
  | run
  | operator
deriving DecidableEq

/-- A request that one of the procedures has made, and whether it has succeeded. -/
structure Access where
  party : Party
  request : Request
  succeeded : Bool
deriving DecidableEq

def Request.lists : Request → Bool
  | .query (.bankRecords ..) => true
  | _ => false

theorem Request.records_saveAll (records : List BankRecord) : (Request.saveAll [.bank records]).records = records :=
  List.flatMap_singleton _ _

def Access.Stores (a : Access) (party : Party) (id : String) : Prop :=
  a.party = party ∧ a.succeeded = true ∧ id ∈ a.request.records.map BankRecord.id

/-- A record that the run has listed before the operator stored it, and stored after that. -/
def Overtaken (history : List Access) (id : String) : Prop :=
  ∃ before w after, history = before ++ w :: after ∧ (∃ a ∈ before, a.party = .run ∧ a.request.lists = true) ∧
    w.Stores .operator id ∧ ∃ a ∈ after, a.Stores .run id

def Procedure.outcome? {α : Type} : Procedure α → Option (Except Failure α)
  | .done outcome => some outcome
  | _ => none

theorem Procedure.outcome?_eq_some {α : Type} {p : Procedure α} {outcome : Except Failure α} :
    p.outcome? = some outcome ↔ p = .done outcome := by
  cases p <;> simp [outcome?]

/-- What is left of two procedures, the store that they share, and their requests so far. -/
structure Concurrent (α β : Type) where
  run : Procedure α
  operator : Procedure β
  memory : Memory
  history : List Access := []

namespace Concurrent

variable {α β : Type}

/-- One step of a procedure: a report, or a request and its answer. -/
def turn (repo : Repository Memory) (c : Concurrent α β) : Party → Concurrent α β
  | .run =>
    match c.run with
    | .done _ => c
    | .record _ rest => { c with run := rest }
    | .ask request next =>
      let (answer, memory) := repo.answer request c.memory
      { c with run := next answer, memory := memory, history := c.history ++ [⟨.run, request, answer.toBool⟩] }
  | .operator =>
    match c.operator with
    | .done _ => c
    | .record _ rest => { c with operator := rest }
    | .ask request next =>
      let (answer, memory) := repo.answer request c.memory
      { c with operator := next answer, memory := memory, history := c.history ++ [⟨.operator, request, answer.toBool⟩] }

def play (repo : Repository Memory) (c : Concurrent α β) (order : List Party) : Concurrent α β :=
  order.foldl (turn repo) c

theorem play_invariant {I : Concurrent α β → Prop} {repo : Repository Memory}
    (hturn : ∀ c party, I c → I (c.turn repo party)) {c : Concurrent α β} (hc : I c) (order : List Party) :
    I (c.play repo order) := by
  induction order generalizing c with
  | nil => exact hc
  | cons party rest ih => exact ih (hturn c party hc)

end Concurrent

/-- What stands around the one item with a property is determined. -/
theorem split_unique {α : Type} {p : α → Prop} {before after before' after' : List α} {x x' : α}
    (h : before ++ x :: after = before' ++ x' :: after') (hbefore : ∀ a ∈ before, ¬p a) (hafter : ∀ a ∈ after, ¬p a)
    (hx' : p x') : before' = before ∧ after' = after := by
  induction before generalizing before' with
  | nil =>
      cases before' with
      | nil => exact ⟨rfl, (List.cons.inj h).2.symm⟩
      | cons b rest =>
          obtain ⟨-, rfl⟩ := List.cons.inj h
          exact absurd hx' (hafter x' (by simp))
  | cons b rest ih =>
      obtain ⟨hb, hrest⟩ := List.forall_mem_cons.mp hbefore
      cases before' with
      | nil =>
          obtain ⟨rfl, -⟩ := List.cons.inj h
          exact absurd hx' hb
      | cons b' rest' =>
          obtain ⟨rfl, htail⟩ := List.cons.inj h
          obtain ⟨hbefore', hafter'⟩ := ih htail hrest
          exact ⟨congrArg _ hbefore', hafter'⟩

/-! ## Procedures that store records -/

namespace Procedure

variable {α β : Type} {C : BankRecord → Prop} {Q : List BankRecord → β → Prop}

/-- All that the procedure asks to be stored are records with a property, several at once. -/
def Saves (C : BankRecord → Prop) : Procedure α → Prop
  | .done _ => True
  | .ask (.query _) next => ∀ answer, (next answer).Saves C
  | .ask (.save _) _ => False
  | .ask (.saveAll writes) next =>
    (∃ records, writes = [.bank records] ∧ ∀ r ∈ records, C r) ∧ ∀ answer, (next answer).Saves C
  | .record _ rest => rest.Saves C

theorem saves_bind {p : Procedure α} {f : α → Procedure β} (hp : p.Saves C) (hf : ∀ a, (f a).Saves C) :
    (p >>= f).Saves C := by
  change (p.bind f).Saves C
  induction p with
  | done outcome =>
      cases outcome with
      | ok a => exact hf a
      | error failure => trivial
  | ask request next ih =>
      cases request with
      | query question => exact fun answer => ih answer (hp answer)
      | save w => cases hp
      | saveAll writes => exact ⟨hp.1, fun answer => ih answer (hp.2 answer)⟩
  | record event rest ih => exact ih hp

theorem saves_query (question : Query) : (query question).Saves C := fun _ => trivial

theorem saves_done (outcome : Except Failure α) : (done outcome).Saves C := trivial

/-- The procedure only reports, and returns this. -/
def Reports (b : β) : Procedure β → Prop
  | .done outcome => outcome = .ok b
  | .ask _ _ => False
  | .record _ rest => rest.Reports b

/-- The procedure asks questions, then stores some records at once and only reports what belongs to them, or fails. -/
def Commits (Q : List BankRecord → β → Prop) : Procedure β → Prop
  | .done outcome => ∃ failure, outcome = .error failure
  | .ask (.query _) next => ∀ answer, (next answer).Commits Q
  | .ask (.save _) _ => False
  | .ask (.saveAll writes) next =>
    (∃ records b, writes = [.bank records] ∧ Q records b ∧ (next (.ok ())).Reports b) ∧
      ∀ failure, ∃ failure', next (.error failure) = .done (.error failure')
  | .record _ _ => False

/-- What the procedure returns has a property, whatever is answered. -/
def Returns (R : α → Prop) : Procedure α → Prop
  | .done outcome => ∀ a, outcome = .ok a → R a
  | .ask _ next => ∀ answer, (next answer).Returns R
  | .record _ rest => rest.Returns R

theorem returns_true (p : Procedure α) : p.Returns fun _ => True := by
  induction p with
  | done outcome => exact fun _ _ => trivial
  | ask request next ih => exact ih
  | record event rest ih => exact ih

theorem returns_query {question : Query} {f : question.Answer → Procedure α} {R : α → Prop}
    (hf : ∀ answer, (f answer).Returns R) : (query question >>= f).Returns R := by
  intro answer
  cases answer with
  | ok a => exact hf a
  | error failure => exact fun a h => by cases h

theorem commits_bind {R : α → Prop} {p : Procedure α} {f : α → Procedure β} (hp : p.Asks) (hreturns : p.Returns R)
    (hf : ∀ a, R a → (f a).Commits Q) : (p >>= f).Commits Q := by
  change (p.bind f).Commits Q
  induction p with
  | done outcome =>
      cases outcome with
      | ok a => exact hf a (hreturns a rfl)
      | error failure => exact ⟨failure, rfl⟩
  | ask request next ih =>
      cases request with
      | query question => exact fun answer => ih answer (hp answer) (hreturns answer)
      | save w => cases hp
      | saveAll writes => cases hp
  | record event rest ih => cases hp

end Procedure

/-! ## One save and one record -/

namespace Store

variable {records : List BankRecord} {id : String}

theorem bankRecord?_foldl_putBank_of_notMem (s : Store) (h : id ∉ records.map BankRecord.id) :
    (records.foldl putBank s).bankRecord? id = s.bankRecord? id := by
  have hkept : (Write.bank records).Preserves fun t => t.bankRecord? id = s.bankRecord? id := by
    refine fun w hw t ht => (find?_replaceOrAdd_of_ne ?_).trans ht
    rintro rfl
    exact h (List.mem_map_of_mem hw)
  exact hkept.foldl_putBank rfl

theorem bankRecord?_foldl_putBank_of_mem (s : Store) (h : id ∈ records.map BankRecord.id) :
    ∃ r ∈ records, (records.foldl putBank s).bankRecord? id = some r := by
  induction records generalizing s with
  | nil => cases h
  | cons r rest ih =>
      by_cases hrest : id ∈ rest.map BankRecord.id
      · obtain ⟨w, hw, hstored⟩ := ih (s.putBank r) hrest
        exact ⟨w, List.mem_cons_of_mem r hw, hstored⟩
      · obtain rfl : id = r.id := (List.mem_cons.mp h).resolve_right hrest
        refine ⟨r, List.mem_cons_self, ?_⟩
        rw [List.foldl_cons, bankRecord?_foldl_putBank_of_notMem _ hrest]
        exact find?_replaceOrAdd_self r s.bank

end Store

end GoalReconciliation

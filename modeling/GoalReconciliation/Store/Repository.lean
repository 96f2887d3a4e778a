import GoalReconciliation.Store.Procedure

/-!
# Repositories

* `Repository` : how a store answers questions, writes, and opens and closes scopes whose writes are kept all or none.
* `Repository.inScope` : some steps inside one scope.
* `Repository.answer` : the answer to a request.
* `Repository.run` : a procedure run to its end.
-/

namespace GoalReconciliation

set_option autoImplicit false

/-- The steps of a store with states of type `σ`. -/
structure Repository (σ : Type) where
  query : (question : Query) → σ → Except Failure question.Answer × σ
  save : Write → σ → Except Failure Unit × σ
  /-- A scope opened. -/
  enter : σ → σ
  /-- The innermost scope closed, after a failure or without one; and the failure that goes on from there. -/
  leave : Option Failure → σ → Option Failure × σ

/-- A procedure's outcome, the events in order, and the state of the store. -/
structure Trace (σ α : Type) where
  outcome : Except Failure α
  events : List AuditEvent
  state : σ

namespace Repository

variable {σ α : Type}

/-- Writes in order, up to the first that fails. -/
def saveEach (repo : Repository σ) : List Write → σ → Except Failure Unit × σ
  | [], s => (.ok (), s)
  | w :: rest, s =>
    match repo.save w s with
    | (.ok (), s) => saveEach repo rest s
    | (.error failure, s) => (.error failure, s)

/-- The scope closed behind an outcome. -/
def close (repo : Repository σ) (outcome : Except Failure α) (s : σ) : Except Failure α × σ :=
  match outcome with
  | .ok a =>
    match repo.leave none s with
    | (some failure, s) => (.error failure, s)
    | (none, s) => (.ok a, s)
  | .error failure =>
    match repo.leave (some failure) s with
    | (some failure, s) => (.error failure, s)
    | (none, s) => (.error failure, s)

/-- Steps inside one scope. -/
def inScope (repo : Repository σ) (steps : σ → Except Failure α × σ) (s : σ) : Except Failure α × σ :=
  let (outcome, s) := steps (repo.enter s)
  repo.close outcome s

/-- The answer to a request. -/
def answer (repo : Repository σ) : (request : Request) → σ → Except Failure request.Answer × σ
  | .query question, s => repo.query question s
  | .save w, s => repo.save w s
  | .saveAll writes, s => repo.inScope (repo.saveEach writes) s

/-- A procedure run to its end. -/
def run (repo : Repository σ) : Procedure α → σ → Trace σ α
  | .done outcome, s => ⟨outcome, [], s⟩
  | .ask request next, s =>
    let (answer, s) := repo.answer request s
    run repo (next answer) s
  | .record event rest, s =>
    let trace := run repo rest s
    { trace with events := event :: trace.events }

end Repository

end GoalReconciliation

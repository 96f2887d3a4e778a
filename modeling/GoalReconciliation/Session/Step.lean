import GoalReconciliation.Http.Server
import GoalReconciliation.Store.Database
import GoalReconciliation.Store.Faults

/-!
# Steps of a session

* `Step` : one thing that is done in a session: an operation, a request served, steps of which all or none are kept, a
  failure, or a change of what fails.
* `Reply` : what a step leads to.
* `Backend` : a repository, what is in it, and how its connection is renewed and disturbed.
* `Step.run` : a step on a backend.
-/

namespace GoalReconciliation

set_option autoImplicit false

/-- One thing that is done in a session. -/
inductive Step where
  | perform (operation : Operation) (now : Timestamp)
  | serve (server : Http.Server) (request : Http.Request) (now : Timestamp)
  | atomic (steps : List Step) (caught : Bool)
  | fail (failure : Failure)
  | disturb (faults : Option Faults) (outages : List Outage)

instance : Inhabited Step :=
  ⟨.fail (.runtime "")⟩

/-- What a step leads to. The steps of a block reply each, up to a failure that was caught. -/
inductive Reply where
  | value (value : Json)
  | response (response : Http.Response)
  | block (replies : List Reply) (caught : Option Failure)

/-- A repository as a session uses it. -/
structure Backend (σ : Type) where
  repository : Repository σ
  contents : σ → Except Failure Store
  /-- The state at the start of a step. -/
  renew : σ → σ
  /-- The state with other outages. -/
  disturb : List Outage → σ → σ

/-- A store in memory, which has no connection. -/
def Memory.backend : Backend Memory where
  repository := Memory.repository
  contents m := .ok m.store
  renew := id
  disturb _ m := m

/-- A database, to which each step connects anew. -/
def Database.backend : Backend Database where
  repository := Database.repository
  contents := Database.contents
  renew := Database.reconnect
  disturb outages db := { db with outages := outages }

/-- A session between two steps, or within one. -/
structure Session (σ : Type) where
  state : σ
  faults : Option Faults := none
  /-- The audit trail of the step, in order. -/
  events : List AuditEvent := []

namespace Session

variable {σ : Type}

/-- The repository with the faults of the moment. -/
def repository (b : Backend σ) (s : Session σ) : Repository σ :=
  match s.faults with
  | some f => b.repository.withFaults f
  | none => b.repository

/-- A procedure run in a session. -/
def run {α : Type} (b : Backend σ) (p : Procedure α) (s : Session σ) : Except Failure α × Session σ :=
  let trace := (s.repository b).run p s.state
  (trace.outcome, { s with state := trace.state, events := s.events ++ trace.events })

end Session

variable {σ : Type}

mutual

/-- A step of a session under a tolerance. -/
def Step.run (b : Backend σ) (t : Tolerance) : Step → Session σ → Except Failure Reply × Session σ
  | .perform operation now, s =>
    let (outcome, s) := s.run b (operation.procedure t now)
    (outcome.map .value, s)
  | .serve server request now, s =>
    let (outcome, s) := s.run b (server.respond now request)
    (outcome.map .response, s)
  | .atomic steps caught, s =>
    let s := { s with state := b.repository.enter s.state }
    let (replies, failure, s) := runEach b t steps s
    let (failure, state) := b.repository.leave failure s.state
    let s := { s with state := state }
    match failure with
    | none => (.ok (.block replies none), s)
    | some failure => (if caught then .ok (.block replies (some failure)) else .error failure, s)
  | .fail failure, s => (.error failure, s)
  | .disturb faults outages, s => (.ok (.value .null), { s with faults, state := b.disturb outages s.state })

/-- Steps in order, up to the first that fails: the replies, the failure, and the session. -/
def runEach (b : Backend σ) (t : Tolerance) :
    List Step → Session σ → List Reply × Option Failure × Session σ
  | [], s => ([], none, s)
  | step :: rest, s =>
    match step.run b t s with
    | (.error failure, s) => ([], some failure, s)
    | (.ok reply, s) =>
      let (replies, failure, s) := runEach b t rest s
      (reply :: replies, failure, s)

end

end GoalReconciliation

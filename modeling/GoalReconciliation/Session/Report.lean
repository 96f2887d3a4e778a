import GoalReconciliation.Session.Step

/-!
# Reports on a session

* `StepReport` : a step's outcome, its events, and the records and postings that it has changed.
* `Session.reports` : the reports on the steps of a session.
-/

namespace GoalReconciliation

set_option autoImplicit false

mutual

/-- A reply as a value. -/
def Reply.toJson : Reply → Json
  | .value v => v
  | .response r => r.toJson
  | .block replies none => .object [("results", .list (Reply.valuesOf replies))]
  | .block replies (some failure) =>
    .object [("results", .list (Reply.valuesOf replies)), ("caught", failure.toJson)]

/-- Replies as values. -/
def Reply.valuesOf : List Reply → List Json
  | [] => []
  | reply :: rest => reply.toJson :: Reply.valuesOf rest

end

/-- The outcome of a step as a value. -/
def Reply.report : Except Failure Reply → Json
  | .ok reply => .object [("result", reply.toJson)]
  | .error failure => failure.toJson

/-- What a step has led to. -/
structure StepReport where
  outcome : Except Failure Reply
  events : List AuditEvent
  bank : List BankRecord
  postings : List Posting

namespace StepReport

/-- Items that differ from the earlier ones of their names, by name. Two items without a value do not differ. -/
def changed {α : Type} [DecidableEq α] (name : α → String) (value : α → Option Json) (earlier later : List α) :
    List α :=
  Sorting.byText name (later.filter fun item =>
    !earlier.any fun old => name old = name item && (old = item || (value old).isNone && (value item).isNone))

/-- A session's step and the report on it. -/
def ofStep {σ : Type} (b : Backend σ) (t : Tolerance) (step : Step) (s : Session σ) : StepReport × Session σ :=
  let earlier := (b.contents s.state).toOption.getD {}
  let (outcome, s) := step.run b t { s with state := b.renew s.state, events := [] }
  let later := (b.contents s.state).toOption.getD {}
  let report : StepReport := {
    outcome := outcome
    events := s.events
    bank := changed BankRecord.id BankRecord.toJson? earlier.bank later.bank
    postings := changed Posting.id Posting.toJson? earlier.ledger later.ledger }
  (report, s)

/-- A record's value, or a note that it has none. -/
def shown (id : String) (value : Option Json) : Json :=
  value.getD (.object [("id", .text id), ("unprintable", .text Failure.unnamed.kind)])

/-- A field for a list that is left out when it is empty. -/
def listed (name : String) (values : List Json) : List (String × Json) :=
  if values.isEmpty then [] else [(name, .list values)]

/-- The report as a value. -/
def toJson (r : StepReport) : Json :=
  let added := listed "events" (r.events.map AuditEvent.toJson) ++
    listed "bank" (r.bank.map fun r => shown r.id r.toJson?) ++
    listed "postings" (r.postings.map fun p => shown p.id p.toJson?)
  match Reply.report r.outcome with
  | .object fields => .object (fields ++ added)
  | value => value

end StepReport

/-- The reports on the steps of a session. -/
def Session.reports {σ : Type} (b : Backend σ) (t : Tolerance) : List Step → Session σ → List StepReport
  | [], _ => []
  | step :: rest, s =>
    let (report, s) := StepReport.ofStep b t step s
    report :: reports b t rest s

end GoalReconciliation

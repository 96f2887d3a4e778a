import GoalReconciliation.Log.Record

/-!
# A process's log

* `LogSetup` : from which level on messages are written, and in which form.
* `LogSetup.admits` : a record that is written. Three loggers that say much are heard from `WARNING` on.
* `LogStep`, `LogSetup.lines` : messages and changes of context in order, and the lines that they leave.
-/

namespace GoalReconciliation

set_option autoImplicit false

/-- From which level on messages are written, and in which form. -/
structure LogSetup where
  level : LogLevel := .info
  structured : Bool := true
  service : String := "goal-reconciliation"
  environment : String := "development"

/-- What happens to a log. -/
inductive LogStep where
  | message (record : LogRecord)
  | enter (context : LogContext)
  | clear

namespace LogSetup

/-- Loggers that say much. -/
def quiet : List String :=
  ["uvicorn.access", "sqlalchemy.engine", "httpx"]

/-- A logger is another one or below it. -/
def isWithin (logger other : String) : Bool :=
  logger = other || (other ++ ".").toList.isPrefixOf logger.toList

/-- The level from which a logger is heard. -/
def threshold (s : LogSetup) (logger : String) : LogLevel :=
  if quiet.any (isWithin logger) then .warning else s.level

/-- A record that is written. -/
def admits (s : LogSetup) (r : LogRecord) : Bool :=
  decide ((s.threshold r.logger).rank ≤ r.level.rank) && decide (s.level.rank ≤ r.level.rank)

/-- The line of a record. -/
def line (s : LogSetup) (now : Timestamp) (r : LogRecord) : Json :=
  if s.structured then r.toJson s.service s.environment now else .text r.toLine

/-- The lines that are left by steps, the first of them in a context. -/
def lines (s : LogSetup) (now : Timestamp) : LogContext → List LogStep → List Json
  | _, [] => []
  | c, .message r :: rest =>
    if s.admits r then s.line now (c.mark r) :: lines s now c rest else lines s now c rest
  | _, .enter c :: rest => lines s now c rest
  | _, .clear :: rest => lines s now {} rest

end LogSetup

end GoalReconciliation

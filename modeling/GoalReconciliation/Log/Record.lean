import GoalReconciliation.Calendar.Timestamp
import GoalReconciliation.Json.Basic

/-!
# Log records

* `LogLevel` : how grave a message is.
* `LogRecord` : a message with its level, its logger, and fields of its own.
* `LogContext` : the request that messages belong to; `LogContext.mark` adds it to a record.
* `LogRecord.toJson`, `LogRecord.toLine` : the two forms of a line.
-/

namespace GoalReconciliation

set_option autoImplicit false

/-! ## Levels -/

/-- How grave a message is. -/
inductive LogLevel where
  | unset
  | debug
  | info
  | warning
  | error
  | critical
deriving DecidableEq

namespace LogLevel

def all : List LogLevel :=
  [unset, debug, info, warning, error, critical]

def name : LogLevel → String
  | unset => "NOTSET"
  | debug => "DEBUG"
  | info => "INFO"
  | warning => "WARNING"
  | error => "ERROR"
  | critical => "CRITICAL"

/-- Greater for graver levels. -/
def rank : LogLevel → Nat
  | unset => 0
  | debug => 10
  | info => 20
  | warning => 30
  | error => 40
  | critical => 50

/-- The level with a name, two of which have another one. -/
def ofName? (s : String) : Option LogLevel :=
  if s = "WARN" then some warning
  else if s = "FATAL" then some critical
  else all.find? (·.name = s)

/-- A letter's great form, if that is an ASCII letter. -/
def great (c : Char) : Char :=
  if c = 'ı' then 'I' else if c = 'ſ' then 'S' else c.toUpper

/-- The level that a setting names, in any case; `INFO` for any other text. -/
def ofSetting (s : String) : LogLevel :=
  (ofName? (String.ofList (s.toList.map great))).getD info

end LogLevel

/-! ## Records -/

/-- A message with its level, its logger, and fields of its own. -/
structure LogRecord where
  level : LogLevel := .info
  logger : String
  message : String
  extra : List (String × Json) := []
  /-- The kind and the wording of a failure. -/
  failure : Option (String × String) := none

/-- The request that messages belong to; null where it is not known. -/
structure LogContext where
  requestId : Json := .null
  actor : Json := .null
  goalId : Json := .null

namespace LogContext

/-- A field added unless the record has one of its name. -/
def addField (name : String) (value : Json) (fields : List (String × Json)) : List (String × Json) :=
  if fields.any (·.1 = name) then fields else fields ++ [(name, value)]

/-- A record in the context: its request is always that of the context, its actor and goal may be its own. -/
def mark (c : LogContext) (r : LogRecord) : LogRecord :=
  { r with
    extra := addField "goal_id" c.goalId (addField "actor" c.actor (Json.putField "request_id" c.requestId r.extra)) }

end LogContext

namespace LogRecord

/-- The names that a record uses itself. -/
def ownNames : List String :=
  ["name", "msg", "args", "created", "filename", "funcName", "levelname", "levelno", "lineno", "module", "msecs",
    "pathname", "process", "processName", "relativeCreated", "stack_info", "exc_info", "exc_text", "thread",
    "threadName", "message", "taskName"]

/-- The fields that a line shows: those with a value and a name of their own. -/
def shown (r : LogRecord) : List (String × Json) :=
  r.extra.filter fun (name, value) =>
    !ownNames.contains name && match value with
      | .null => false
      | _ => true

/-- The line of a record as a value. -/
def toJson (service environment : String) (now : Timestamp) (r : LogRecord) : Json :=
  .object
    ([("timestamp", .text now.toText), ("level", .text r.level.name), ("logger", .text r.logger),
      ("message", .text r.message), ("service", .text service), ("environment", .text environment)] ++
      (match r.failure with
        | some (kind, message) => [("exception", .object [("type", .text kind), ("message", .text message)])]
        | none => []) ++
      if r.shown.isEmpty then [] else [("extra", .object r.shown)])

/-- The line of a record as a text, behind its time. -/
def toLine (r : LogRecord) : String :=
  r.logger ++ " - " ++ r.level.name ++ " - " ++ r.message

end LogRecord

end GoalReconciliation

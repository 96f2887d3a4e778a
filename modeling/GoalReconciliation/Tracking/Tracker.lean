import GoalReconciliation.Json.Basic

/-!
# Error tracking

Errors are sent to a tracker that has an address; without one nothing is sent.

* `TrackerOptions` : what a process asks for when it starts to track errors.
* `TrackerCall` : what is sent to the tracker.
* `Tracker` : whether errors are tracked, and the calls so far.
* `Tracker.start`, `capture`, `mark` : tracking started, an error sent, and the goal and run named that later errors
  belong to.
-/

namespace GoalReconciliation

set_option autoImplicit false

/-- What a process asks for. Rates and the environment's name are passed on as they are given. -/
structure TrackerOptions where
  address : Option String := none
  environment : Json := .text "development"
  release : Option String := none
  sampleRate : Json := .real 1.0
  traceRate : Json := .real 0.1

/-- The address and the release that the environment of a process names. -/
structure TrackerDefaults where
  address : Option String := none
  release : Option String := none

/-- What is sent to the tracker. -/
inductive TrackerCall where
  | start (address release : String) (options : TrackerOptions)
  | extra (name : String) (value : Json)
  | capture (kind message : String)
  | tag (name value : String)

namespace TrackerCall

/-- Failures that are not worth an error. -/
def ignored : List String :=
  ["ConnectionResetError", "BrokenPipeError"]

/-- The parts of a process that are watched. -/
def watched : List String :=
  ["FastApiIntegration", "SqlalchemyIntegration", "LoggingIntegration"]

/-- The call as a value. -/
def toJson : TrackerCall → Json
  | start address release options =>
    .list [.text "init", .object
      [("dsn", .text address), ("environment", options.environment), ("release", .text release),
        ("sample_rate", options.sampleRate), ("traces_sample_rate", options.traceRate),
        ("integrations", Json.texts watched), ("send_default_pii", .bool false),
        ("before_send", .text "filter_sensitive_data"), ("ignore_errors", Json.texts ignored)]]
  | extra name value => .list [.text "set_extra", .text name, value]
  | capture kind message => .list [.text "capture", .text kind, .text message]
  | tag name value => .list [.text "set_tag", .text name, .text value]

end TrackerCall

/-- Whether errors are tracked, and the calls so far. -/
structure Tracker where
  started : Bool := false
  calls : List TrackerCall := []

namespace Tracker

/-- A text that is not empty. -/
def given (s : Option String) : Option String :=
  s.filter (· ≠ "")

/-- Tracking started, if there is an address; and whether it was. -/
def start (t : Tracker) (options : TrackerOptions) (defaults : TrackerDefaults) : Bool × Tracker :=
  match (given options.address).or (given defaults.address) with
  | none => (false, t)
  | some address =>
    let release := (given options.release).getD (defaults.release.getD "unknown")
    (true, ⟨true, t.calls ++ [.start address release options]⟩)

/-- The name of the error that is sent next. -/
def nextName (t : Tracker) : String :=
  let sent := t.calls.countP fun call => match call with
    | .capture .. => true
    | _ => false
  "event-" ++ toString (sent + 1)

/-- An error sent with fields of its own, if errors are tracked; and its name. -/
def capture (t : Tracker) (kind message : String) (extra : List (String × Json)) : Option String × Tracker :=
  if t.started then
    (some t.nextName,
      { t with calls := t.calls ++ extra.map (fun (name, value) => .extra name value) ++ [.capture kind message] })
  else (none, t)

/-- The goal and the run named that later errors belong to. -/
def mark (t : Tracker) (goal run : Option String) : Tracker :=
  if t.started then
    let tag (name : String) (value : Option String) : List TrackerCall :=
      (given value).toList.map fun value => .tag name value
    { t with calls := t.calls ++ tag "goal_id" goal ++ tag "run_id" run }
  else t

end Tracker

end GoalReconciliation

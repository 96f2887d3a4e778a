import GoalReconciliation.Calendar.DateRange
import GoalReconciliation.Failure
import GoalReconciliation.Json.Display

/-!
# Error bodies

Clients tell bad input, unknown records and rejected operations apart by the body of an error answer.

* `ErrorBody` : the kinds of bodies, each with its fields; `ErrorBody.toJson` writes one.
* `HttpError` : a status and a body that end a request.
* `HttpError.ofFailure` : the answer to a failure of the engine.
* `HttpError.checkDates` : a range of days that a client has to give whole and in order.
-/

namespace GoalReconciliation

set_option autoImplicit false

/-- The body of an error answer. -/
inductive ErrorBody where
  | missingParameter (parameter : String) (message : Option String)
  | invalidParameter (parameter message : String) (value : Json)
  | validationError (message : String) (details : Json)
  | notFound (resource identifier : String)
  | conflict (message : String)

namespace ErrorBody

/-- The body as a value. A received value is shown by its first hundred characters. -/
def toJson : ErrorBody → Json
  | missingParameter parameter message =>
    .object
      [("error", .text "missing_parameter"), ("parameter", .text parameter),
        ("message", .text ((message.filter (· ≠ "")).getD (parameter ++ " is required")))]
  | invalidParameter parameter message value =>
    let fields :=
      [("error", .text "invalid_parameter"), ("parameter", .text parameter), ("message", .text message)]
    match value with
    | .null => .object fields
    | value =>
      .object (fields ++ [("received_value", .text (String.ofList (value.display.toList.take 100)))])
  | validationError message details =>
    let fields := [("error", .text "validation_error"), ("parameter", .null), ("message", .text message)]
    .object (if details.isTruthy then fields ++ [("details", details)] else fields)
  | notFound resource identifier =>
    .object
      [("error", .text "not_found"), ("resource", .text resource), ("identifier", .text identifier),
        ("message", .text (resource ++ " " ++ identifier ++ " not found"))]
  | conflict message =>
    .object [("error", .text "conflict"), ("parameter", .null), ("message", .text message)]

/-- The status that goes with a body. -/
def status : ErrorBody → Nat
  | notFound .. => 404
  | conflict _ => 409
  | _ => 422

end ErrorBody

/-- A status and a body that end a request. -/
structure HttpError where
  status : Nat
  detail : Json

namespace HttpError

def ofBody (body : ErrorBody) : HttpError :=
  ⟨body.status, body.toJson⟩

/-- The answer to a failure of the engine. What a store said stays inside. -/
def ofFailure : Failure → HttpError
  | .notFound resource identifier => ofBody (.notFound resource identifier)
  | .conflict cause => ofBody (.conflict cause.message)
  | .invalid problem =>
    match problem.field?.filter (· ≠ "") with
    | some field => ofBody (.invalidParameter field problem.message .null)
    | none => ofBody (.validationError problem.message .null)
  | .storage _ => ⟨503, .text "Reconciliation storage unavailable"⟩
  | failure => ⟨500, .text failure.message⟩

/-- The range between two days that a client gave, both of them and in order. -/
def checkDates (first last : Option Date) : Except HttpError DateRange :=
  match first, last with
  | none, _ => .error (ofBody (.missingParameter "start_date" none))
  | some _, none => .error (ofBody (.missingParameter "end_date" none))
  | some first, some last =>
    match DateRange.ofDates? first last with
    | some range => .ok range
    | none =>
      .error
        (ofBody (.invalidParameter "start_date" "start_date must be on or before end_date" (.text first.toText)))

end HttpError

end GoalReconciliation

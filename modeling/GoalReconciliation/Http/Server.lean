import GoalReconciliation.Http.Call
import GoalReconciliation.Http.Cors
import GoalReconciliation.Json.Reader

/-!
# Answering requests

* `Request.received` : the body of a request as it is read, or the place where it cannot be read.
* `Server.checkKey` : a request that shows an accepted key.
* `Server.handle` : the procedure that answers a request, which fails as the procedure of its call does.
* `Server.respond` : the same, with a failure as an answer, and marked for the page that asks and with the request's
  name.
-/

namespace GoalReconciliation.Http

set_option autoImplicit false

/-! ## Bodies -/

/-- A media type whose bodies are read as values. -/
def isJsonType (type : String) : Bool :=
  match (lower (Text.strip ((type.splitOn ";").headD ""))).splitOn "/" with
  | [main, sub] => main = "application" && (sub = "json" || "+json".toList.isSuffixOf sub.toList)
  | _ => false

namespace Request

/-- The body as it is read: none, a value, or what is no value and stands as a text. An error is the place at which
reading stopped. -/
def received (r : Request) : Except Nat (Option Json) :=
  let type := r.header? "content-type"
  match r.body with
  | none => .ok none
  | some (.json value) => .ok (some (if type.all isJsonType then value else .text ""))
  | some (.raw text) =>
    if text = "" then .ok none
    else if type.any isJsonType then some <$> Json.parse text
    else .ok (some (.text text))

end Request

/-! ## Refusals -/

namespace Response

/-- The answer to a request with unusable fields. -/
def ofFieldErrors (errors : List FieldError) : Response :=
  detail 422 (.list (errors.map FieldError.toJson))

/-- The answer to a refused request. -/
def ofHttpError (error : HttpError) : Response :=
  detail error.status error.detail

/-- The answer to a request that failed for another reason than the engine's. In production it says no more than
that. -/
def ofCrash (s : Settings) (failure : Failure) : Response :=
  if s.isProduction then detail 500 (.text "Internal server error")
  else
    json 500 (.object
      [("detail", .text failure.message), ("type", .text failure.kind),
        ("traceback", if s.debugEnabled then .text "<text>" else .null)])

end Response

namespace Server

variable (server : Server)

/-- A request that shows an accepted key. -/
def checkKey (r : Request) : Except HttpError Unit :=
  if server.keys.isEmpty then .error ⟨503, .text "Internal authentication not configured"⟩
  else
    match (r.header? "X-Internal-Api-Key").filter (· ≠ "") with
    | none => .error ⟨401, .text "Missing X-Internal-Api-Key header"⟩
    | some key => if server.keys.contains key then .ok () else .error ⟨403, .text "Invalid API key"⟩

/-! ## Answers -/

/-- The answer that a call leads to. A failure of the engine is an answer, any other fails here too. -/
def perform (call : Call) : Procedure Response :=
  match call with
  | .error refusal => pure (.ofHttpError refusal)
  | .ok procedure => do
    match ← procedure.attempt with
    | .ok value => return .json 200 value
    | .error failure =>
      if failure.isReconciliation then return .ofHttpError (.ofFailure failure) else throw failure

/-- The answer of an endpoint. An unreadable body comes before a missing key, and that before unusable fields. -/
def serve (now : Timestamp) (r : Request) (endpoint : Endpoint) (texts : List String) : Procedure Response :=
  let body := if endpoint.readsBody then r.received else .ok none
  match body with
  | .error place => pure (.ofFieldErrors [⟨[.text "body", Json.ofNat place], .unreadableJson⟩])
  | .ok body =>
    match if endpoint.isOpen then .ok () else server.checkKey r with
    | .error refusal => pure (.ofHttpError refusal)
    | .ok () =>
      match endpoint.call server now r texts body with
      | .bad errors => pure (.ofFieldErrors errors)
      | .good call => perform call

/-- The answer to a request, wherever it leads. -/
def handle (now : Timestamp) (r : Request) : Procedure Response :=
  match find r.method r.path with
  | .endpoint endpoint texts => server.serve now r endpoint texts
  | .otherMethod allowed =>
    pure ((Response.detail 405 (.text "Method Not Allowed")).withHeader "allow" allowed)
  | .otherPath _ => pure ⟨307, .text "", []⟩
  | .nowhere => pure (.detail 404 (.text "Not Found"))

/-- A response with the request's name, if it has one. -/
def named (r : Request) (response : Response) : Response :=
  match r.header? "X-Request-ID" with
  | some name => response.withHeader "x-request-id" name
  | none => response

/-- A response without its body if only the headers were asked for. -/
def trimmed (r : Request) (response : Response) : Response :=
  if r.method = "HEAD" then { response with content := .text "" } else response

/-- The answer to a request. It never fails. -/
def respond (now : Timestamp) (r : Request) : Procedure Response :=
  let cors : Cors := ⟨server.origins⟩
  match cors.preflight? r with
  | some response => pure (named r response)
  | none => do
    match ← (server.handle now r).attempt with
    | .ok response => return trimmed r (named r (cors.mark r response))
    | .error failure => return trimmed r (.ofCrash server.settings failure)

end Server

end GoalReconciliation.Http

import GoalReconciliation.Http.Message

/-!
# Calls from web pages

* `Cors` : the pages that may call a server, with which methods and headers.
* `Cors.preflight?` : the answer to a page that asks whether it may.
* `Cors.mark` : a response marked for the page that has asked.
-/

namespace GoalReconciliation.Http

set_option autoImplicit false

/-- The pages that may call a server. -/
structure Cors where
  origins : List String

namespace Cors

def methods : List String :=
  ["GET", "POST", "DELETE", "OPTIONS"]

def headers : List String :=
  ["Content-Type", "Accept", "Origin", "X-Request-ID", "X-Internal-Api-Key", "X-User-Id"]

def exposedHeaders : List String :=
  ["X-Request-ID"]

/-- How many seconds an answer to a page stays valid. -/
def maxAge : Nat := 600

/-- The headers that every page may send. -/
def plainHeaders : List String :=
  ["Accept", "Accept-Language", "Content-Language", "Content-Type"]

/-- The permissions as a value. -/
def toJson (c : Cors) : Json :=
  .object
    [("allow_origins", Json.texts c.origins), ("allow_credentials", .bool true),
      ("allow_methods", Json.texts methods), ("allow_headers", Json.texts headers),
      ("expose_headers", Json.texts exposedHeaders), ("max_age", Json.ofNat maxAge)]

def allowed : String :=
  "access-control-allow-origin"

/-- The request header is one that a page may send. -/
def permits (header : String) : Bool :=
  ((plainHeaders ++ headers).map lower).contains (Text.strip (lower header))

/-- What a page may not do. -/
def refusals (c : Cors) (origin method : String) (asked : Option String) : List String :=
  (if c.origins.contains origin then [] else ["origin"]) ++
    (if methods.contains method then [] else ["method"]) ++
    (if asked.all fun names => (names.splitOn ",").all permits then [] else ["headers"])

/-- A response with the mark that its page may read it. -/
def mark (c : Cors) (r : Request) (response : Response) : Response :=
  match r.header? "origin" with
  | some origin => if c.origins.contains origin then response.withHeader allowed origin else response
  | none => response

/-- The answer to a page that asks whether it may call. -/
def preflight? (c : Cors) (r : Request) : Option Response :=
  match r.header? "origin", r.header? "access-control-request-method" with
  | some origin, some method =>
    if r.method = "OPTIONS" then
      let refusals := c.refusals origin method (r.header? "access-control-request-headers")
      let response : Response :=
        if refusals.isEmpty then ⟨200, .text "OK", []⟩
        else ⟨400, .text ("Disallowed CORS " ++ ", ".intercalate refusals), []⟩
      some (c.mark r response)
    else none
  | _, _ => none

end Cors

end GoalReconciliation.Http

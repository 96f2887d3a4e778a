import GoalReconciliation.Http.Message

/-!
# Routes

* `Endpoint` : what clients can ask of the server.
* `routes` : the method and path of each endpoint. A segment in braces takes any text that is not empty.
* `find` : the endpoint of a method and a path with the texts in its open segments, or why there is none.
-/

namespace GoalReconciliation.Http

set_option autoImplicit false

/-- What clients can ask of the server. -/
inductive Endpoint where
  | health
  | liveness
  | status
  | matchGoal
  | matchBatch
  | review
  | reviewSeveral
  | createMatch
  | removeMatches
  | reversalCandidates
  | linkReversal
  | unlinkReversal
  | reversalPartner
  | sweep
  | resolutionStats
  | resolvedReport
  | goalSummary
  | instrumentSummary
  | statusCounts
deriving DecidableEq

/-- An endpoint that answers without a key. -/
def Endpoint.isOpen : Endpoint → Bool
  | .health => true
  | .liveness => true
  | .status => true
  | _ => false

/-- An endpoint whose fields are in the body. -/
def Endpoint.readsBody : Endpoint → Bool
  | .matchGoal => true
  | .matchBatch => true
  | .review => true
  | .reviewSeveral => true
  | .createMatch => true
  | .removeMatches => true
  | .linkReversal => true
  | .sweep => true
  | _ => false

/-- A part of a path: a fixed text, or an open place. -/
inductive Segment where
  | fixed (text : String)
  | free
deriving DecidableEq

/-- The method and path of an endpoint. -/
structure Route where
  method : String
  path : List Segment
  endpoint : Endpoint
deriving DecidableEq

namespace Route

/-- A path below the interface's root. -/
def below (path : List Segment) : List Segment :=
  .fixed "api" :: path

/-- A path of the reconciliation part. -/
def inModule (path : List Segment) : List Segment :=
  below (.fixed "reconciliation" :: path)

/-- The texts in the open places of a path that a route fits. -/
def texts? : List Segment → List String → Option (List String)
  | [], [] => some []
  | .fixed text :: path, part :: parts => if part = text then texts? path parts else none
  | .free :: path, part :: parts => if part = "" then none else (texts? path parts).map (part :: ·)
  | _, _ => none

end Route

open Route in
/-- All routes, in the order in which they are tried. -/
def routes : List Route :=
  [⟨"GET", below [.fixed "health"], .health⟩,
    ⟨"GET", below [.fixed "health", .fixed "live"], .liveness⟩,
    ⟨"GET", inModule [.fixed "status"], .status⟩,
    ⟨"POST", inModule [.fixed "goals", .free, .fixed "match"], .matchGoal⟩,
    ⟨"POST", inModule [.fixed "batch"], .matchBatch⟩,
    ⟨"POST", inModule [.fixed "review"], .review⟩,
    ⟨"POST", inModule [.fixed "review", .fixed "bulk"], .reviewSeveral⟩,
    ⟨"POST", inModule [.fixed "manual-matches"], .createMatch⟩,
    ⟨"POST", inModule [.fixed "manual-matches", .fixed "remove"], .removeMatches⟩,
    ⟨"GET", inModule [.fixed "reversals", .free, .fixed "candidates"], .reversalCandidates⟩,
    ⟨"POST", inModule [.fixed "reversals"], .linkReversal⟩,
    ⟨"DELETE", inModule [.fixed "reversals", .free], .unlinkReversal⟩,
    ⟨"GET", inModule [.fixed "reversals", .free, .fixed "partner"], .reversalPartner⟩,
    ⟨"POST", inModule [.fixed "resolution", .fixed "detect"], .sweep⟩,
    ⟨"GET", inModule [.fixed "resolution", .fixed "stats"], .resolutionStats⟩,
    ⟨"GET", inModule [.fixed "resolution", .fixed "report"], .resolvedReport⟩,
    ⟨"GET", inModule [.fixed "goals", .free, .fixed "summary"], .goalSummary⟩,
    ⟨"GET", inModule [.fixed "goals", .free, .fixed "instruments"], .instrumentSummary⟩,
    ⟨"GET", inModule [.fixed "status-counts"], .statusCounts⟩]

/-- What a method and a path lead to. -/
inductive Destination where
  | endpoint (endpoint : Endpoint) (texts : List String)
  | otherMethod (allowed : String)
  | otherPath (path : String)
  | nowhere
deriving DecidableEq

/-- The parts of a path behind its first slash. -/
def parts (path : String) : List String :=
  (path.splitOn "/").drop 1

/-- The routes that a path fits, with the texts in their open places. -/
def fitting (path : String) : List (Route × List String) :=
  routes.filterMap fun route => (Route.texts? route.path (parts path)).map fun texts => (route, texts)

/-- A path with the slashes at its end taken away or, if there are none, one added. -/
def otherEnding (path : String) : String :=
  if path.toList.getLast? = some '/' then String.ofList (path.toList.reverse.dropWhile (· = '/')).reverse
  else path ++ "/"

/-- The endpoint of a method and a path, or why there is none: the path takes another method, a path with the other
ending exists, or neither. -/
def find (method path : String) : Destination :=
  match fitting path with
  | [] => if path ≠ "/" ∧ !(fitting (otherEnding path)).isEmpty then .otherPath (otherEnding path) else .nowhere
  | (first, texts) :: rest =>
    match ((first, texts) :: rest).find? (·.1.method = method) with
    | some (route, texts) => .endpoint route.endpoint texts
    | none => .otherMethod first.method

end GoalReconciliation.Http

import GoalReconciliation.Http.Call
import GoalReconciliation.Store.Database

/-!
# Starting a server

* `Server.ofSettings` : a server in the mode of some settings and with the tolerance and pages of others.
* `Server.needUsable` : settings with which a server starts.
* `Server.database` : the database of a server that has started.
-/

namespace GoalReconciliation.Http.Server

set_option autoImplicit false

/-- A server in the mode of some settings. Its tolerance and its pages are those that were fixed for the process. -/
def ofSettings (mode fixed : Settings) (keys : List String) (connected interleaves : Bool) : Except Failure Server := do
  let tolerance ← fixed.tolerance
  return { settings := mode, keys, tolerance, origins := fixed.origins, connected, interleaves }

/-- Settings with which a server starts: in production without any problem, and with a database. -/
def needUsable (s : Settings) : Except Failure Unit :=
  if s.isProduction && !s.problems.isEmpty then
    .error (.runtime "Cannot start in production with invalid configuration")
  else if s.databaseUrl = "" then
    .error (.misuse (.reported "DATABASE_URL environment variable is not set"))
  else .ok ()

/-- The database of a server that has started. In production the tables are not made, so that no call succeeds. -/
def database (s : Settings) : Database :=
  { columns := .measured
    outages := if s.isProduction then [Call.execute, .get, .flush, .commit].map fun call => ⟨call, 0⟩ else [] }

end GoalReconciliation.Http.Server

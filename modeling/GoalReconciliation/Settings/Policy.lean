import GoalReconciliation.Assoc
import GoalReconciliation.Binary64.Shortest
import GoalReconciliation.Decimal.Reader
import GoalReconciliation.Settings.Basic
import GoalReconciliation.Sorting
import GoalReconciliation.Text.Basic
import GoalReconciliation.Tolerance

/-!
# What settings mean

* `Settings.isProduction`, `isDevelopment`, `debugEnabled` : the mode of a server. Mode names count in any case; only
  ASCII letters occur in them.
* `Settings.origins` : the web pages that may call the server; outside production the usual local ones may too.
* `Settings.keys` : the keys that clients may present.
* `Settings.toleranceProblems`, `Settings.problems` : what makes settings unusable, at all and in production.
* `Settings.check` : the settings, if they are usable.
* `Settings.tolerance` : the tolerance that they make; a double becomes the decimal with the fewest digits that reads
  back as it.
-/

namespace GoalReconciliation.Settings

set_option autoImplicit false

/-- The text in small ASCII letters. -/
def lowered (s : String) : String :=
  String.ofList (s.toList.map Char.toLower)

def isProduction (s : Settings) : Bool :=
  lowered s.environment = "production"

def isDevelopment (s : Settings) : Bool :=
  lowered s.environment = "development"

/-- Errors are shown in full. -/
def debugEnabled (s : Settings) : Bool :=
  s.debug || s.isDevelopment

/-- The pages of a local web client. -/
def localOrigins : List String :=
  ["http://localhost:3000", "http://localhost:5173", "http://127.0.0.1:3000"]

/-- The pages that may call the server, ascending. -/
def origins (s : Settings) : List String :=
  let named := if s.corsOrigins = "*" then [] else Text.commaList s.corsOrigins
  Sorting.ascending (Assoc.distinct (if s.isProduction then named else named ++ localOrigins))

/-- The keys that clients may present. -/
def keys (s : Settings) : List String :=
  (if s.apiKey = "" then [] else [s.apiKey]) ++ Text.commaList s.apiKeys

/-- A message that holds under a condition. -/
def problemIf (condition : Bool) (message : String) : List String :=
  if condition then [message] else []

/-- What makes the tolerances unusable. -/
def toleranceProblems (s : Settings) : List String :=
  problemIf (s.amountShare < 0.0 || s.amountFloor < 0.0) "Amount tolerances must be non-negative" ++
    problemIf (s.instrumentShare < 0.0) "RECON_INSTRUMENT_TOLERANCE_PERCENT must be non-negative" ++
    problemIf (s.dateWindow < 0) "RECON_DATE_WINDOW_DAYS must be non-negative" ++
    problemIf (!(s.lowLimit ≤ s.mediumLimit && s.mediumLimit ≤ s.highLimit))
      "RECON_SEVERITY_LOW/MEDIUM/HIGH must be ascending" ++
    problemIf (s.splitLimit < 2) "RECON_SPLIT_SEARCH_LIMIT must be at least 2" ++
    problemIf (s.batchSize < 1) "RECON_BATCH_SIZE must be at least 1"

/-- What makes the settings unusable in production. -/
def productionProblems (s : Settings) : List String :=
  problemIf (s.corsOrigins = "*") "CORS_ORIGINS cannot be '*' in production" ++
    problemIf (Text.occursIn "localhost".toList (lowered s.databaseUrl).toList)
      "DATABASE_URL cannot point to localhost in production" ++
    problemIf s.keys.isEmpty "INTERNAL_API_KEY is required" ++
    problemIf s.debug "DEBUG should be False in production"

/-- What makes the settings unusable for a server. -/
def problems (s : Settings) : List String :=
  s.toleranceProblems ++ problemIf (s.databaseUrl = "") "DATABASE_URL is required" ++
    (if s.isProduction then s.productionProblems else [])

/-- The settings are usable. -/
def check (s : Settings) : Except Failure Unit :=
  let problems := if s.isProduction then s.problems else s.toleranceProblems
  if problems.isEmpty then .ok () else .error (.misuse (.invalidConfiguration problems))

/-- The decimal with the digits that a double is shown with. -/
def decimalOf (x : Float) : Decimal :=
  (Decimal.ofText? (Binary64.toText x)).getD (.nan false false 0)

/-- The tolerance that the settings make, if it is usable. -/
def tolerance (s : Settings) : Except Failure Tolerance := do
  let t : Tolerance := {
    share := decimalOf s.amountShare
    floor := decimalOf s.amountFloor
    dateWindow := s.dateWindow
    instrumentShare := decimalOf s.instrumentShare
    lowLimit := decimalOf s.lowLimit
    mediumLimit := decimalOf s.mediumLimit
    highLimit := decimalOf s.highLimit
    sweepWindow := s.sweepWindow
    timingWindow := s.timingWindow
    splitLimit := s.splitLimit
    excludedChannels := Text.commaList s.excludedChannels }
  t.check
  return t

end GoalReconciliation.Settings

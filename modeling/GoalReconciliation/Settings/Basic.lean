import GoalReconciliation.Input.Number
import GoalReconciliation.Text.Basic

/-!
# Settings

* `Settings` : what an operator can set, with its standard values.
* `Settings.ofVariables` : the settings that named texts make, or every text that cannot be read.
* `Settings.toJson` : all settings under their names.
-/

namespace GoalReconciliation

set_option autoImplicit false

/-- What an operator can set. -/
structure Settings where
  environment : String := "development"
  debug : Bool := false
  databaseUrl : String := ""
  apiKey : String := ""
  apiKeys : String := ""
  corsOrigins : String := ""
  amountShare : Float := 0.01
  amountFloor : Float := 1000.0
  dateWindow : Int := 30
  instrumentShare : Float := 0.01
  lowLimit : Float := 1000.0
  mediumLimit : Float := 10000.0
  highLimit : Float := 50000.0
  sweepWindow : Int := 30
  timingWindow : Int := 3
  splitLimit : Int := 10
  batchSize : Int := 100
  excludedChannels : String := "Transfer_Reversal"
  trackerAddress : String := ""
  logLevel : String := "INFO"
  apiTitle : String := "Goal Reconciliation Core API"
  apiVersion : String := "1.0.0"

namespace Settings

/-- Named texts; of two with one name the first counts. -/
abbrev Variables := List (String × String)

/-- A setting that a variable may hold. -/
def setting {α : Type} (given : Variables) (name : String) (standard : α) (read : String → Checked α) :
    Checked α :=
  match given.find? (·.1 = name) with
  | some (_, text) => (read text).inside (.text name)
  | none => .good standard

/-- The settings that named texts make. -/
def ofVariables (given : Variables) : Checked Settings :=
  let standard : Settings := {}
  let text (name standard : String) : Checked String := setting given name standard .good
  let real (name : String) (standard : Float) : Checked Float := setting given name standard Input.realOfText
  let whole (name : String) (standard : Int) : Checked Int := setting given name standard Input.wholeOfText
  Settings.mk
    <$> text "ENVIRONMENT" standard.environment
    <*> setting given "DEBUG" standard.debug Input.truthOfText
    <*> text "DATABASE_URL" standard.databaseUrl
    <*> text "INTERNAL_API_KEY" standard.apiKey
    <*> text "INTERNAL_API_KEYS" standard.apiKeys
    <*> text "CORS_ORIGINS" standard.corsOrigins
    <*> real "RECON_AMOUNT_TOLERANCE_PERCENT" standard.amountShare
    <*> real "RECON_AMOUNT_TOLERANCE_MIN" standard.amountFloor
    <*> whole "RECON_DATE_WINDOW_DAYS" standard.dateWindow
    <*> real "RECON_INSTRUMENT_TOLERANCE_PERCENT" standard.instrumentShare
    <*> real "RECON_SEVERITY_LOW" standard.lowLimit
    <*> real "RECON_SEVERITY_MEDIUM" standard.mediumLimit
    <*> real "RECON_SEVERITY_HIGH" standard.highLimit
    <*> whole "RECON_SWEEP_WINDOW_DAYS" standard.sweepWindow
    <*> whole "RECON_TIMING_WINDOW_DAYS" standard.timingWindow
    <*> whole "RECON_SPLIT_SEARCH_LIMIT" standard.splitLimit
    <*> whole "RECON_BATCH_SIZE" standard.batchSize
    <*> text "RECON_EXCLUDED_CHANNELS" standard.excludedChannels
    <*> text "SENTRY_DSN" standard.trackerAddress
    <*> text "LOG_LEVEL" standard.logLevel
    <*> text "API_TITLE" standard.apiTitle
    <*> text "API_VERSION" standard.apiVersion

/-- All settings under their names. -/
def toJson (s : Settings) : Json :=
  .object
    [("ENVIRONMENT", .text s.environment), ("DEBUG", .bool s.debug), ("DATABASE_URL", .text s.databaseUrl),
      ("INTERNAL_API_KEY", .text s.apiKey), ("INTERNAL_API_KEYS", .text s.apiKeys),
      ("CORS_ORIGINS", .text s.corsOrigins), ("RECON_AMOUNT_TOLERANCE_PERCENT", .real s.amountShare),
      ("RECON_AMOUNT_TOLERANCE_MIN", .real s.amountFloor), ("RECON_DATE_WINDOW_DAYS", .integer s.dateWindow),
      ("RECON_INSTRUMENT_TOLERANCE_PERCENT", .real s.instrumentShare), ("RECON_SEVERITY_LOW", .real s.lowLimit),
      ("RECON_SEVERITY_MEDIUM", .real s.mediumLimit), ("RECON_SEVERITY_HIGH", .real s.highLimit),
      ("RECON_SWEEP_WINDOW_DAYS", .integer s.sweepWindow), ("RECON_TIMING_WINDOW_DAYS", .integer s.timingWindow),
      ("RECON_SPLIT_SEARCH_LIMIT", .integer s.splitLimit), ("RECON_BATCH_SIZE", .integer s.batchSize),
      ("RECON_EXCLUDED_CHANNELS", .text s.excludedChannels), ("SENTRY_DSN", .text s.trackerAddress),
      ("LOG_LEVEL", .text s.logLevel), ("API_TITLE", .text s.apiTitle), ("API_VERSION", .text s.apiVersion)]

end Settings

end GoalReconciliation

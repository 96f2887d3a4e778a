import GoalReconciliation.Http.ErrorBody
import GoalReconciliation.Http.Form
import GoalReconciliation.Http.Route
import GoalReconciliation.Operation
import GoalReconciliation.Settings.Policy

/-!
# What a request asks for

* `Server` : a server's settings, the keys that it accepts, and its tolerance.
* `Call` : a procedure that answers a request, or the reason why it is refused.
* `Endpoint.call` : the call that a request to an endpoint makes, or all that is wrong with its fields.
-/

namespace GoalReconciliation.Http

set_option autoImplicit false

/-- A running server. -/
structure Server where
  settings : Settings := {}
  keys : List String
  tolerance : Tolerance
  origins : List String
  /-- The database answers. -/
  connected : Bool
  /-- The store lets runs take turns at each request. -/
  interleaves : Bool

/-- A procedure that answers a request, or the reason why it is refused. -/
abbrev Call := Except HttpError (Procedure Json)

namespace Endpoint

/-- A range that has to be there whole. -/
def range (first last : Option Date) : Except HttpError DateRange :=
  HttpError.checkDates first last

/-- A range that may be left out, but only whole. -/
def optionalRange (first last : Option Date) : Except HttpError (Option DateRange) :=
  match first, last with
  | none, none => .ok none
  | first, last => (HttpError.checkDates first last).map some

/-- A selection that has to name something. -/
def needSelection (bankIds groupKeys : List String) : Except HttpError Unit :=
  if bankIds.isEmpty ∧ groupKeys.isEmpty then
    .error (.ofBody (.validationError "Provide at least one bank_id or group_key" .null))
  else .ok ()

/-- Who acts. -/
def actor (r : Request) : String :=
  (r.header? "X-User-Id").getD "system"

/-! ## Reading requests -/

variable (server : Server) (now : Timestamp) (r : Request)

/-- An operation under the server's tolerance. -/
def perform (operation : Operation) : Procedure Json :=
  operation.procedure server.tolerance now

/-- The first and last day in a form. -/
def days (form : Form) : Checked (Option Date × Option Date) :=
  Prod.mk <$> form.optional "start_date" Input.day <*> form.optional "end_date" Input.day

def readMatch (goal : String) (form : Form) : Checked Call :=
  let call (first last : Date) (persistent : Bool) : Call := do
    let range ← range (some first) (some last)
    return perform server now (.matchGoal goal range none persistent (actor r))
  call <$> form.needed "start_date" Input.day <*> form.needed "end_date" Input.day
    <*> form.orElse "persist" true Input.truth

def readBatch (form : Form) : Checked Call :=
  let call (first last : Date) (size : Option Int) (offset concurrency : Int) : Call := do
    let range ← range (some first) (some last)
    let chunk : BatchResult.Chunk :=
      ⟨size.getD server.settings.batchSize, offset, concurrency, server.interleaves⟩
    return perform server now (.matchBatch range chunk (actor r))
  call <$> form.needed "start_date" Input.day <*> form.needed "end_date" Input.day
    <*> form.optional "batch_size" (Form.wholeBetween 1 (some 1000))
    <*> form.orElse "offset" 0 (Form.wholeBetween 0 none)
    <*> form.orElse "max_concurrency" 1 (Form.wholeBetween 1 (some 16))

def readReview (form : Form) : Checked Call :=
  let call (id : String) (side : Side) (tag : Option ReviewTag) (notes : Option String) : Call :=
    .ok (perform server now (.tagRecords (Tagging.single side id tag notes (actor r))))
  call <$> form.needed "record_id" Form.text <*> form.orElse "source" Side.bank Form.word
    <*> form.optional "tag" Form.word <*> form.optional "notes" Form.text

def readReviews (form : Form) : Checked Call :=
  let call (bankIds groupKeys : List String) (tag : Option ReviewTag) (notes : Option String) : Call := do
    needSelection bankIds groupKeys
    return perform server now (.tagRecords ⟨bankIds, groupKeys, tag, notes, actor r⟩)
  call <$> form.orElse "bank_ids" [] (Form.texts 0) <*> form.orElse "group_keys" [] (Form.texts 0)
    <*> form.optional "tag" Form.word <*> form.optional "notes" Form.text

def readMatchCreation (form : Form) : Checked Call :=
  let call (bankIds groupKeys : List String) : Call :=
    .ok (perform server now (.createMatch bankIds groupKeys (actor r)))
  call <$> form.needed "bank_ids" (Form.texts 1) <*> form.needed "group_keys" (Form.texts 1)

def readMatchRemoval (form : Form) : Checked Call :=
  let call (bankIds groupKeys : List String) : Call := do
    needSelection bankIds groupKeys
    return do
      let cleared ← ManualMatch.remove bankIds groupKeys (actor r)
      return .object [("cleared_bank_ids", Json.texts cleared), ("count", Json.ofNat cleared.length)]
  call <$> form.orElse "bank_ids" [] (Form.texts 0) <*> form.orElse "group_keys" [] (Form.texts 0)

def readLink (form : Form) : Checked Call :=
  let call (idA idB : String) : Call := .ok (perform server now (.linkReversal idA idB (actor r)))
  call <$> form.needed "bank_id" Form.text <*> form.needed "reversal_bank_id" Form.text

def readSweep (form : Form) : Checked Call :=
  let call (days : Option Date × Option Date) (size : Int) (bankCursor groupCursor batchId : Option String) : Call := do
    let range ← optionalRange days.1 days.2
    let sweep : Sweep := ⟨range, size, bankCursor, groupCursor, Sweep.nameOr batchId, actor r⟩
    return perform server now (.sweep sweep)
  call <$> days form <*> form.orElse "batch_size" 2000 (Form.wholeBetween 1 (some 10000))
    <*> form.optional "bank_cursor" Form.text <*> form.optional "group_cursor" Form.text
    <*> form.optional "batch_id" Form.text

/-- The records that undo a record, as a value. -/
def candidatesOf (id : String) (range : Option DateRange) : Procedure Json := do
  let records ← Reversal.candidates id range
  let values ← (records.mapM fun r => Operation.needJson r.toJson? : Except Failure (List Json))
  return .object [("bank_id", .text id), ("candidates", .list values), ("count", Json.ofNat values.length)]

/-- The partner of a record, as a value. -/
def partnerOf (id : String) : Procedure Json := do
  match ← Reversal.partner id with
  | some partner =>
    let value ← (Operation.needJson partner.toJson? : Except Failure Json)
    return .object [("bank_id", .text id), ("partner", value)]
  | none => return .object [("bank_id", .text id), ("partner", .null)]

def readCandidates (id : String) (form : Form) : Checked Call :=
  let call (days : Option Date × Option Date) : Call := do
    let range ← optionalRange days.1 days.2
    return candidatesOf id range
  call <$> days form

/-- An operation on a range that may be left out. -/
def readOptional (form : Form) (operation : Option DateRange → Operation) : Checked Call :=
  let call (days : Option Date × Option Date) : Call := do
    let range ← optionalRange days.1 days.2
    return perform server now (operation range)
  call <$> days form

/-- An operation on a range that has to be there. -/
def readRanged (form : Form) (operation : DateRange → Operation) : Checked Call :=
  let call (days : Option Date × Option Date) : Call := do
    let range ← range days.1 days.2
    return perform server now (operation range)
  call <$> days form

def readReport (form : Form) : Checked Call :=
  let call (days : Option Date × Option Date) (goal : Option String) (tag : Option ReviewTag) : Call := do
    let range ← optionalRange days.1 days.2
    return do
      let rows ← ResolvedRow.report range goal tag
      return .object [("resolved", .list (rows.map ResolvedRow.toJson)), ("count", Json.ofNat rows.length)]
  call <$> days form <*> form.optional "goal_id" Form.text <*> form.optional "original_tag" Form.word

def readStatusCounts (form : Form) : Checked Call :=
  let call (goal : Option String) (days : Option Date × Option Date) : Call := do
    let range ← optionalRange days.1 days.2
    return perform server now (.statusCounts goal range)
  call <$> form.optional "goal_id" Form.text <*> days form

/-! ## Open endpoints -/

/-- Whether the server and its database answer. -/
def healthOf : Json :=
  .object
    [("status", .text (if server.connected then "healthy" else "degraded")), ("timestamp", .text now.toText),
      ("environment", .text server.settings.environment), ("version", .text server.settings.apiVersion),
      ("database", .text (if server.connected then "connected" else "unavailable"))]

def livenessOf : Json :=
  .object [("status", .text "alive"), ("timestamp", .text now.toText)]

/-- The tolerance in use. -/
def statusOf : Json :=
  let t := server.tolerance
  .object
    [("module", .text "reconciliation"), ("status", .text "operational"),
      ("tolerances", .object
        [("amount_percentage", .text t.share.toText), ("amount_fixed_floor", .text t.floor.toText),
          ("date_window_days", .integer t.dateWindow),
          ("instrument_distribution_percentage", .text t.instrumentShare.toText),
          ("split_search_limit", .integer t.splitLimit), ("excluded_channels", Json.texts t.excludedChannels)]),
      ("timestamp", .text now.toText)]

/-- The answer that needs nothing from the store. -/
def fixed (value : Json) : Checked Call :=
  .good (.ok (pure value))

/-! ## All endpoints -/

/-- The fields of the body. -/
def bodyForm (body : Option Json) : Checked Form :=
  match body with
  | none => (Checked.fault .missing).inside (.text "body")
  | some .null => (Checked.fault .missing).inside (.text "body")
  | some (.object fields) => .good ⟨"body", fields⟩
  | some _ => (Checked.fault .noObject).inside (.text "body")

/-- A call read from the fields of the body. -/
def fromBody (body : Option Json) (read : Form → Checked Call) : Checked Call :=
  match bodyForm body with
  | .good form => read form
  | .bad errors => .bad errors

/-- The call that a request makes, with the texts in the open places of its path. -/
def call (endpoint : Endpoint) (texts : List String) (body : Option Json) : Checked Call :=
  let name := texts.head?.getD ""
  let query := Form.ofQuery r
  match endpoint with
  | health => fixed (healthOf server now)
  | liveness => fixed (livenessOf now)
  | status => fixed (statusOf server now)
  | matchGoal => fromBody body (readMatch server now r name)
  | matchBatch => fromBody body (readBatch server now r)
  | review => fromBody body (readReview server now r)
  | reviewSeveral => fromBody body (readReviews server now r)
  | createMatch => fromBody body (readMatchCreation server now r)
  | removeMatches => fromBody body (readMatchRemoval r)
  | reversalCandidates => readCandidates name query
  | linkReversal => fromBody body (readLink server now r)
  | unlinkReversal => .good (.ok do
      let ids ← Reversal.unlink name (actor r)
      return .object [("unlinked_bank_ids", Json.texts ids)])
  | reversalPartner => .good (.ok (partnerOf name))
  | sweep => fromBody body (readSweep server now r)
  | resolutionStats => readOptional server now query .resolutionStats
  | resolvedReport => readReport query
  | goalSummary => readRanged server now query (.goalSummary name)
  | instrumentSummary => readRanged server now query (.instrumentSummary name)
  | statusCounts => readStatusCounts server now query

end Endpoint

end GoalReconciliation.Http

import GoalReconciliation.BankRecord
import GoalReconciliation.Group
import GoalReconciliation.Reading.Field
import GoalReconciliation.Tolerance

/-!
# Reading records

A record is an object with the fields under which records are written. Only an id, a source and an amount have no
standard value.

* `Reading.bankRecord`, `posting`, `group` : the records of both sides.
* `Reading.groups` : groups as they are given, or made of postings.
* `Reading.tolerance` : the standard tolerance with some of its fields replaced.
-/

namespace GoalReconciliation.Reading

set_option autoImplicit false

/-! ## Parts of records -/

def review (value : Json) : Except Failure Review := do
  return {
    tag := ← orNull word (field value "review_tag")
    notes := text? (field value "review_notes")
    reviewer := text? (field value "reviewed_by")
    reviewedAt := ← instant? (field value "reviewed_at")
    resolved := boolOr false value "variance_resolved"
    resolvedAt := ← instant? (field value "resolved_at")
    reason := text? (field value "resolved_reason")
    batchId := text? (field value "resolved_by_batch_id") }

def reference (value : Json) : Except Failure MatchReference := do
  return {
    matchType := ← word (field value "match_type")
    groupKeys := names (field value "group_keys")
    createdBy := textOr "system" value "created_by"
    createdAt := ← instant? (field value "created_at") }

def link (value : Json) : Except Failure ReversalLink := do
  return {
    partnerId := textOr "" value "partner_id"
    linkedBy := textOr "" value "linked_by"
    linkedAt := ← instant? (field value "linked_at") }

/-- Pairs of an instrument and an amount; of two for one instrument the later counts. -/
def amounts (value : Json) : Except Failure GivenAmounts := do
  let pairs ← (items value).mapM fun pair =>
    match pair with
    | .list [code, amount] => return (given code, ← money amount)
    | _ => unusable "instrument_amounts"
  return GivenAmounts.ofPairs pairs

/-- The amounts per instrument; without them all of the total is in the money market. -/
def amountsOr (total : Decimal) (value : Json) : Except Failure GivenAmounts :=
  match value.field? "instrument_amounts" with
  | some pairs => amounts pairs
  | none => .ok [(.word .moneyMarket, total)]

/-- The day of a record; a null stands for a given day, if there is one. -/
def dateOr (undated : Option Date) (value : Json) : Except Failure Date :=
  match (value.field? "transaction_date").getD (.text "2024-03-15"), undated with
  | .null, some d => .ok d
  | value, _ => date value

/-- The goal of a record; a null is shown as messages show it. -/
def goal (value : Json) : String :=
  ((value.field? "goal_id").getD (.text "G1")).display

/-! ## Records -/

/-- A bank record, and the day that stands for a null one. -/
def bankRecord (value : Json) (undated : Option Date := none) : Except Failure BankRecord := do
  let amount ← money (field value "total_amount")
  let status ← match value.field? "reconciliation_status" with
    | some status => word status
    | none => pure .pending
  return {
    id := textOr "" value "id"
    goalId := goal value
    accountId := textOr "ACC1" value "account_id"
    sourceId := textOr "" value "source_transaction_id"
    givenType := givenOr .deposit value "transaction_type"
    date := ← dateOr undated value
    amount := amount
    givenInstruments := ← amountsOr amount value
    reference := ← orNull reference (field value "match_reference")
    matchedAt := ← instant? (field value "matched_at")
    score := whole? (field value "match_score")
    status := status
    review := ← review (field value "review")
    reversal := ← orNull link (field value "reversal_link") }

/-- A posting, and the day that stands for a null one. -/
def posting (value : Json) (undated : Option Date := none) : Except Failure Posting := do
  return {
    id := textOr "" value "id"
    goalId := goal value
    accountId := textOr "ACC1" value "account_id"
    sourceId := textOr "" value "source_transaction_id"
    channel := textOr "BANK" value "channel"
    givenInstrument := givenOr .moneyMarket value "instrument_code"
    givenType := givenOr .deposit value "transaction_type"
    date := ← dateOr undated value
    amount := ← money (field value "amount")
    units := ← money ((value.field? "units").getD (.text "0"))
    groupKey := text? (field value "group_key")
    review := ← review (field value "review") }

def group (value : Json) : Except Failure Group := do
  let amount ← money (field value "total_amount")
  return {
    key := textOr "" value "group_key"
    goalId := goal value
    sourceId := textOr "" value "source_transaction_id"
    transactionType := (givenOr .deposit value "transaction_type").listed
    date := ← dateOr none value
    amount := amount
    instruments := (← amountsOr amount value).listed
    postingIds := names (field value "posting_ids")
    review := ← review (field value "review") }

def bankRecords (value : Json) : Except Failure (List BankRecord) :=
  (items value).mapM fun value => bankRecord value

def postings (value : Json) : Except Failure (List Posting) :=
  (items value).mapM fun value => posting value

/-- Groups as they are given, or made of postings. -/
def groups (value : Json) : Except Failure (List Group) := do
  match value.field? "groups" with
  | some given => (items given).mapM group
  | none => Group.buildAll (← postings (field value "postings"))

/-- The standard tolerance with some of its fields replaced, if that makes a usable one. -/
def tolerance (value : Json) : Except Failure Tolerance := do
  let standard : Tolerance := {}
  let moneyOr (name : String) (standard : Decimal) : Except Failure Decimal :=
    match value.field? name with
    | some amount => money amount
    | none => .ok standard
  let t : Tolerance := {
    share := ← moneyOr "amount_percentage" standard.share
    floor := ← moneyOr "amount_fixed_floor" standard.floor
    dateWindow := wholeOr standard.dateWindow value "date_window_days"
    instrumentShare := ← moneyOr "instrument_distribution_percentage" standard.instrumentShare
    lowLimit := ← moneyOr "severity_low" standard.lowLimit
    mediumLimit := ← moneyOr "severity_medium" standard.mediumLimit
    highLimit := ← moneyOr "severity_high" standard.highLimit
    sweepWindow := wholeOr standard.sweepWindow value "sweep_window_days"
    timingWindow := wholeOr standard.timingWindow value "timing_window_days"
    splitLimit := wholeOr standard.splitLimit value "split_search_limit"
    manualShare := ← moneyOr "manual_match_percentage" standard.manualShare
    manualFloor := ← moneyOr "manual_match_floor" standard.manualFloor
    reversalNet := ← moneyOr "reversal_net_tolerance" standard.reversalNet
    excludedChannels := match value.field? "excluded_channels" with
      | some channels => names channels
      | none => standard.excludedChannels }
  t.check
  return t

end GoalReconciliation.Reading

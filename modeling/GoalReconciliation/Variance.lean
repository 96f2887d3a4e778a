import GoalReconciliation.BankRecord
import GoalReconciliation.Group
import GoalReconciliation.Tolerance

/-!
# Variances

* `Variance` : one graded discrepancy between a bank side and a ledger side.
* `Variance.classify` : the variances of a match: its totals, its earliest dates, its amounts per instrument.
* `Variance.missingInLedger`, `Variance.missingInBank` : the variance of an unmatched record or group.
* `StatusDecision.resolve` : the status that a list of variances leads to.
-/

namespace GoalReconciliation

set_option autoImplicit false

/-- One discrepancy between a bank side and a ledger side. -/
structure Variance where
  varianceType : VarianceType
  severity : Severity
  description : String
  expected : Option Decimal := none
  actual : Option Decimal := none
  difference : Option Decimal := none
  percentage : Option Decimal := none
  instrument : Option Instrument := none
  expectedDate : Option Date := none
  actualDate : Option Date := none
  days : Option Nat := none
  autoApproved : Bool := false
  approvalReason : Option String := none
deriving DecidableEq

namespace Variance

/-- A difference as a percentage of a reference, unless that is zero. -/
def percentageOf (difference reference : Decimal) : Except Decimal.Fault (Option Decimal) := do
  if ← reference.equal Decimal.zero then return none
  return some (← (← (← difference.abs).div (← reference.abs)).mul (.ofNat 100))

/-- The variance of the totals, if they do not match; the ledger total is the reference. -/
def ofTotals (t : Tolerance) (bank ledger : Decimal) : Except Decimal.Fault (List Variance) := do
  if ← t.amountsMatch bank ledger then return []
  let difference ← bank.sub ledger
  return [{
    varianceType := .totalAmount
    severity := ← t.severityOf difference
    description := "Total amount mismatch"
    expected := some ledger
    actual := some bank
    difference := some difference
    percentage := ← percentageOf difference ledger }]

/-- The variance of two dates, if they differ: low and approved within the window, medium beyond it. -/
def ofDates (t : Tolerance) (bank ledger : Date) : List Variance :=
  let days := bank.daysApart ledger
  let description := "Transaction date differs by " ++ toString days ++ " day(s)"
  if days = 0 then []
  else if (days : Int) ≤ t.dateWindow then
    [{
      varianceType := .dateDifference
      severity := .low
      description := description
      expectedDate := some ledger
      actualDate := some bank
      days := some days
      autoApproved := true
      approvalReason := some ("Date variance within acceptable tolerance (" ++ toString t.dateWindow ++ " days)") }]
  else
    [{
      varianceType := .dateDifference
      severity := .medium
      description := description ++ " - exceeds tolerance"
      expectedDate := some ledger
      actualDate := some bank
      days := some days }]

/-- The variance of the amounts of one instrument, if their difference is a greater share of the ledger's than
allowed. A ledger amount of zero has no share. -/
def ofInstrument (t : Tolerance) (bank ledger : Amounts) (code : Instrument) :
    Except Decimal.Fault (List Variance) := do
  let actual := bank.amount code
  let expected := ledger.amount code
  let size ← Tolerance.distance actual expected
  let ratio ← if ← expected.equal Decimal.zero then pure Decimal.zero else do size.div (← expected.abs)
  if ← ratio.le t.instrumentShare then return []
  let severity ← t.severityOf size
  let autoApproved ←
    if severity = .low then do ratio.le (← t.instrumentShare.mul (.ofNat 2)) else pure false
  return [{
    varianceType := .instrumentAmount
    severity := severity
    description := code.name ++ " amount variance"
    expected := some expected
    actual := some actual
    difference := some (← actual.sub expected)
    percentage := some (← ratio.mul (.ofNat 100))
    instrument := some code
    autoApproved := autoApproved
    approvalReason := if severity = .low then some "Small variance within acceptable tolerance" else none }]

/-- The variances between the two sides of a match; none if a side is empty. -/
def classify (t : Tolerance) (records : List BankRecord) (groups : List Group) :
    Except Decimal.Fault (List Variance) :=
  match Date.earliest? (records.map BankRecord.date), Date.earliest? (groups.map Group.date) with
  | some bankDate, some ledgerDate => do
    let bankTotal ← Decimal.sum (records.map BankRecord.amount)
    let ledgerTotal ← Decimal.sum (groups.map Group.amount)
    let totals ← ofTotals t bankTotal ledgerTotal
    let bankAmounts ← Amounts.total (records.map BankRecord.instruments)
    let ledgerAmounts ← Amounts.total (groups.map Group.instruments)
    let instruments ← Instrument.all.mapM (ofInstrument t bankAmounts ledgerAmounts)
    return totals ++ ofDates t bankDate ledgerDate ++ instruments.flatten
  | _, _ => .ok []

/-- The variance of a bank record without a counterpart. -/
def missingInLedger (r : BankRecord) : Variance where
  varianceType := .missingInLedger
  severity := .critical
  description := "No matching ledger transaction found for goal " ++ r.goalId ++ " and transaction ID " ++ r.sourceId
  actual := some r.amount
  actualDate := some r.date

/-- The variance of a group without a counterpart. -/
def missingInBank (g : Group) : Variance where
  varianceType := .missingInBank
  severity := .critical
  description := "No matching bank transaction found for goal " ++ g.goalId ++ " and transaction ID " ++ g.sourceId
  expected := some g.amount
  expectedDate := some g.date

def toJson (v : Variance) : Json :=
  let money (d : Option Decimal) : Json := Json.ofText? (d.map Decimal.toText)
  .object
    [("variance_type", .text v.varianceType.name), ("severity", .text v.severity.name),
      ("description", .text v.description), ("expected_value", money v.expected), ("actual_value", money v.actual),
      ("difference_amount", money v.difference), ("difference_percentage", money v.percentage),
      ("instrument_code", Json.ofText? (v.instrument.map Instrument.name)),
      ("expected_date", Json.ofText? (v.expectedDate.map Date.toText)),
      ("actual_date", Json.ofText? (v.actualDate.map Date.toText)),
      ("date_difference_days", Json.ofInt? (v.days.map Int.ofNat)), ("auto_approved", .bool v.autoApproved),
      ("auto_approval_reason", Json.ofText? v.approvalReason)]

end Variance

/-- A status, and whether it needs no operator. -/
structure StatusDecision where
  status : Status
  autoApproved : Bool
deriving DecidableEq

/-- The status of a match with these variances, each with its severity and whether it is approved. -/
def StatusDecision.resolve (variances : List (Severity × Bool)) : StatusDecision :=
  if variances.isEmpty then ⟨.matched, true⟩
  else if variances.any (·.1.isBlocking) then ⟨.manualReview, false⟩
  else if variances.all (·.2) then ⟨.autoApproved, true⟩
  else ⟨.manualReview, false⟩

/-- The status of a match with these variances. -/
def Variance.decide (variances : List Variance) : StatusDecision :=
  StatusDecision.resolve (variances.map fun v => (v.severity, v.autoApproved))

end GoalReconciliation

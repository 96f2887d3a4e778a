import GoalReconciliation.Run.Admission
import GoalReconciliation.Store.Procedure

/-!
# The summary of a goal's instruments

* `InstrumentSummary` : the net amounts of one instrument on both sides.
* `InstrumentSummary.ofGoal` : those of every instrument; an unknown code ends the summary.
-/

namespace GoalReconciliation

set_option autoImplicit false

/-- The net amounts of one instrument on both sides. -/
structure InstrumentSummary where
  instrument : Instrument
  bank : Decimal
  ledger : Decimal
  difference : Decimal
  varies : Bool
deriving DecidableEq

namespace InstrumentSummary

/-- An amount added to its instrument's. -/
def addTo (totals : Amounts) (entry : Listed Instrument × Decimal) : Except Failure Amounts :=
  match entry.1 with
  | .known _ => totals.addTo entry.1 entry.2
  | .unknown text _ => .error (.unknownKey text)

/-- The sums of amounts per instrument. -/
def totals (entries : Amounts) : Except Failure Amounts :=
  entries.foldlM addTo []

/-- The amounts of one instrument, with the ledger's as the reference. -/
def ofTotals (t : Tolerance) (bank ledger : Amounts) (code : Instrument) : Except Decimal.Fault InstrumentSummary := do
  let bank := bank.amount code
  let ledger := ledger.amount code
  let difference ← bank.sub ledger
  let agrees ← t.amountsMatch bank ledger
  return ⟨code, bank, ledger, difference, !agrees⟩

/-- The amounts of every instrument of a goal in a range of days. -/
def ofGoal (t : Tolerance) (goal : String) (range : DateRange) : Procedure (List InstrumentSummary) := do
  let records ← Procedure.bankRecords (some goal) (some range)
  let bank ← (totals (records.flatMap BankRecord.instruments) : Except Failure Amounts)
  let postings := Admission.onChannel t (← Procedure.postings (some goal) (some range))
  let ledger ← (totals (postings.map fun p => (p.instrument, p.amount)) : Except Failure Amounts)
  (Instrument.all.mapM (ofTotals t bank ledger) : Except Decimal.Fault (List InstrumentSummary))

def toJson (s : InstrumentSummary) : Json :=
  .object
    [("instrument_code", .text s.instrument.name), ("bank_amount", .text s.bank.toText),
      ("ledger_amount", .text s.ledger.toText), ("difference", .text s.difference.toText),
      ("has_variance", .bool s.varies)]

/-- The summary of a goal as a value. -/
def report (goal : String) (range : DateRange) (instruments : List InstrumentSummary) : Json :=
  .object
    [("goal_id", .text goal), ("date_range", range.toJson), ("instruments", .list (instruments.map toJson))]

end InstrumentSummary

end GoalReconciliation

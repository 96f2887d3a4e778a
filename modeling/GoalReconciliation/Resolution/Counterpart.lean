import GoalReconciliation.BankRecord
import GoalReconciliation.Group
import GoalReconciliation.Tolerance

/-!
# Counterparts of tagged records

A tagged record is resolved by a counterpart that has appeared since: of its type, and with an amount within the
allowance of its own.

* `Candidates` : the records and groups of one goal, on all days.
* `Candidates.reasonForRecord` : why a tagged bank record is resolved, if it is.
* `Candidates.reasonForGroup` : why a group with a tagged posting is resolved, if it is.
-/

namespace GoalReconciliation

set_option autoImplicit false

/-- The possible counterparts of one goal. -/
structure Candidates where
  records : List BankRecord
  groups : List Group

namespace Candidates

/-- Two days that are at most so many days apart. -/
def within (window : Int) (a b : Date) : Bool :=
  decide ((a.daysApart b : Int) ≤ window)

/-- A check of amounts behind a condition; where that fails, the amounts are not looked at. -/
def andMatch (t : Tolerance) (condition : Bool) (amount tagged : Decimal) : Except Decimal.Fault Bool :=
  if condition then t.amountsMatch amount tagged else .ok false

/-! ## Bank records -/

def foundInLedger (g : Group) : String :=
  "Matching ledger transaction found: " ++ g.key

/-- The counterpart of a record that was missing in the ledger: the first of its source id, else the first in the
window. -/
def ledgerCounterpart (t : Tolerance) (r : BankRecord) (sameType : List Group) :
    Except Decimal.Fault (Option Group) := do
  match ← sameType.findM? fun g => andMatch t (g.sourceId = r.sourceId) g.amount r.amount with
  | some g => return some g
  | none => sameType.findM? fun g => andMatch t (within t.sweepWindow g.date r.date) g.amount r.amount

/-- The counterpart of a record whose date differed: the first of its source id in the narrow window. -/
def ledgerTiming (t : Tolerance) (r : BankRecord) (sameType : List Group) : Except Decimal.Fault (Option Group) :=
  sameType.findM? fun g =>
    andMatch t (g.sourceId = r.sourceId && within t.timingWindow g.date r.date) g.amount r.amount

/-- Why a tagged bank record is resolved, if it is. -/
def reasonForRecord (c : Candidates) (t : Tolerance) (r : BankRecord) : Except Decimal.Fault (Option String) :=
  let sameType := c.groups.filter (·.transactionType = r.transactionType)
  match r.review.tag with
  | some .missingInLedger => do
    return (← ledgerCounterpart t r sameType).map foundInLedger
  | some .timingDifference => do
    return (← ledgerTiming t r sameType).map fun g =>
      "Date now within tolerance. Bank: " ++ r.date.toText ++ ", Ledger: " ++ g.date.toText
  | _ => .ok none

/-! ## Groups -/

def foundInBank (r : BankRecord) : String :=
  "Matching bank transaction found: " ++ r.sourceId

/-- The counterpart of a group that was missing in the bank: the first of its source id, else the first in the
window. -/
def bankCounterpart (t : Tolerance) (g : Group) (sameType : List BankRecord) :
    Except Decimal.Fault (Option BankRecord) := do
  match ← sameType.findM? fun r => andMatch t (r.sourceId = g.sourceId) r.amount g.amount with
  | some r => return some r
  | none => sameType.findM? fun r => andMatch t (within t.sweepWindow r.date g.date) r.amount g.amount

/-- The counterpart of a group whose date differed: the first of its source id in the narrow window. -/
def bankTiming (t : Tolerance) (g : Group) (sameType : List BankRecord) :
    Except Decimal.Fault (Option BankRecord) :=
  sameType.findM? fun r =>
    andMatch t (r.sourceId = g.sourceId && within t.timingWindow r.date g.date) r.amount g.amount

/-- Why a group with a tag is resolved, if it is. -/
def reasonForGroup (c : Candidates) (t : Tolerance) (tag : ReviewTag) (g : Group) :
    Except Decimal.Fault (Option String) :=
  let sameType := c.records.filter (·.transactionType = g.transactionType)
  match tag with
  | .missingInBank => do
    return (← bankCounterpart t g sameType).map foundInBank
  | .timingDifference => do
    return (← bankTiming t g sameType).map fun r =>
      "Date now within tolerance. Ledger: " ++ g.date.toText ++ ", Bank: " ++ r.date.toText
  | _ => .ok none

end Candidates

end GoalReconciliation

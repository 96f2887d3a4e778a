import GoalReconciliation.Decimal.Printer
import GoalReconciliation.Review

/-!
# Ledger postings

* `Posting` : one internal ledger entry against one instrument; `instrument`, `transactionType` : its words as they
  compare.
-/

namespace GoalReconciliation

set_option autoImplicit false

/-- One ledger entry against one instrument. -/
structure Posting where
  id : String
  goalId : String
  accountId : String
  sourceId : String
  channel : String
  givenInstrument : Given Instrument
  givenType : Given TransactionType
  date : Date
  amount : Decimal
  units : Decimal := Decimal.zero
  groupKey : Option String := none
  review : Review := {}
deriving DecidableEq

namespace Posting

/-- The instrument as it compares. -/
def instrument (p : Posting) : Listed Instrument :=
  p.givenInstrument.listed

/-- The type as it compares. -/
def transactionType (p : Posting) : Listed TransactionType :=
  p.givenType.listed

/-- The posting as a value, if it has words. -/
def toJson? (p : Posting) : Option Json := do
  let instrument ← p.givenInstrument.word?
  let transactionType ← p.givenType.word?
  return .object
    [("id", .text p.id), ("goal_id", .text p.goalId), ("account_id", .text p.accountId),
      ("source_transaction_id", .text p.sourceId), ("channel", .text p.channel),
      ("instrument_code", .text instrument.name), ("transaction_type", .text transactionType.name),
      ("transaction_date", .text p.date.toText), ("amount", .text p.amount.toText), ("units", .text p.units.toText),
      ("group_key", Json.ofText? p.groupKey), ("review", p.review.toJson)]

end Posting

end GoalReconciliation

import GoalReconciliation.BankRecord
import GoalReconciliation.Failure
import GoalReconciliation.Posting

/-!
# Records that can take part

A record that fails these checks is reported and left out of a run.

* `Header` : what both sides' records share, as a source sent it; the date may be missing.
* `Header.check` : an id, the right goal, a source id, a type and a date. A plain text is no type, even one that reads
  like a type.
* `BankRecord.check`, `Posting.check` : that, and finite amounts under instruments.
-/

namespace GoalReconciliation

set_option autoImplicit false

/-- What both sides' records share. -/
structure Header where
  id : String
  goalId : String
  sourceId : String
  transactionType : Given TransactionType
  date : Option Date

namespace Header

/-- The checks that both sides share; the first one that fails counts. -/
def check (h : Header) (goal : String) : Except Problem Unit := do
  if h.id = "" then throw .idRequired
  if h.goalId ≠ goal then throw (.foreignGoal h.id h.goalId goal)
  if h.sourceId = "" then throw (.sourceRequired h.id)
  if let .text text := h.transactionType then throw (.unknownType h.id text)
  if h.date.isNone then throw (.undated h.id)

/-- An amount that a record may have. -/
def checkAmount (h : Header) (field : String) (amount : Decimal) : Except Problem Unit :=
  if amount.isFinite then .ok () else .error (.notFinite h.id field)

/-- The checks of a bank record with this header. -/
def checkBank (h : Header) (amount : Decimal) (instruments : GivenAmounts) (goal : String) : Except Problem Unit := do
  h.check goal
  h.checkAmount "total_amount" amount
  instruments.forM fun (code, amount) =>
    match code with
    | .word word => h.checkAmount (word.name ++ " amount") amount
    | .text text => throw (.unknownInstrument h.id "instrument_amounts" text)

/-- The checks of a posting with this header. -/
def checkPosting (h : Header) (instrument : Given Instrument) (amount : Decimal) (goal : String) :
    Except Problem Unit := do
  h.check goal
  if let .text text := instrument then throw (.unknownInstrument h.id "instrument_code" text)
  h.checkAmount "amount" amount

end Header

/-- A bank record can take part in a run for a goal. -/
def BankRecord.check (r : BankRecord) (goal : String) : Except Problem Unit :=
  Header.checkBank ⟨r.id, r.goalId, r.sourceId, r.givenType, some r.date⟩ r.amount r.givenInstruments
    goal

/-- A posting can take part in a run for a goal. -/
def Posting.check (p : Posting) (goal : String) : Except Problem Unit :=
  Header.checkPosting ⟨p.id, p.goalId, p.sourceId, p.givenType, some p.date⟩ p.givenInstrument p.amount goal

end GoalReconciliation

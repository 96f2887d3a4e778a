import GoalReconciliation.Amounts
import GoalReconciliation.BankRecord
import GoalReconciliation.Failure
import GoalReconciliation.GroupingKey

/-!
# Rows of the two tables

* `ReviewColumns`, `BankRow`, `PostingRow` : the columns of a row. A reference, a reversal link and the amounts per
  instrument are flattened; an empty text in a column means the same as none.
* `BankRow.apply`, `PostingRow.apply` : a row with every column written from a record.
* `BankRow.toRecord`, `PostingRow.toPosting` : the record that a row holds.
* `BankRow.toJson`, `PostingRow.toJson` : the columns under their names.
-/

namespace GoalReconciliation

set_option autoImplicit false

/-- The review columns, which both tables have. -/
structure ReviewColumns where
  tag : Option String := none
  notes : Option String := none
  reviewer : Option String := none
  reviewedAt : Option Timestamp := none
  resolved : Bool := false
  resolvedAt : Option Timestamp := none
  reason : Option String := none
  batchId : Option String := none
deriving DecidableEq

/-- A column's text, unless it is empty. -/
def present (column : Option String) : Option String :=
  column.filter (· ≠ "")

namespace ReviewColumns

def ofReview (r : Review) : ReviewColumns where
  tag := r.tag.map ReviewTag.name
  notes := r.notes
  reviewer := r.reviewer
  reviewedAt := r.reviewedAt
  resolved := r.resolved
  resolvedAt := r.resolvedAt
  reason := r.reason
  batchId := r.batchId

def toReview (columns : ReviewColumns) : Except Failure Review := do
  let tag ← (present columns.tag).mapM Word.read
  return {
    tag := tag
    notes := columns.notes
    reviewer := columns.reviewer
    reviewedAt := columns.reviewedAt
    resolved := columns.resolved
    resolvedAt := columns.resolvedAt
    reason := columns.reason
    batchId := columns.batchId }

/-- The columns under their names. -/
def fields (columns : ReviewColumns) : List (String × Json) :=
  [("review_tag", Json.ofText? columns.tag), ("review_notes", Json.ofText? columns.notes),
    ("reviewed_by", Json.ofText? columns.reviewer), ("reviewed_at", Timestamp.toJson? columns.reviewedAt),
    ("variance_resolved", .bool columns.resolved), ("resolved_at", Timestamp.toJson? columns.resolvedAt),
    ("resolved_reason", Json.ofText? columns.reason), ("resolved_by_batch_id", Json.ofText? columns.batchId)]

end ReviewColumns

/-- The word that a column needs. -/
def needWord {α : Type} (given : Given α) : Except Failure α :=
  match given with
  | .word word => .ok word
  | .text _ => .error .unnamed

/-! ## Bank records -/

/-- A row of the table of bank records. -/
structure BankRow where
  id : String := ""
  goalId : String := ""
  accountId : String := ""
  sourceId : String := ""
  transactionType : String := ""
  date : Date := Date.first
  amount : Decimal := Decimal.zero
  moneyMarket : Option Decimal := none
  bond : Option Decimal := none
  dollarEquity : Option Decimal := none
  regionalEquity : Option Decimal := none
  matchType : Option String := none
  groupKeys : Option (List String) := none
  createdBy : Option String := none
  createdAt : Option Timestamp := none
  matchedAt : Option Timestamp := none
  score : Option Int := none
  status : Option String := none
  partnerId : Option String := none
  linkedBy : Option String := none
  linkedAt : Option Timestamp := none
  review : ReviewColumns := {}
deriving DecidableEq

namespace BankRow

/-- The amount column of an instrument. -/
def column (row : BankRow) : Instrument → Option Decimal
  | .moneyMarket => row.moneyMarket
  | .bond => row.bond
  | .dollarEquity => row.dollarEquity
  | .regionalEquity => row.regionalEquity

/-- The row with every column written from a record whose type is a word. -/
def apply (row : BankRow) (r : BankRecord) : Except Failure BankRow := do
  let transactionType ← needWord r.givenType
  let amount (code : Instrument) : Option Decimal := Assoc.get? (.known code) r.instruments
  return { row with
    id := r.id
    goalId := r.goalId
    accountId := r.accountId
    sourceId := r.sourceId
    transactionType := transactionType.name
    date := r.date
    amount := r.amount
    moneyMarket := amount .moneyMarket
    bond := amount .bond
    dollarEquity := amount .dollarEquity
    regionalEquity := amount .regionalEquity
    matchType := r.reference.map (·.matchType.name)
    groupKeys := r.reference.map (·.groupKeys)
    createdBy := r.reference.map (·.createdBy)
    createdAt := r.reference.bind (·.createdAt)
    matchedAt := r.matchedAt
    score := r.score
    status := some r.status.name
    partnerId := r.reversal.map (·.partnerId)
    linkedBy := r.reversal.map (·.linkedBy)
    linkedAt := r.reversal.bind (·.linkedAt)
    review := ReviewColumns.ofReview r.review }

/-- The amounts in the columns that hold one. -/
def amounts (row : BankRow) : GivenAmounts :=
  Instrument.all.filterMap fun code => (row.column code).map fun amount => (.word code, amount)

/-- The reference, if the row has a match type. -/
def reference (row : BankRow) : Except Failure (Option MatchReference) :=
  match present row.matchType with
  | none => .ok none
  | some name => do
    let matchType ← Word.read name
    return some ⟨matchType, row.groupKeys.getD [], (present row.createdBy).getD "system", row.createdAt⟩

/-- The reversal link, if the row names a partner. -/
def reversal (row : BankRow) : Option ReversalLink :=
  (present row.partnerId).map fun partner => ⟨partner, (present row.linkedBy).getD "system", row.linkedAt⟩

/-- The record that the row holds. -/
def toRecord (row : BankRow) : Except Failure BankRecord := do
  let reference ← row.reference
  let transactionType ← Word.read row.transactionType
  let status ← Word.read ((present row.status).getD Status.pending.name)
  let review ← row.review.toReview
  return {
    id := row.id
    goalId := row.goalId
    accountId := row.accountId
    sourceId := row.sourceId
    givenType := .word transactionType
    date := row.date
    amount := row.amount
    givenInstruments := row.amounts
    reference := reference
    matchedAt := row.matchedAt
    score := row.score
    status := status
    review := review
    reversal := row.reversal }

/-- The columns under their names. -/
def toJson (row : BankRow) : Json :=
  let money (amount : Option Decimal) : Json := Json.ofText? (amount.map Decimal.toText)
  .object
    ([("id", .text row.id), ("goal_id", .text row.goalId), ("account_id", .text row.accountId),
      ("source_transaction_id", .text row.sourceId), ("transaction_type", .text row.transactionType),
      ("transaction_date", .text row.date.toText), ("total_amount", .text row.amount.toText),
      ("xummf_amount", money row.moneyMarket), ("xubf_amount", money row.bond),
      ("xudef_amount", money row.dollarEquity), ("xuref_amount", money row.regionalEquity),
      ("match_type", Json.ofText? row.matchType),
      ("match_group_keys", (row.groupKeys.map Json.texts).getD .null),
      ("match_created_by", Json.ofText? row.createdBy), ("match_created_at", Timestamp.toJson? row.createdAt),
      ("matched_at", Timestamp.toJson? row.matchedAt), ("match_score", Json.ofInt? row.score),
      ("reconciliation_status", Json.ofText? row.status), ("reversal_partner_id", Json.ofText? row.partnerId),
      ("reversal_linked_by", Json.ofText? row.linkedBy), ("reversal_linked_at", Timestamp.toJson? row.linkedAt)] ++
      row.review.fields)

end BankRow

/-! ## Postings -/

/-- A row of the table of postings. -/
structure PostingRow where
  id : String := ""
  goalId : String := ""
  accountId : String := ""
  sourceId : String := ""
  channel : String := ""
  instrument : String := ""
  transactionType : String := ""
  date : Date := Date.first
  amount : Decimal := Decimal.zero
  units : Option Decimal := none
  groupKey : Option String := none
  review : ReviewColumns := {}
deriving DecidableEq

namespace PostingRow

/-- The row with every column written from a posting whose words are known and that has a key. -/
def apply (row : PostingRow) (p : Posting) : Except Failure PostingRow := do
  let instrument ← needWord p.givenInstrument
  let transactionType ← needWord p.givenType
  let key ← p.key
  return { row with
    id := p.id
    goalId := p.goalId
    accountId := p.accountId
    sourceId := p.sourceId
    channel := p.channel
    instrument := instrument.name
    transactionType := transactionType.name
    date := p.date
    amount := p.amount
    units := some p.units
    groupKey := some key
    review := ReviewColumns.ofReview p.review }

/-- The units; a zero of any form is the plain zero. -/
def plainUnits (row : PostingRow) : Decimal :=
  (row.units.filter (!·.isZero)).getD Decimal.zero

/-- The posting that the row holds. -/
def toPosting (row : PostingRow) : Except Failure Posting := do
  let instrument ← Word.read row.instrument
  let transactionType ← Word.read row.transactionType
  let review ← row.review.toReview
  return {
    id := row.id
    goalId := row.goalId
    accountId := row.accountId
    sourceId := row.sourceId
    channel := row.channel
    givenInstrument := .word instrument
    givenType := .word transactionType
    date := row.date
    amount := row.amount
    units := row.plainUnits
    groupKey := row.groupKey
    review := review }

/-- The columns under their names. -/
def toJson (row : PostingRow) : Json :=
  .object
    ([("id", .text row.id), ("goal_id", .text row.goalId), ("account_id", .text row.accountId),
      ("source_transaction_id", .text row.sourceId), ("channel", .text row.channel),
      ("instrument_code", .text row.instrument), ("transaction_type", .text row.transactionType),
      ("transaction_date", .text row.date.toText), ("amount", .text row.amount.toText),
      ("units", Json.ofText? (row.units.map Decimal.toText)),
      ("goal_transaction_code", Json.ofText? row.groupKey)] ++ row.review.fields)

end PostingRow

end GoalReconciliation

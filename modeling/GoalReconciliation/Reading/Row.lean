import GoalReconciliation.Reading.Field
import GoalReconciliation.Store.Row

/-!
# Reading rows

* `Reading.bankRow`, `Reading.postingRow` : a row of either table from its columns under their names; an absent
  column holds null.
-/

namespace GoalReconciliation.Reading

set_option autoImplicit false

/-- The amount in a column: a text, a whole number, or a double. -/
def columnAmount? (row : Json) (name : String) : Except Failure (Option Decimal) :=
  match field row name with
  | .null => .ok none
  | .integer n => .ok (some (.finite (n < 0) n.natAbs 0))
  | .real x => .ok (some (Binary64.toDecimal x))
  | value => some <$> money value

/-- The amount in a column that has one. -/
def columnAmount (row : Json) (name : String) : Except Failure Decimal := do
  return (← columnAmount? row name).getD (.nan false false 0)

/-- The name in a column that holds a word of a list. -/
def columnName (list : String) (row : Json) (name : String) : Except Failure String :=
  match field row name with
  | .text s => .ok s
  | value => .error (.misuse (.reported (value.notated ++ " is not a valid " ++ list)))

def reviewColumns (row : Json) : Except Failure ReviewColumns := do
  return {
    tag := text? (field row "review_tag")
    notes := text? (field row "review_notes")
    reviewer := text? (field row "reviewed_by")
    reviewedAt := ← instant? (field row "reviewed_at")
    resolved := boolOr false row "variance_resolved"
    resolvedAt := ← instant? (field row "resolved_at")
    reason := text? (field row "resolved_reason")
    batchId := text? (field row "resolved_by_batch_id") }

/-- A row of the table of bank records. -/
def bankRow (row : Json) : Except Failure BankRow := do
  return {
    id := textOr "" row "id"
    goalId := textOr "" row "goal_id"
    accountId := textOr "" row "account_id"
    sourceId := textOr "" row "source_transaction_id"
    transactionType := ← columnName (Word.listName TransactionType) row "transaction_type"
    date := ← date (field row "transaction_date")
    amount := ← columnAmount row "total_amount"
    moneyMarket := ← columnAmount? row "xummf_amount"
    bond := ← columnAmount? row "xubf_amount"
    dollarEquity := ← columnAmount? row "xudef_amount"
    regionalEquity := ← columnAmount? row "xuref_amount"
    matchType := text? (field row "match_type")
    groupKeys := match field row "match_group_keys" with
      | .null => none
      | keys => some (names keys)
    createdBy := text? (field row "match_created_by")
    createdAt := ← instant? (field row "match_created_at")
    matchedAt := ← instant? (field row "matched_at")
    score := whole? (field row "match_score")
    status := text? (field row "reconciliation_status")
    partnerId := text? (field row "reversal_partner_id")
    linkedBy := text? (field row "reversal_linked_by")
    linkedAt := ← instant? (field row "reversal_linked_at")
    review := ← reviewColumns row }

/-- A row of the table of postings. -/
def postingRow (row : Json) : Except Failure PostingRow := do
  return {
    id := textOr "" row "id"
    goalId := textOr "" row "goal_id"
    accountId := textOr "" row "account_id"
    sourceId := textOr "" row "source_transaction_id"
    channel := textOr "" row "channel"
    instrument := ← columnName (Word.listName Instrument) row "instrument_code"
    transactionType := ← columnName (Word.listName TransactionType) row "transaction_type"
    date := ← date (field row "transaction_date")
    amount := ← columnAmount row "amount"
    units := ← columnAmount? row "units"
    groupKey := text? (field row "goal_transaction_code")
    review := ← reviewColumns row }

end GoalReconciliation.Reading

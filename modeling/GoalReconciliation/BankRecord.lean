import GoalReconciliation.Amounts
import GoalReconciliation.Review

/-!
# Bank records

* `MatchReference` : the stored link from a bank record to ledger groups.
* `ReversalLink` : the pairing of a bank record with the one that undoes it.
* `BankRecord` : one row of a bank statement, with its marks; `transactionType`, `instruments` : its type and amounts as
  they compare.
* `BankRecord.clearMatch`, `BankRecord.mark`, `BankRecord.unlink` : what operations do to the marks.
-/

namespace GoalReconciliation

set_option autoImplicit false

/-- The stored link from a bank record to ledger groups. -/
structure MatchReference where
  matchType : MatchType
  groupKeys : List String
  createdBy : String
  createdAt : Option Timestamp
deriving DecidableEq

namespace MatchReference

def isManual (r : MatchReference) : Bool :=
  r.matchType = .manual

/-- The link names a group. -/
def references (r : MatchReference) (key : String) : Bool :=
  r.groupKeys.contains key

/-- Two links of one type to the same groups. -/
def sameLink (r : MatchReference) (other : Option MatchReference) : Bool :=
  other.any fun o => o.matchType = r.matchType && o.groupKeys = r.groupKeys

def toJson (r : MatchReference) : Json :=
  .object
    [("match_type", .text r.matchType.name), ("group_keys", Json.texts r.groupKeys),
      ("created_by", .text r.createdBy), ("created_at", Timestamp.toJson? r.createdAt)]

end MatchReference

/-- The pairing of a bank record with the one that undoes it. -/
structure ReversalLink where
  partnerId : String
  linkedBy : String
  linkedAt : Option Timestamp
deriving DecidableEq

/-- The pairing as a value; it has none without its instant. -/
def ReversalLink.toJson? (link : ReversalLink) : Option Json :=
  link.linkedAt.map fun linkedAt => .object
    [("partner_id", .text link.partnerId), ("linked_by", .text link.linkedBy), ("linked_at", .text linkedAt.toText)]

/-- One row of a bank statement, for one goal. -/
structure BankRecord where
  id : String
  goalId : String
  accountId : String
  sourceId : String
  givenType : Given TransactionType
  date : Date
  amount : Decimal
  givenInstruments : GivenAmounts
  reference : Option MatchReference := none
  matchedAt : Option Timestamp := none
  score : Option Int := none
  status : Status := .pending
  review : Review := {}
  reversal : Option ReversalLink := none
deriving DecidableEq

namespace BankRecord

/-- The type as it compares. -/
def transactionType (r : BankRecord) : Listed TransactionType :=
  r.givenType.listed

/-- The amounts per instrument as their codes compare. -/
def instruments (r : BankRecord) : Amounts :=
  r.givenInstruments.listed

def isMatched (r : BankRecord) : Bool :=
  r.reference.isSome

/-- The record is matched by an operator. -/
def hasManualMatch (r : BankRecord) : Bool :=
  r.reference.any (·.isManual)

/-- The record without its match. -/
def clearMatch (r : BankRecord) : BankRecord :=
  { r with reference := none, matchedAt := none, score := none, status := .pending }

/-- The record with a match written at an instant. -/
def mark (r : BankRecord) (reference : MatchReference) (score : Int) (status : Status) (now : Timestamp) : BankRecord :=
  { r with reference := some reference, matchedAt := some now, score := some score, status := status }

/-- The record as a value, if it has words and its pairing has an instant. -/
def toJson? (r : BankRecord) : Option Json := do
  let transactionType ← r.givenType.word?
  let instruments ← r.givenInstruments.toJson?
  let reversal ← match r.reversal with
    | some link => link.toJson?
    | none => some .null
  return .object
    [("id", .text r.id), ("goal_id", .text r.goalId), ("account_id", .text r.accountId),
      ("source_transaction_id", .text r.sourceId), ("transaction_type", .text transactionType.name),
      ("transaction_date", .text r.date.toText), ("total_amount", .text r.amount.toText),
      ("instrument_amounts", instruments), ("match_reference", (r.reference.map MatchReference.toJson).getD .null),
      ("matched_at", Timestamp.toJson? r.matchedAt), ("match_score", Json.ofInt? r.score),
      ("reconciliation_status", .text r.status.name), ("review", r.review.toJson), ("reversal_link", reversal)]

end BankRecord

end GoalReconciliation

import GoalReconciliation.BankRecord
import GoalReconciliation.Binary64.Shortest
import GoalReconciliation.Group

/-!
# Matches

* `Match` : bank records paired with groups, how, and how sure the pairing is.
* `Match.score` : the confidence in percent.
* `Match.reference` : the link that the match's bank records store.
* `Match.pair` : a match of records and groups, with their totals.
-/

namespace GoalReconciliation

set_option autoImplicit false

/-- Bank records paired with groups. -/
structure Match where
  bankIds : List String
  postingIds : List String
  groupKeys : List String
  matchType : MatchType
  confidence : Float
  bankTotal : Decimal
  groupTotal : Decimal
  withinTolerance : Bool := true

namespace Match

/-- The confidence in percent, as a whole number. -/
def score (m : Match) : Int :=
  (Binary64.roundWhole (m.confidence * 100.0)).getD 0

/-- The link to store on the match's bank records. -/
def reference (m : Match) (createdBy : String) (createdAt : Option Timestamp) : MatchReference :=
  ⟨m.matchType, m.groupKeys, createdBy, createdAt⟩

/-- The match of records and groups. -/
def pair (records : List BankRecord) (groups : List Group) (matchType : MatchType) (confidence : Float)
    (withinTolerance : Bool) : Except Decimal.Fault Match := do
  let bankTotal ← Decimal.sum (records.map BankRecord.amount)
  let groupTotal ← Decimal.sum (groups.map Group.amount)
  return {
    bankIds := records.map BankRecord.id
    postingIds := groups.flatMap Group.postingIds
    groupKeys := groups.map Group.key
    matchType := matchType
    confidence := confidence
    bankTotal := bankTotal
    groupTotal := groupTotal
    withinTolerance := withinTolerance }

/-- The fields of a match. -/
def fields (m : Match) : List (String × Json) :=
  [("bank_ids", Json.texts m.bankIds), ("posting_ids", Json.texts m.postingIds),
    ("group_keys", Json.texts m.groupKeys), ("match_type", .text m.matchType.name),
    ("confidence", .real (Binary64.roundPlaces 4 m.confidence)), ("bank_total", .text m.bankTotal.toText),
    ("group_total", .text m.groupTotal.toText), ("amount_within_tolerance", .bool m.withinTolerance)]

end Match

end GoalReconciliation

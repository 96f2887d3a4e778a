import GoalReconciliation.Sorting
import GoalReconciliation.Tagging
import GoalReconciliation.Tolerance

/-!
# Operators' matches

An operator pairs bank records with groups directly; such a match stands before every other one in later runs.

* `ManualMatch` : the match as it was made.
* `ManualMatch.checkSelection` : records and postings that can form a match.
* `ManualMatch.create` : a match made, if the selection is known and can form one.
* `ManualMatch.remove` : matches cleared, selected by bank ids or by the keys of operators' links.
-/

namespace GoalReconciliation

set_option autoImplicit false

/-- A match that an operator has made. -/
structure ManualMatch where
  goal : String
  reference : MatchReference
  bankIds : List String
  groupKeys : List String
  bankTotal : Decimal
  groupTotal : Decimal
  difference : Decimal
deriving DecidableEq

namespace ManualMatch

/-- The one goal of all records and postings. -/
def oneGoal (records : List BankRecord) (postings : List Posting) : Except Failure String :=
  match Assoc.distinct (records.map BankRecord.goalId ++ postings.map Posting.goalId) with
  | [goal] => .ok goal
  | goals => .error (.conflict (.severalGoals (Sorting.ascending goals)))

/-- The totals of records and postings, and their difference, if the allowance permits it. -/
def checkTotals (t : Tolerance) (records : List BankRecord) (postings : List Posting) :
    Except Failure (Decimal × Decimal × Decimal) := do
  let bankTotal ← Decimal.sum (records.map BankRecord.amount)
  let groupTotal ← Decimal.sum (postings.map Posting.amount)
  let difference ← Tolerance.distance bankTotal groupTotal
  let allowance ← t.manualAllowance bankTotal
  if ← allowance.lt difference then
    throw (.conflict (.amountMismatch bankTotal groupTotal difference allowance))
  return (bankTotal, groupTotal, difference)

/-- The match of known records and postings: they belong to one goal, no record has an operator's match already, and
the totals agree. -/
def checkSelection (t : Tolerance) (now : Timestamp) (actor : String) (bankIds groupKeys : List String)
    (records : List BankRecord) (postings : List Posting) : Except Failure ManualMatch := do
  let goal ← oneGoal records postings
  let held := (records.filter BankRecord.hasManualMatch).map BankRecord.id
  if !held.isEmpty then throw (.conflict (.alreadyManual (Sorting.ascending held)))
  let (bankTotal, groupTotal, difference) ← checkTotals t records postings
  return {
    goal := goal
    reference := ⟨.manual, groupKeys, actor, some now⟩
    bankIds := bankIds
    groupKeys := groupKeys
    bankTotal := bankTotal
    groupTotal := groupTotal
    difference := difference }

/-- The records with these ids, with the match written. -/
def markAll (m : ManualMatch) (now : Timestamp) (records : List BankRecord) : List BankRecord :=
  m.bankIds.filterMap fun id =>
    (records.find? (·.id = id)).map fun r => r.mark m.reference 100 .matched now

/-- A match made by an operator. Each id and key counts once. -/
def create (t : Tolerance) (now : Timestamp) (bankIds groupKeys : List String) (actor : String) :
    Procedure ManualMatch := do
  let bankIds := Assoc.distinct bankIds
  let groupKeys := Assoc.distinct groupKeys
  if bankIds.isEmpty || groupKeys.isEmpty then throw (.conflict .emptySelection)
  let records ← needRecords bankIds
  let postings ← needPostings groupKeys
  let m ← (checkSelection t now actor bankIds groupKeys records postings : Except Failure ManualMatch)
  Procedure.saveAll [.bank (m.markAll now records)]
  Procedure.report (.manualMatchCreated bankIds groupKeys m.bankTotal m.groupTotal) (some m.goal) actor
  return m

/-- The records whose operator's link names a group. -/
def holding (key : String) : Procedure (List BankRecord) := do
  let manual ← Procedure.manualMatches none
  return manual.filter fun r => r.reference.any (·.references key)

/-- Records added to others, each id once. -/
def addNew (selected more : List BankRecord) : List BankRecord :=
  more.foldl (fun all r => if (all.map BankRecord.id).contains r.id then all else all ++ [r]) selected

/-- The records whose operators' links name one of the groups, added to others. -/
def addHolding : List String → List BankRecord → Procedure (List BankRecord)
  | [], selected => return selected
  | key :: rest, selected => do
    addHolding rest (addNew selected (← holding key))

/-- Matches cleared: of the records with these ids whatever their kind, and the operators' matches that name one of
the groups. The ids of the cleared records. -/
def remove (bankIds groupKeys : List String) (actor : String) : Procedure (List String) := do
  let named ← if bankIds.isEmpty then pure [] else needRecords bankIds
  let selected ← addHolding groupKeys named
  let matched := selected.filter BankRecord.isMatched
  if !matched.isEmpty then Procedure.saveAll [.bank (matched.map BankRecord.clearMatch)]
  let cleared := Sorting.ascending (matched.map BankRecord.id)
  Procedure.report (.manualMatchRemoved bankIds groupKeys cleared) none actor
  return cleared

def toJson (m : ManualMatch) : Json :=
  .object
    [("goal_id", .text m.goal), ("match_reference", m.reference.toJson), ("bank_ids", Json.texts m.bankIds),
      ("group_keys", Json.texts m.groupKeys), ("bank_total", .text m.bankTotal.toText),
      ("group_total", .text m.groupTotal.toText), ("difference", .text m.difference.toText)]

end ManualMatch

end GoalReconciliation

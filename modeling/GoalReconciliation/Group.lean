import GoalReconciliation.Amounts
import GoalReconciliation.GroupingKey

/-!
# Groups of postings

* `Group` : the postings of one money movement, summed up.
* `Group.gather` : postings under their keys, in first-seen order.
* `Group.build` : the group of a key's postings, which agree on type, date and source id.
* `Group.buildAll` : the groups of all postings.
-/

namespace GoalReconciliation

set_option autoImplicit false

/-- The postings that form one money movement, summed up. Its type and its codes are what those of the postings compare
as. -/
structure Group where
  key : String
  goalId : String
  sourceId : String
  transactionType : Listed TransactionType
  date : Date
  amount : Decimal
  instruments : Amounts
  postingIds : List String
  review : Review := {}
deriving DecidableEq

namespace Group

/-- Two postings of one movement. -/
def agrees (first p : Posting) : Bool :=
  p.transactionType = first.transactionType && p.date = first.date && p.sourceId = first.sourceId

/-- Postings under their keys. -/
def gather (postings : List Posting) : Except Problem (List (String × List Posting)) := do
  let keyed ← postings.mapM fun p => return (← p.key, p)
  return (Assoc.gather Prod.fst keyed).map fun (key, members) => (key, members.map Prod.snd)

/-- The review of the first tagged posting. -/
def reviewOf (postings : List Posting) : Review :=
  ((postings.find? fun p => p.review.tag.isSome).map Posting.review).getD {}

/-- What is summed up so far: the total, and the amounts per instrument. -/
abbrev Sums := Decimal × Amounts

/-- A posting's amount added to the sums, if it agrees with the group's first posting. -/
def addPosting (key : String) (first : Posting) (sums : Sums) (p : Posting) : Except Failure Sums := do
  if !agrees first p then throw (.invalid (.disagreement p.id key))
  let total ← sums.1.add p.amount
  let instruments ← sums.2.addTo p.instrument p.amount
  return (total, instruments)

/-- The group of a key's postings. -/
def build (key : String) (postings : List Posting) : Except Failure Group :=
  match postings with
  | [] => .error (.invalid (.emptyGroup key))
  | first :: _ => do
    let (amount, instruments) ← postings.foldlM (addPosting key first) (Decimal.zero, [])
    return {
      key := key
      goalId := first.goalId
      sourceId := first.sourceId
      transactionType := first.transactionType
      date := first.date
      amount := amount
      instruments := instruments
      postingIds := postings.map Posting.id
      review := reviewOf postings }

/-- The groups of all postings, in first-seen order of their keys. -/
def buildAll (postings : List Posting) : Except Failure (List Group) := do
  (← gather postings).mapM fun (key, members) => build key members

/-- The group as a value, if its words are known. -/
def toJson? (g : Group) : Option Json := do
  let transactionType ← g.transactionType.word?
  let instruments ← g.instruments.toJson?
  return .object
    [("group_key", .text g.key), ("goal_id", .text g.goalId), ("source_transaction_id", .text g.sourceId),
      ("transaction_type", .text transactionType.name), ("transaction_date", .text g.date.toText),
      ("total_amount", .text g.amount.toText), ("instrument_amounts", instruments),
      ("posting_ids", Json.texts g.postingIds), ("review_tag", Json.ofText? (g.review.tag.map ReviewTag.name))]

end Group

end GoalReconciliation

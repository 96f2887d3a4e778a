import GoalReconciliation.BankRecord
import GoalReconciliation.Calendar.DateRange
import GoalReconciliation.Posting
import GoalReconciliation.Slice

/-!
# What can be asked of a store

* `Query` : the questions, and `Query.Answer` : the type of each one's answer.
* `TagFilter` : tagged records, resolved or not, in a range and behind a cursor.
* `Write` : records or postings to store; one with a known id replaces the stored one.
* `Request` : a question, a write, or several writes of which all or none are kept.
-/

namespace GoalReconciliation

set_option autoImplicit false

/-- Which tagged records, or keys of tagged postings, are meant. -/
structure TagFilter where
  tags : List ReviewTag
  resolved : Bool
  range : Option DateRange := none
  /-- Only ids or keys greater than this one. -/
  after : Option String := none
deriving DecidableEq

namespace TagFilter

/-- A review on a day that the filter selects, whatever its cursor. -/
def selects (f : TagFilter) (review : Review) (date : Date) : Bool :=
  review.tag.any (f.tags.contains ·) && review.resolved == f.resolved && DateRange.admits f.range date

/-- An id or key behind the cursor. -/
def isBehind (f : TagFilter) (name : String) : Bool :=
  f.after.all fun cursor => decide (cursor < name)

end TagFilter

/-- A question to a store. Lists of records are newest first, other listings ascending. -/
inductive Query where
  | bankRecords (goal : Option String) (range : Option DateRange)
  | postings (goal : Option String) (range : Option DateRange)
  | bankById (ids : List String)
  | postingsByKey (keys : List String)
  | manualMatches (goal : Option String)
  | goalIds (range : Option DateRange)
  | taggedBank (filter : TagFilter) (limit : Option Int)
  | taggedBankCount (filter : TagFilter)
  | taggedKeys (filter : TagFilter) (limit : Option Int)
  | taggedKeyCount (filter : TagFilter)
deriving DecidableEq

/-- The type of a question's answer. -/
def Query.Answer : Query → Type
  | bankRecords .. => List BankRecord
  | postings .. => List Posting
  | bankById _ => List BankRecord
  | postingsByKey _ => List Posting
  | manualMatches _ => List BankRecord
  | goalIds _ => List String
  | taggedBank .. => List BankRecord
  | taggedBankCount _ => Nat
  | taggedKeys .. => List String
  | taggedKeyCount _ => Nat

/-- What is to be stored. -/
inductive Write where
  | bank (records : List BankRecord)
  | postings (postings : List Posting)
deriving DecidableEq

/-- One step on a store. -/
inductive Request where
  | query (question : Query)
  | save (write : Write)
  | saveAll (writes : List Write)
deriving DecidableEq

/-- The type of a step's answer. -/
def Request.Answer : Request → Type
  | query question => question.Answer
  | save _ => Unit
  | saveAll _ => Unit

end GoalReconciliation

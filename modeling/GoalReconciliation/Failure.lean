import GoalReconciliation.Calendar.DateRange
import GoalReconciliation.Decimal.Printer
import GoalReconciliation.Json.Basic
import GoalReconciliation.Text.Quoted
import GoalReconciliation.Vocabulary

/-!
# Failures

* `Problem` : why a record, a date, a key or a group cannot be used, with the field and the record it concerns.
* `Conflict` : why an operation would break an invariant.
* `StorageFault` : what the store could not do.
* `Misuse` : an argument that no operation accepts.
* `Failure` : the union of these, with an unknown record, a decimal operation without a result, and an unknown text
  where a word was needed.
* `Failure.message`, `Failure.kind` : the wording, and the name of the kind as error reports show it.
* `Failure.toJson` : the report on a failure.
-/

namespace GoalReconciliation

set_option autoImplicit false

/-- Why something cannot be used. -/
inductive Problem where
  | dateRequired
  | unreadableDate (text : String)
  | keyPartRequired (part : String)
  | emptyGroup (key : String)
  | disagreement (posting key : String)
  | idRequired
  | foreignGoal (record actual expected : String)
  | sourceRequired (record : String)
  | unknownType (record text : String)
  | undated (record : String)
  | notFinite (record field : String)
  | unknownInstrument (record field text : String)
  | reported (message : String) (field : Option String)
deriving DecidableEq

namespace Problem

def message : Problem → String
  | dateRequired => "Transaction date is required"
  | unreadableDate text => "Invalid date format: " ++ text
  | keyPartRequired part => part ++ " is required for grouping key"
  | emptyGroup key => "Group " ++ key ++ " has no postings"
  | disagreement posting key => "Posting " ++ posting ++ " does not agree with group " ++ key
  | idRequired => "Record id is required"
  | foreignGoal _ actual expected => "Record belongs to goal " ++ actual ++ ", not " ++ expected
  | sourceRequired _ => "Source transaction id is required"
  | unknownType _ text => "Unknown transaction type: " ++ text
  | undated _ => "Transaction date is required"
  | notFinite _ field => field ++ " must be a finite decimal amount"
  | unknownInstrument _ _ text => "Unknown instrument code: " ++ text
  | reported message _ => message

/-- The field that the problem concerns. -/
def field? : Problem → Option String
  | dateRequired | unreadableDate _ | undated _ => some "transaction_date"
  | keyPartRequired part => some part
  | emptyGroup _ | disagreement .. => some "group_key"
  | idRequired => some "id"
  | foreignGoal .. => some "goal_id"
  | sourceRequired _ => some "source_transaction_id"
  | unknownType .. => some "transaction_type"
  | notFinite _ field => some field
  | unknownInstrument _ field _ => some field
  | reported _ field => field

/-- The record that the problem concerns. -/
def record? : Problem → Option String
  | disagreement posting _ => some posting
  | foreignGoal record _ _ | sourceRequired record | unknownType record _ | undated record | notFinite record _
  | unknownInstrument record _ _ => some record
  | _ => none

end Problem

/-- Why an operation is rejected before it changes anything. -/
inductive Conflict where
  | emptySelection
  | severalGoals (goals : List String)
  | alreadyManual (ids : List String)
  | amountMismatch (bank ledger difference tolerance : Decimal)
  | selfReversal
  | differentGoals (a b : String)
  | notOpposite (a b : TransactionType)
  | notNettingToZero (net : Decimal)
  | alreadyPaired (record partner : String)
  | notPaired (record : String)
  | reported (message : String)
deriving DecidableEq

def Conflict.message : Conflict → String
  | emptySelection => "A manual match needs at least one bank record and one group"
  | severalGoals goals => "Manual match spans several goals: " ++ Text.quotedList goals
  | alreadyManual ids => "Bank records already manually matched: " ++ Text.quotedList ids
  | amountMismatch bank ledger difference tolerance =>
    "Amount mismatch: bank total " ++ bank.toText ++ ", ledger total " ++ ledger.toText ++ ", difference " ++
      difference.toText ++ " exceeds tolerance " ++ tolerance.toText
  | selfReversal => "A record cannot reverse itself"
  | differentGoals a b => "Records belong to different goals: " ++ a ++ ", " ++ b
  | notOpposite a b => "Transaction types are not opposite: " ++ a.name ++ ", " ++ b.name
  | notNettingToZero net => "Reversal amounts don't net to zero (net " ++ net.toText ++ ")"
  | alreadyPaired record partner => "Bank record " ++ record ++ " is already paired with " ++ partner
  | notPaired record => "Bank record " ++ record ++ " is not part of a reversal pair"
  | reported message => message

/-- What the store could not do, with what the database said. -/
inductive StorageFault where
  | query (detail : String)
  | saveBank (detail : String)
  | savePostings (detail : String)
  | transaction (detail : String)
  | reported (message : String)
deriving DecidableEq

def StorageFault.message : StorageFault → String
  | query detail => "Query failed: " ++ detail
  | saveBank detail => "Failed to save bank records: " ++ detail
  | savePostings detail => "Failed to save ledger postings: " ++ detail
  | transaction detail => "Transaction failed: " ++ detail
  | reported message => message

/-- An argument that no operation accepts. -/
inductive Misuse where
  | reversedRange (first last : Date)
  | unknownWord (list text : String)
  | negativeTolerance
  | negativeDateWindow
  | unorderedSeverities
  | smallSplitLimit
  | invalidConfiguration (problems : List String)
  | reported (message : String)
deriving DecidableEq

def Misuse.message : Misuse → String
  | reversedRange first last => "start " ++ first.toText ++ " is after end " ++ last.toText
  | unknownWord list text => Text.quoted text ++ " is not a valid " ++ list
  | negativeTolerance => "Amount tolerances must be non-negative"
  | negativeDateWindow => "date_window_days must be non-negative"
  | unorderedSeverities => "Severity thresholds must be ascending"
  | smallSplitLimit => "split_search_limit must be at least 2"
  | invalidConfiguration problems => "Configuration invalid: " ++ ", ".intercalate problems
  | reported message => message

/-- Why an operation has no result. -/
inductive Failure where
  | invalid (problem : Problem)
  | conflict (cause : Conflict)
  | notFound (resource identifier : String)
  | storage (fault : StorageFault)
  | general (message : String)
  | misuse (cause : Misuse)
  | runtime (message : String)
  | arithmetic (fault : Decimal.Fault)
  | unlisted (member : String)
  | unknownKey (key : String)
deriving DecidableEq

namespace Failure

/-- A text where a word was needed: it has no name. -/
def unnamed : Failure :=
  .unlisted "value"

/-- The bank record that an operation names does not exist. -/
def noBankRecord (id : String) : Failure :=
  .notFound "Bank record" id

/-- The group that an operation names has no posting. -/
def noGroup (key : String) : Failure :=
  .notFound "Goal transaction group" key

/-- The name of the kind of failure. -/
def kind : Failure → String
  | invalid _ => "ValidationError"
  | conflict _ => "ConsistencyError"
  | notFound .. => "NotFoundError"
  | storage _ => "PersistenceError"
  | general _ => "ReconciliationError"
  | misuse _ => "ValueError"
  | runtime _ => "RuntimeError"
  | arithmetic .invalidOperation => "InvalidOperation"
  | arithmetic .divisionByZero => "DivisionByZero"
  | arithmetic .overflow => "Overflow"
  | unlisted _ => "AttributeError"
  | unknownKey _ => "KeyError"

/-- The wording of a failure. -/
def message : Failure → String
  | invalid problem => problem.message
  | conflict cause => cause.message
  | notFound resource identifier => resource ++ " " ++ identifier ++ " not found"
  | storage fault => fault.message
  | general message => message
  | misuse cause => cause.message
  | runtime message => message
  | arithmetic fault => "[<class 'decimal." ++ kind (.arithmetic fault) ++ "'>]"
  | unlisted member => "'str' object has no attribute '" ++ member ++ "'"
  | unknownKey key => Text.quoted key

/-- A failure of the engine itself, as opposed to one of its environment. -/
def isReconciliation : Failure → Bool
  | .invalid _ => true
  | .conflict _ => true
  | .notFound .. => true
  | .storage _ => true
  | .general _ => true
  | _ => false

/-- The kind and the wording of a failure, and what it concerns. Of what went wrong inside a computation only the kind
is told. -/
def toJson (failure : Failure) : Json :=
  let kind := ("error", Json.text failure.kind)
  let message := ("message", Json.text failure.message)
  .object (match failure with
    | invalid problem =>
      [kind, message, ("field", Json.ofText? problem.field?), ("record_id", Json.ofText? problem.record?)]
    | notFound resource identifier =>
      [kind, message, ("resource", .text resource), ("identifier", .text identifier)]
    | arithmetic _ => [kind]
    | unlisted _ => [kind]
    | unknownKey _ => [kind]
    | _ => [kind, message])

end Failure

/-- A computation with decimals within one that can fail otherwise. -/
instance : MonadLift (Except Decimal.Fault) (Except Failure) :=
  ⟨fun
    | .ok a => .ok a
    | .error fault => .error (.arithmetic fault)⟩

/-- A check of a record within a computation that can fail otherwise. -/
instance : MonadLift (Except Problem) (Except Failure) :=
  ⟨fun
    | .ok a => .ok a
    | .error problem => .error (.invalid problem)⟩

/-- The word with a name, or the failure that says there is none. -/
def Word.read {α : Type} [Word α] (name : String) : Except Failure α :=
  match Word.ofName? name with
  | some word => .ok word
  | none => .error (.misuse (.unknownWord (Word.listName α) name))

/-- The range between two days, or the failure that says they are not in order. -/
def DateRange.read (first last : Date) : Except Failure DateRange :=
  match DateRange.ofDates? first last with
  | some range => .ok range
  | none => .error (.misuse (.reversedRange first last))

end GoalReconciliation

import GoalReconciliation.Assoc
import GoalReconciliation.Sorting
import GoalReconciliation.Store.Column
import GoalReconciliation.Store.Memory

/-!
# The store in a database

* `Tables` : the rows of the two tables, and what is asked of them.
* `Database` : the committed tables, those that the open transaction sees, and what its calls have come to.
* `Outage` : a kind of call that fails, always or at one of its uses.
* `Database.repository` : these as a repository. A write outside a scope is committed at once, or taken back if the
  database fails; within a scope it is committed, or taken back, with the outermost one.
-/

namespace GoalReconciliation

set_option autoImplicit false

/-- The rows of the two tables. -/
structure Tables where
  bank : List BankRow := []
  ledger : List PostingRow := []
deriving DecidableEq

/-- A tagged row that a filter selects, whatever its cursor. -/
def TagFilter.selectsRow (f : TagFilter) (review : ReviewColumns) (date : Date) : Bool :=
  review.tag.any ((f.tags.map ReviewTag.name).contains ·) && review.resolved == f.resolved &&
    DateRange.admits f.range date

namespace Tables

def bankRecords (t : Tables) (goal : Option String) (range : Option DateRange) : List BankRow :=
  Sorting.newestFirst BankRow.date BankRow.id
    (t.bank.filter fun row => Store.isGoal goal row.goalId && DateRange.admits range row.date)

def postings (t : Tables) (goal : Option String) (range : Option DateRange) : List PostingRow :=
  Sorting.newestFirst PostingRow.date PostingRow.id
    (t.ledger.filter fun row => Store.isGoal goal row.goalId && DateRange.admits range row.date)

def bankById (t : Tables) (ids : List String) : List BankRow :=
  Sorting.byText BankRow.id (t.bank.filter fun row => ids.contains row.id)

/-- The key of a posting's row. -/
def keyOf (row : PostingRow) : String :=
  row.groupKey.getD ""

def postingsByKey (t : Tables) (keys : List String) : List PostingRow :=
  Sorting.newestFirst PostingRow.date PostingRow.id (t.ledger.filter fun row => keys.contains (keyOf row))

def manualMatches (t : Tables) (goal : Option String) : List BankRow :=
  Sorting.byText BankRow.id
    (t.bank.filter fun row => row.matchType = some MatchType.manual.name ∧ Store.isGoal goal row.goalId)

def goalIds (t : Tables) (range : Option DateRange) : List String :=
  let bank := (t.bank.filter fun row => DateRange.admits range row.date).map BankRow.goalId
  let ledger := (t.ledger.filter fun row => DateRange.admits range row.date).map PostingRow.goalId
  Sorting.ascending (Assoc.distinct (bank ++ ledger))

def taggedBank (t : Tables) (f : TagFilter) : List BankRow :=
  Sorting.byText BankRow.id (t.bank.filter fun row => f.selectsRow row.review row.date && f.isBehind row.id)

def taggedKeys (t : Tables) (f : TagFilter) : List String :=
  let keys := (t.ledger.filter fun row => f.selectsRow row.review row.date).map keyOf
  Sorting.ascending ((Assoc.distinct keys).filter f.isBehind)

/-- A listing up to a limit; a negative limit is none. -/
def limited {α : Type} (limit : Option Int) (items : List α) : List α :=
  match limit with
  | some (.ofNat n) => items.take n
  | _ => items

/-- The answer to a question, if every row that it needs can be read. -/
def answer (t : Tables) : (question : Query) → Except Failure question.Answer
  | .bankRecords goal range => (t.bankRecords goal range).mapM BankRow.toRecord
  | .postings goal range => (t.postings goal range).mapM PostingRow.toPosting
  | .bankById ids => (t.bankById ids).mapM BankRow.toRecord
  | .postingsByKey keys => (t.postingsByKey keys).mapM PostingRow.toPosting
  | .manualMatches goal => (t.manualMatches goal).mapM BankRow.toRecord
  | .goalIds range => .ok (t.goalIds range)
  | .taggedBank filter limit => (limited limit (t.taggedBank filter)).mapM BankRow.toRecord
  | .taggedBankCount filter => .ok (t.taggedBank filter).length
  | .taggedKeys filter limit => .ok (limited limit (t.taggedKeys filter))
  | .taggedKeyCount filter => .ok (t.taggedKeys filter).length

/-- A record written to its row, or to a new one. -/
def putBank (c : Columns) (t : Tables) (r : BankRecord) : Except Failure Tables := do
  let row ← ((t.bank.find? (·.id = r.id)).getD {}).apply r
  return { t with bank := replaceOrAdd BankRow.id (row.stored c) t.bank }

/-- A posting written to its row, or to a new one. -/
def putPosting (c : Columns) (t : Tables) (p : Posting) : Except Failure Tables := do
  let row ← ((t.ledger.find? (·.id = p.id)).getD {}).apply p
  return { t with ledger := replaceOrAdd PostingRow.id (row.stored c) t.ledger }

end Tables

/-! ## Calls and their outages -/

/-- The kinds of calls to the database. -/
inductive Call where
  | execute
  | get
  | flush
  | commit
deriving DecidableEq

/-- A kind of call that fails: always for zero, else at its use of that number. -/
structure Outage where
  call : Call
  use : Nat
deriving DecidableEq

/-- A database in use. -/
structure Database where
  columns : Columns
  outages : List Outage := []
  committed : Tables := {}
  working : Tables := {}
  depth : Nat := 0
  /-- The calls so far, the latest first. -/
  calls : List Call := []

namespace Database

/-- What the database says when a call fails. -/
def lost : String :=
  "connection lost"

/-- One more call, and whether it succeeds. -/
def use (db : Database) (call : Call) : Bool × Database :=
  let n := db.calls.count call + 1
  (!db.outages.any fun o => o.call = call && (o.use = 0 || o.use = n), { db with calls := call :: db.calls })

/-- So many calls, up to the first that fails. -/
def useTimes (db : Database) (call : Call) : Nat → Bool × Database
  | 0 => (true, db)
  | count + 1 =>
    match db.use call with
    | (true, db) => useTimes db call count
    | (false, db) => (false, db)

/-- All that is not committed taken back. -/
def rollback (db : Database) : Database :=
  { db with working := db.committed }

/-- How many calls a question takes. -/
def callCount : Query → Nat
  | .bankById [] => 0
  | .postingsByKey [] => 0
  | .goalIds _ => 2
  | _ => 1

def query (question : Query) (db : Database) : Except Failure question.Answer × Database :=
  match db.useTimes .execute (callCount question) with
  | (true, db) => (db.working.answer question, db)
  | (false, db) => (.error (.storage (.query lost)), db)

/-- Items put into the tables, each one behind a call that looks for its row, up to the first that fails. -/
def putEach {α : Type} (put : Tables → α → Except Failure Tables) (fault : StorageFault) :
    List α → Database → Except Failure Unit × Database
  | [], db => (.ok (), db)
  | item :: rest, db =>
    match db.use .get with
    | (false, db) => (.error (.storage fault), db)
    | (true, db) =>
      match put db.working item with
      | .ok t => putEach put fault rest { db with working := t }
      | .error failure => (.error failure, db)

/-- What is to be stored put into the tables. -/
def put (w : Write) (db : Database) : Except Failure Unit × Database :=
  match w with
  | .bank records => db.putEach (Tables.putBank db.columns) (.saveBank lost) records
  | .postings postings => db.putEach (Tables.putPosting db.columns) (.savePostings lost) postings

/-- What a write that the database refuses is reported as. -/
def writeFault : Write → StorageFault
  | .bank _ => .saveBank lost
  | .postings _ => .savePostings lost

/-- A write: outside a scope committed at once, or taken back if the database fails; within one handed to the database.
What else fails leaves what has been put before until all of it is committed or taken back. -/
def save (w : Write) (db : Database) : Except Failure Unit × Database :=
  match db.put w with
  | (.error (.storage fault), db) => (.error (.storage fault), if db.depth = 0 then db.rollback else db)
  | (.error failure, db) => (.error failure, db)
  | (.ok (), db) =>
    if db.depth = 0 then
      match db.use .commit with
      | (true, db) => (.ok (), { db with committed := db.working })
      | (false, db) => (.error (.storage (writeFault w)), db.rollback)
    else
      match db.use .flush with
      | (true, db) => (.ok (), db)
      | (false, db) => (.error (.storage (writeFault w)), db)

def enter (db : Database) : Database :=
  { db with depth := db.depth + 1 }

/-- The innermost scope closed; the outermost one commits, or takes back what failed. -/
def leave (failure : Option Failure) (db : Database) : Option Failure × Database :=
  if 1 < db.depth then (failure, { db with depth := db.depth - 1 })
  else
    let db := { db with depth := 0 }
    match failure with
    | some failure => (some failure, db.rollback)
    | none =>
      match db.use .commit with
      | (true, db) => (none, { db with committed := db.working })
      | (false, db) => (some (.storage (.transaction lost)), db.rollback)

/-- The database as a repository. -/
def repository : Repository Database where
  query := query
  save := save
  enter := enter
  leave := leave

/-- The database at the start of a new connection. -/
def reconnect (db : Database) : Database :=
  { db with working := db.committed, depth := 0, calls := [] }

/-- The database of some records. -/
def ofRecords (c : Columns) (records : List BankRecord) (postings : List Posting) : Except Failure Database := do
  let t ← records.foldlM (Tables.putBank c) {}
  let t ← postings.foldlM (Tables.putPosting c) t
  return { columns := c, committed := t, working := t }

/-- The committed records and postings. -/
def contents (db : Database) : Except Failure Store := do
  let bank ← db.committed.bank.mapM BankRow.toRecord
  let ledger ← db.committed.ledger.mapM PostingRow.toPosting
  return ⟨bank, ledger⟩

end Database

end GoalReconciliation

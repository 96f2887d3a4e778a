import GoalReconciliation.Assoc
import GoalReconciliation.GroupingKey
import GoalReconciliation.Sorting
import GoalReconciliation.Store.Repository

/-!
# The store in memory

* `Store` : bank records and postings in the order of their first writing, one of each id. A stored posting has a key.
* `Store.answer` : the answers to questions.
* `Memory` : a store, and the one that it goes back to if the outermost scope fails.
* `Memory.repository` : these as a repository.
-/

namespace GoalReconciliation

set_option autoImplicit false

/-- What is stored. -/
structure Store where
  bank : List BankRecord := []
  ledger : List Posting := []
deriving DecidableEq

/-- The items with one more: in the place of the one with its name if there is one, else last. -/
def replaceOrAdd {α : Type} (name : α → String) (item : α) : List α → List α
  | [] => [item]
  | old :: rest => if name old = name item then item :: rest else old :: replaceOrAdd name item rest

namespace Store

/-! ## Writing -/

def putBank (s : Store) (r : BankRecord) : Store :=
  { s with bank := replaceOrAdd BankRecord.id r s.bank }

/-- A posting stored with its key. -/
def putPosting (s : Store) (p : Posting) : Except Problem Store := do
  let key ← p.key
  return { s with ledger := replaceOrAdd Posting.id { p with groupKey := some key } s.ledger }

/-- Postings stored up to the first that has no key. -/
def putPostings (s : Store) : List Posting → Except Failure Unit × Store
  | [] => (.ok (), s)
  | p :: rest =>
    match s.putPosting p with
    | .ok s => putPostings s rest
    | .error problem => (.error (.invalid problem), s)

def write (s : Store) : Write → Except Failure Unit × Store
  | .bank records => (.ok (), records.foldl putBank s)
  | .postings postings => s.putPostings postings

/-- The store of some records. -/
def ofRecords (records : List BankRecord) (postings : List Posting) : Except Failure Store :=
  let (outcome, s) := (records.foldl putBank {}).putPostings postings
  outcome.map fun _ => s

/-! ## Reading -/

/-- A goal that is asked for; without one, every goal. -/
def isGoal (goal : Option String) (id : String) : Bool :=
  goal.all (· = id)

def bankRecords (s : Store) (goal : Option String) (range : Option DateRange) : List BankRecord :=
  Sorting.newestFirst BankRecord.date BankRecord.id
    (s.bank.filter fun r => isGoal goal r.goalId && DateRange.admits range r.date)

def postings (s : Store) (goal : Option String) (range : Option DateRange) : List Posting :=
  Sorting.newestFirst Posting.date Posting.id
    (s.ledger.filter fun p => isGoal goal p.goalId && DateRange.admits range p.date)

/-- The record with an id. -/
def bankRecord? (s : Store) (id : String) : Option BankRecord :=
  s.bank.find? (·.id = id)

/-- The records with these ids, in their order, each once. -/
def bankById (s : Store) (ids : List String) : List BankRecord :=
  (Assoc.distinct ids).filterMap s.bankRecord?

/-- A posting's stored key. -/
def keyOf (p : Posting) : String :=
  p.groupKey.getD ""

def postingsByKey (s : Store) (keys : List String) : List Posting :=
  Sorting.newestFirst Posting.date Posting.id (s.ledger.filter fun p => keys.contains (keyOf p))

def manualMatches (s : Store) (goal : Option String) : List BankRecord :=
  Sorting.byText BankRecord.id (s.bank.filter fun r => r.hasManualMatch && isGoal goal r.goalId)

def goalIds (s : Store) (range : Option DateRange) : List String :=
  let bank := (s.bank.filter fun r => DateRange.admits range r.date).map BankRecord.goalId
  let ledger := (s.ledger.filter fun p => DateRange.admits range p.date).map Posting.goalId
  Sorting.ascending (Assoc.distinct (bank ++ ledger))

def taggedBank (s : Store) (f : TagFilter) : List BankRecord :=
  Sorting.byText BankRecord.id (s.bank.filter fun r => f.selects r.review r.date && f.isBehind r.id)

def taggedKeys (s : Store) (f : TagFilter) : List String :=
  let keys := (s.ledger.filter fun p => f.selects p.review p.date).map keyOf
  Sorting.ascending ((Assoc.distinct keys).filter f.isBehind)

/-- A listing up to a limit. -/
def limited {α : Type} (limit : Option Int) (items : List α) : List α :=
  match limit with
  | some n => Slice.upTo n items
  | none => items

/-- The answer to a question. -/
def answer (s : Store) : (question : Query) → question.Answer
  | .bankRecords goal range => s.bankRecords goal range
  | .postings goal range => s.postings goal range
  | .bankById ids => s.bankById ids
  | .postingsByKey keys => s.postingsByKey keys
  | .manualMatches goal => s.manualMatches goal
  | .goalIds range => s.goalIds range
  | .taggedBank filter limit => limited limit (s.taggedBank filter)
  | .taggedBankCount filter => (s.taggedBank filter).length
  | .taggedKeys filter limit => limited limit (s.taggedKeys filter)
  | .taggedKeyCount filter => (s.taggedKeys filter).length

end Store

/-! ## Scopes -/

/-- A store in use: its content, the content at the start of the outermost open scope, and how many are open. -/
structure Memory where
  store : Store
  snapshot : Store
  depth : Nat := 0
deriving DecidableEq

namespace Memory

/-- A store in use, no scope open. -/
def ofStore (s : Store) : Memory :=
  ⟨s, s, 0⟩

/-- A scope opened; the outermost one notes the content. -/
def enter (m : Memory) : Memory :=
  if m.depth = 0 then { m with snapshot := m.store, depth := 1 } else { m with depth := m.depth + 1 }

/-- The innermost scope closed. A failed outermost one brings the noted content back. -/
def leave (failure : Option Failure) (m : Memory) : Option Failure × Memory :=
  if 1 < m.depth then (failure, { m with depth := m.depth - 1 })
  else (failure, { m with store := if failure.isSome then m.snapshot else m.store, depth := 0 })

def save (w : Write) (m : Memory) : Except Failure Unit × Memory :=
  let (outcome, s) := m.store.write w
  (outcome, { m with store := s })

/-- The store in memory as a repository. -/
def repository : Repository Memory where
  query question m := (.ok (m.store.answer question), m)
  save := save
  enter := enter
  leave := leave

end Memory

end GoalReconciliation

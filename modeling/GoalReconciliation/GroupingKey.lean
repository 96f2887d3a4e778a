import GoalReconciliation.Calendar.Timestamp
import GoalReconciliation.Failure
import GoalReconciliation.Posting
import GoalReconciliation.Text.Basic

/-!
# Grouping keys

The postings of one money movement share a key: the date, the account, the goal, the source id and the channel,
joined by dashes. Read from both ends, a key gives its parts back as long as only the account holds dashes.

* `GroupingKey.GivenDate` : a day, an instant, or a text; `GivenDate.toText` : each of them as `YYYY-MM-DD`.
* `GroupingKey.generate`, `GroupingKey.generateOn` : the key of a written, or of a given date and four fields.
* `GroupingKey.isKey` : three numbers of a date and four or more parts, none of them empty.
* `GroupingKey.parse?` : the parts of a key.
* `Posting.key` : the key that a posting stores, or the one that its fields make.
-/

namespace GoalReconciliation

set_option autoImplicit false

/-- The parts of a grouping key. -/
structure GroupingKey where
  date : Date
  accountId : String
  goalId : String
  sourceId : String
  channel : String
deriving DecidableEq

namespace GroupingKey

/-- A text date, without its white space, as `YYYY-MM-DD`. The ISO forms are looked for in the first ten
characters only. -/
def dateText (written : String) : Except Problem String :=
  let text := Text.strip written
  if text = "" then .error .dateRequired
  else
    match Date.ofIso? (String.ofList (text.toList.take 10)) with
    | some d => .ok d.toText
    | none =>
      match Date.ofDayMonthYear? text with
      | some d => .ok d.toText
      | none => .error (.unreadableDate text)

/-- A date as it is given for a key. -/
inductive GivenDate where
  | day (d : Date)
  | instant (t : Timestamp)
  | text (written : String)

/-- The day of a given date as `YYYY-MM-DD`. -/
def GivenDate.toText : GivenDate → Except Problem String
  | .day d => .ok d.toText
  | .instant t => .ok t.date.toText
  | .text written => dateText written

/-- A field of a key, without its white space. -/
def part (name written : String) : Except Problem String :=
  let text := Text.strip written
  if text = "" then .error (.keyPartRequired name) else .ok text

/-- The key of a day's text and four fields. -/
def joined (date accountId goalId sourceId channel : String) : Except Problem String := do
  let accountId ← part "account_id" accountId
  let goalId ← part "goal_id" goalId
  let sourceId ← part "source_transaction_id" sourceId
  let channel ← part "channel" channel
  return "-".intercalate [date, accountId, goalId, sourceId, channel]

/-- The key of a written date and four fields. -/
def generate (date accountId goalId sourceId channel : String) : Except Problem String := do
  joined (← dateText date) accountId goalId sourceId channel

/-- The key of a given date and four fields. -/
def generateOn (date : GivenDate) (accountId goalId sourceId channel : String) : Except Problem String := do
  joined (← date.toText) accountId goalId sourceId channel

/-- The parts of a text between dashes. -/
def splitDashes : List Char → List (List Char)
  | [] => [[]]
  | c :: rest =>
    if c = '-' then [] :: splitDashes rest
    else
      match splitDashes rest with
      | [] => [[c]]
      | part :: parts => (c :: part) :: parts

/-- A number of exactly `count` decimal digits of any script. -/
def isNumber (count : Nat) (cs : List Char) : Bool :=
  cs.length == count && cs.all fun c => (Text.digit? c).isSome

/-- The parts of a key: three numbers for the date, and at least four more parts that are not empty. -/
def isKeyParts : List (List Char) → Bool
  | year :: month :: day :: rest =>
    isNumber 4 year && isNumber 2 month && isNumber 2 day && 4 ≤ rest.length && rest.all (!·.isEmpty)
  | _ => false

/-- A text with the form of a key. -/
def isKey (key : String) : Bool :=
  isKeyParts (splitDashes key.toList)

/-- The fields behind the date, the last three of them first. -/
def ofReversed? (date : Date) : List (List Char) → Option GroupingKey
  | channel :: sourceId :: goalId :: account =>
    some
      { date := date
        accountId := "-".intercalate (account.reverse.map String.ofList)
        goalId := String.ofList goalId
        sourceId := String.ofList sourceId
        channel := String.ofList channel }
  | _ => none

/-- The parts of a key whose date exists. -/
def parse? (key : String) : Option GroupingKey :=
  if isKey key then
    match splitDashes key.toList with
    | year :: month :: day :: rest => do
      let date ← Date.ofParts? (← Text.nat? year) (← Text.nat? month) (← Text.nat? day)
      ofReversed? date rest.reverse
    | _ => none
  else none

end GroupingKey

/-- The key that a posting stores, or the one that its fields make. -/
def Posting.key (p : Posting) : Except Problem String :=
  match p.groupKey with
  | some key =>
    if key = "" then GroupingKey.generate p.date.toText p.accountId p.goalId p.sourceId p.channel else .ok key
  | none => GroupingKey.generate p.date.toText p.accountId p.goalId p.sourceId p.channel

end GoalReconciliation

import GoalReconciliation.Assoc
import GoalReconciliation.Matching.Combination
import GoalReconciliation.Matching.Match
import GoalReconciliation.Tolerance

/-!
# The passes of the matcher

Each pass pairs what no earlier pass has claimed. A claimed record or group is never paired again.

* `Claims` : the bank ids and group keys claimed so far, and the matches, in the order of their making.
* `Claims.take` : a match made and its two sides claimed.
* `manualPass` : the operators' matches, before all others.
* `exactPass` : one source id, one type, and amounts that match.
* `amountPass` : one type, amounts that match, and dates within the window.
* `splitBankPass`, `splitGroupPass` : several records of a group's day and type that sum to it, and the converse.
* `sourcePass` : one source id and type, whatever the amounts.
-/

namespace GoalReconciliation.Matching

set_option autoImplicit false

/-- What is claimed so far. -/
structure Claims where
  bank : List String := []
  groups : List String := []
  made : List Match := []

/-- A computation on claims that an arithmetic fault can end. -/
abbrev Pass := Claims → Except Decimal.Fault Claims

namespace Claims

def freeBank (c : Claims) (r : BankRecord) : Bool :=
  !c.bank.contains r.id

def freeGroup (c : Claims) (g : Group) : Bool :=
  !c.groups.contains g.key

/-- A match made and its sides claimed. -/
def take (c : Claims) (records : List BankRecord) (groups : List Group) (matchType : MatchType) (confidence : Float)
    (withinTolerance : Bool) : Except Decimal.Fault Claims := do
  let next ← Match.pair records groups matchType confidence withinTolerance
  return {
    bank := c.bank ++ records.map BankRecord.id
    groups := c.groups ++ groups.map Group.key
    made := c.made ++ [next] }

end Claims

/-! ## The operators' matches -/

/-- The records of one operator's link, matched with those of its groups that are present. -/
def takeManual (groups : List Group) (c : Claims) (link : List String × List BankRecord) :
    Except Decimal.Fault Claims := do
  let present := link.1.filterMap (Assoc.last? Group.key groups)
  let next ← Match.pair link.2 present .manual 1.0 true
  return {
    bank := c.bank ++ link.2.map BankRecord.id
    groups := c.groups ++ present.map Group.key
    made := c.made ++ [{ next with groupKeys := link.1 }] }

/-- The group keys that an operator has linked a record to. -/
def manualKeys (r : BankRecord) : List String :=
  (r.reference.map MatchReference.groupKeys).getD []

/-- Records that an operator has linked to the same groups are one match. -/
def manualPass (records : List BankRecord) (groups : List Group) : Pass := fun c =>
  (Assoc.gather manualKeys (records.filter BankRecord.hasManualMatch)).foldlM (takeManual groups) c

/-! ## One record with one group -/

/-- A free record is paired with the first free group that it fits. -/
def pairTurn (fits : BankRecord → Group → Except Decimal.Fault Bool) (matchType : MatchType)
    (confidence : BankRecord → Group → Float) (withinTolerance : Bool) (groups : List Group) (c : Claims)
    (r : BankRecord) : Except Decimal.Fault Claims :=
  if c.freeBank r then do
    match ← (groups.filter c.freeGroup).findM? (fits r) with
    | some g => c.take [r] [g] matchType (confidence r g) withinTolerance
    | none => return c
  else return c

/-- Each record in turn is paired with a group that it fits. -/
def pairPass (fits : BankRecord → Group → Except Decimal.Fault Bool) (matchType : MatchType)
    (confidence : BankRecord → Group → Float) (withinTolerance : Bool) (records : List BankRecord)
    (groups : List Group) : Pass :=
  records.foldlM (pairTurn fits matchType confidence withinTolerance groups)

/-- One source id and one type. -/
def sameSource (r : BankRecord) (g : Group) : Bool :=
  g.sourceId = r.sourceId && g.transactionType = r.transactionType

/-- A record and a group of one source whose amounts match. -/
def exactFits (t : Tolerance) (r : BankRecord) (g : Group) : Except Decimal.Fault Bool :=
  if sameSource r g then t.amountsMatch r.amount g.amount else .ok false

def exactPass (t : Tolerance) : List BankRecord → List Group → Pass :=
  pairPass (exactFits t) .exact (fun _ _ => 1.0) true

/-- The confidence of a match by amount: 0.8 on one day, down to 0.5 at the edge of the window. -/
def amountConfidence (window : Int) (r : BankRecord) (g : Group) : Float :=
  if window = 0 then 0.8
  else 0.8 - (Float.ofNat (r.date.daysApart g.date) / Float.ofInt window) * 0.3

/-- A record and a group of one type, close in time, whose amounts match. -/
def amountFits (t : Tolerance) (r : BankRecord) (g : Group) : Except Decimal.Fault Bool :=
  if g.transactionType = r.transactionType ∧ (r.date.daysApart g.date : Int) ≤ t.dateWindow then
    t.amountsMatch r.amount g.amount
  else .ok false

def amountPass (t : Tolerance) : List BankRecord → List Group → Pass :=
  pairPass (amountFits t) .amount (amountConfidence t.dateWindow) true

def sourcePass : List BankRecord → List Group → Pass :=
  pairPass (fun r g => .ok (sameSource r g)) .exact (fun _ _ => 0.5) false

/-! ## One with several -/

/-- A record and a group of one day and type. -/
def sameDay (r : BankRecord) (g : Group) : Bool :=
  r.date = g.date && r.transactionType = g.transactionType

/-- The free records of a group's day and type. -/
def Claims.recordsOf (c : Claims) (records : List BankRecord) (g : Group) : List BankRecord :=
  records.filter fun r => c.freeBank r && sameDay r g

/-- The free groups of a record's day and type. -/
def Claims.groupsOf (c : Claims) (groups : List Group) (r : BankRecord) : List Group :=
  groups.filter fun g => c.freeGroup g && sameDay r g

/-- Several candidates, named by `name`, whose amounts were found to sum to a target are taken. -/
def splitTurn {α : Type} (t : Tolerance) (name : α → String) (amount : α → Decimal) (candidates : List α)
    (target : Decimal) (take : List α → Except Decimal.Fault Claims) (c : Claims) : Except Decimal.Fault Claims :=
  if candidates.length < 2 then .ok c
  else do
    let names ← Combination.find (candidates.map fun a => (name a, amount a)) target (← t.allowance target)
      t.splitLimit
    if names.isEmpty then return c
    take (names.filterMap (Assoc.last? name candidates))

/-- A free group is paired with free records of its day and type that sum to it. -/
def splitBankTurn (t : Tolerance) (records : List BankRecord) (c : Claims) (g : Group) :
    Except Decimal.Fault Claims :=
  if c.freeGroup g then
    splitTurn t BankRecord.id BankRecord.amount (c.recordsOf records g) g.amount
      (c.take · [g] .splitBankToGroup 0.7 true) c
  else .ok c

/-- Each group in turn is paired with several records. -/
def splitBankPass (t : Tolerance) (records : List BankRecord) (groups : List Group) : Pass :=
  groups.foldlM (splitBankTurn t records)

/-- A free record is paired with free groups of its day and type that sum to it. -/
def splitGroupTurn (t : Tolerance) (groups : List Group) (c : Claims) (r : BankRecord) :
    Except Decimal.Fault Claims :=
  if c.freeBank r then
    splitTurn t Group.key Group.amount (c.groupsOf groups r) r.amount (c.take [r] · .splitGroupToBank 0.7 true) c
  else .ok c

/-- Each record in turn is paired with several groups. -/
def splitGroupPass (t : Tolerance) (records : List BankRecord) (groups : List Group) : Pass :=
  records.foldlM (splitGroupTurn t groups)

end GoalReconciliation.Matching

import GoalReconciliation.Tagging
import GoalReconciliation.Tolerance

/-!
# Reversal pairs

A deposit and the payment that undoes it are linked to each other, tagged, and left out of matching.

* `Reversal.candidates` : the records that exactly undo a record.
* `Reversal.check` : two records that can form a pair.
* `Reversal.link`, `Reversal.unlink`, `Reversal.partner` : a pair made, dissolved, looked up.
-/

namespace GoalReconciliation

set_option autoImplicit false

/-- A pair as it was made. -/
structure Reversal where
  goal : String
  bankIds : List String
  linkedAt : Timestamp
deriving DecidableEq

namespace Reversal

/-- The record with an id, if there is one. -/
def lookup (id : String) : Procedure (Option BankRecord) := do
  return (← Procedure.bankById [id]).head?

/-- The record with an id, or the failure that says there is none. -/
def need (id : String) : Procedure BankRecord := do
  match ← lookup id with
  | some r => return r
  | none => throw (.noBankRecord id)

/-- Two types of which the first undoes the second. The first one is asked, so it has to be a word; the second one is
compared with words. -/
def opposes (a b : Given TransactionType) : Except Failure Bool :=
  match a, b.listed with
  | .word a, .known b => .ok (a.opposes b)
  | .word _, .unknown .. => .ok false
  | .text _, _ => .error (.unlisted "is_opposite_of")

/-! ## Finding -/

/-- A record that exactly undoes another one and is neither matched nor paired. -/
def undoes (source r : BankRecord) : Except Failure Bool :=
  if r.id = source.id ∨ r.isMatched ∨ r.reversal.isSome then .ok false
  else do
    if ← opposes r.givenType source.givenType then return ← r.amount.equal (← source.amount.neg)
    else return false

/-- The records that exactly undo a record, in an optional range of days. -/
def candidates (id : String) (range : Option DateRange) : Procedure (List BankRecord) := do
  let source ← need id
  let records ← Procedure.bankRecords (some source.goalId) range
  (records.filterM (undoes source) : Except Failure (List BankRecord))

/-! ## Linking -/

/-- The failure of two types that do not undo each other, which names both if they are words. -/
def notOpposite (a b : Given TransactionType) : Failure :=
  match a, b with
  | .word a, .word b => .conflict (.notOpposite a b)
  | _, _ => .unnamed

/-- The failure of a record that has a partner already. -/
def checkFree (r : BankRecord) : Except Failure Unit :=
  match r.reversal with
  | some link => .error (.conflict (.alreadyPaired r.id link.partnerId))
  | none => .ok ()

/-- The net of two records that can form a pair: of one goal, of opposite types, with amounts that net to zero, and
neither of them paired. -/
def check (t : Tolerance) (a b : BankRecord) : Except Failure Decimal := do
  if a.goalId ≠ b.goalId then throw (.conflict (.differentGoals a.goalId b.goalId))
  if !(← opposes a.givenType b.givenType) then throw (notOpposite a.givenType b.givenType)
  let net ← a.amount.add b.amount
  if ← t.reversalNet.lt (← net.abs) then throw (.conflict (.notNettingToZero net))
  checkFree a
  checkFree b
  return net

/-- A record with its link to a partner, tagged as a reversal. -/
def pairWith (r partner : BankRecord) (actor : String) (now : Timestamp) : BankRecord :=
  { r with
    reversal := some ⟨partner.id, actor, some now⟩
    review := {
      tag := some .reversal
      notes := some ("Reversal of " ++ partner.id)
      reviewer := some actor
      reviewedAt := some now } }

/-- Two records made a pair. -/
def link (t : Tolerance) (now : Timestamp) (idA idB actor : String) : Procedure Reversal := do
  if idA = idB then throw (.conflict .selfReversal)
  let a ← need idA
  let b ← need idB
  let net ← (check t a b : Except Failure Decimal)
  Procedure.saveAll [.bank [pairWith a b actor now, pairWith b a actor now]]
  Procedure.report (.reversalLinked [idA, idB] net) (some a.goalId) actor
  return ⟨a.goalId, [idA, idB], now⟩

/-! ## Unlinking -/

/-- A record without its link, and without the tag that came with it. -/
def release (r : BankRecord) : BankRecord :=
  { r with reversal := none, review := if r.review.tag = some .reversal then {} else r.review }

/-- The partner of a record, if it points back at it. -/
def pointingBack (r : BankRecord) (partner : Option BankRecord) : List BankRecord :=
  (partner.filter fun p => p.reversal.any (·.partnerId = r.id)).toList

/-- The pair of a record dissolved. The ids of the records that were released. -/
def unlink (id actor : String) : Procedure (List String) := do
  let r ← need id
  match r.reversal with
  | none => throw (.conflict (.notPaired id))
  | some held =>
    let released := r :: pointingBack r (← lookup held.partnerId)
    Procedure.saveAll [.bank (released.map release)]
    let ids := released.map BankRecord.id
    Procedure.report (.reversalUnlinked ids) (some r.goalId) actor
    return ids

/-- The partner of a record, if it has one that exists. -/
def partner (id : String) : Procedure (Option BankRecord) := do
  let r ← need id
  match r.reversal with
  | none => return none
  | some held => lookup held.partnerId

def toJson (r : Reversal) : Json :=
  .object
    [("goal_id", .text r.goal), ("bank_ids", Json.texts r.bankIds), ("linked_at", .text r.linkedAt.toText)]

end Reversal

end GoalReconciliation

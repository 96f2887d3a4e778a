import GoalReconciliation.Matching.Passes

/-!
# The matcher

* `MatchOutcome` : the matches of a goal's records, and what is left on both sides.
* `MatchOutcome.ofRecords` : all passes in turn. Reserved keys belong to operators' links outside the run; no pass
  but the manual one claims them, and they are not left over.
-/

namespace GoalReconciliation

set_option autoImplicit false

open Matching

/-- The matches of a goal's records, and what is left on both sides. -/
structure MatchOutcome where
  made : List Match
  unmatchedBankIds : List String
  unmatchedGroupKeys : List String

namespace MatchOutcome

/-- The matches of one type. -/
def ofType (outcome : MatchOutcome) (matchType : MatchType) : List Match :=
  outcome.made.filter (·.matchType = matchType)

/-- The claims of all passes. -/
def claims (t : Tolerance) (records : List BankRecord) (groups : List Group) (reserved : List String) :
    Except Decimal.Fault Claims := do
  let c ← manualPass records groups {}
  let c := { c with groups := c.groups ++ reserved }
  let c ← exactPass t records groups c
  let c ← amountPass t records groups c
  let c ← splitBankPass t records groups c
  let c ← splitGroupPass t records groups c
  sourcePass records groups c

/-- The outcome of all passes over records and groups in their order. -/
def ofRecords (t : Tolerance) (records : List BankRecord) (groups : List Group) (reserved : List String) :
    Except Decimal.Fault MatchOutcome := do
  let c ← claims t records groups reserved
  return {
    made := c.made
    unmatchedBankIds := (records.filter c.freeBank).map BankRecord.id
    unmatchedGroupKeys := (groups.filter c.freeGroup).map Group.key }

end MatchOutcome

end GoalReconciliation

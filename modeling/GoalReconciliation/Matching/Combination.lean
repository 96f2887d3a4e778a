import GoalReconciliation.Decimal.Arithmetic
import GoalReconciliation.Natural
import GoalReconciliation.Slice

/-!
# Combinations of amounts

* `Combination.find` : two or more items whose amounts sum to a target within a tolerance. Large amounts are tried
  first, greedily; then every subset of the largest items, in the order of their masks.
* `Combination.subset` : the items that a mask picks.
-/

namespace GoalReconciliation.Combination

open Natural (raised)

set_option autoImplicit false

/-- An item: its name and its amount. -/
abbrev Item := String × Decimal

/-- The items in descending order of amount, equal ones as they came. An amount that is no number has no order. -/
def descending (items : List Item) : Except Decimal.Fault (List Item) :=
  if items.any (·.2.isNaN) then .error .invalidOperation
  else .ok (items.mergeSort fun a b => Decimal.compare? a.2 b.2 != some .lt)

/-- The sum is within the tolerance of the target. -/
def near (sum target tolerance : Decimal) : Except Decimal.Fault Bool := do
  (← (← sum.sub target).abs).le tolerance

/-- The items taken one by one as long as they fit under `ceiling`, up to the first two or more near the target. -/
def greedy (target tolerance ceiling : Decimal) :
    List Item → List String → Decimal → Except Decimal.Fault (Option (List String))
  | [], _, _ => .ok none
  | (name, amount) :: rest, chosen, running => do
    let next ← running.add amount
    if ← next.le ceiling then
      let chosen := chosen ++ [name]
      if (← near next target tolerance) && 1 < chosen.length then return some chosen
      greedy target tolerance ceiling rest chosen next
    else greedy target tolerance ceiling rest chosen running

/-- The items at the places of a mask's ones. -/
def subset (items : List Item) (mask : Nat) : List Item :=
  (items.zipIdx.filter fun (_, place) => mask.testBit place).map Prod.fst

/-- The first of `count` masks, from `mask` on, that picks two or more items near the target. -/
def firstSubset (items : List Item) (target tolerance : Decimal) :
    Nat → Nat → Except Decimal.Fault (List String)
  | 0, _ => .ok []
  | count + 1, mask => do
    let picked := subset items mask
    if picked.length < 2 then firstSubset items target tolerance count (mask + 1)
    else if ← near (← Decimal.sum (picked.map Prod.snd)) target tolerance then return picked.map Prod.fst
    else firstSubset items target tolerance count (mask + 1)

/-- Two or more items whose amounts sum to the target within the tolerance; none are found among items that `limit`
cuts off. A target below zero is searched for by the opposite amounts. -/
def find (items : List Item) (target tolerance : Decimal) (limit : Int) : Except Decimal.Fault (List String) :=
  if items.length < 2 then .ok []
  else do
    let sign := Decimal.ofInt (if ← target.lt Decimal.zero then -1 else 1)
    let target ← target.mul sign
    let turned ← items.mapM fun (name, amount) => return (name, ← amount.mul sign)
    let ordered ← descending turned
    match ← greedy target tolerance (← target.add tolerance) ordered [] Decimal.zero with
    | some chosen => return chosen
    | none =>
      let candidates := Slice.upTo limit ordered
      firstSubset candidates target tolerance (raised 2 candidates.length - 1) 1

end GoalReconciliation.Combination

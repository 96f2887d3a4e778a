/-!
# Pairs in the order of first writing

* `Assoc.get?`, `Assoc.put` : the value of a key, and a key's value set; a key keeps the place of its first writing.
* `Assoc.gather` : the items of a list under their keys, keys in first-seen order, items in list order.
* `Assoc.bump`, `Assoc.tally` : a key counted once more, and how often each key occurs, keys in first-seen order.
* `Assoc.distinct` : the first occurrence of each item.
* `Assoc.last?` : the item that a key stands for where later items replace earlier ones.
-/

namespace GoalReconciliation.Assoc

set_option autoImplicit false

variable {κ ν : Type} [DecidableEq κ]

/-- The value of a key. -/
def get? (key : κ) (pairs : List (κ × ν)) : Option ν :=
  (pairs.find? fun pair => decide (pair.1 = key)).map (·.2)

/-- The pairs with a key's value set. -/
def put (key : κ) (value : ν) : List (κ × ν) → List (κ × ν)
  | [] => [(key, value)]
  | pair :: rest => if pair.1 = key then (key, value) :: rest else pair :: put key value rest

/-- The items under their keys, the key of each item computed by `f`. -/
def gather (f : ν → κ) (items : List ν) : List (κ × List ν) :=
  items.foldl (fun groups item => put (f item) ((get? (f item) groups).getD [] ++ [item]) groups) []

/-- The counts with a key counted once more. -/
def bump (key : κ) (counts : List (κ × Nat)) : List (κ × Nat) :=
  put key ((get? key counts).getD 0 + 1) counts

/-- The number of occurrences of each key. -/
def tally (keys : List κ) : List (κ × Nat) :=
  keys.foldl (fun counts key => bump key counts) []

/-- The first occurrence of each item. -/
def distinct (items : List κ) : List κ :=
  items.foldl (fun seen item => if item ∈ seen then seen else seen ++ [item]) []

/-- The last item of a key, the key of each item computed by `f`. -/
def last? (f : ν → κ) (items : List ν) (key : κ) : Option ν :=
  items.reverse.find? fun item => decide (f item = key)

end GoalReconciliation.Assoc

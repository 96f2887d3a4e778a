/-!
# White space and parts of texts

* `Text.isBlank` : the white space of Unicode, with the four information separators.
* `Text.strip` : a text without the white space at its two ends.
* `Text.occursIn` : a text that occurs in another.
-/

namespace GoalReconciliation.Text

set_option autoImplicit false

/-- Unicode white space, and the separators from `0x1c` to `0x1f`. -/
def isBlank (c : Char) : Bool :=
  let n := c.toNat
  (9 ≤ n && n ≤ 13) || (28 ≤ n && n ≤ 32) || n == 0x85 || n == 0xa0 || n == 0x1680 ||
    (0x2000 ≤ n && n ≤ 0x200a) || n == 0x2028 || n == 0x2029 || n == 0x202f || n == 0x205f || n == 0x3000

/-- A list of characters without its leading white space. -/
def stripLeft (cs : List Char) : List Char :=
  cs.dropWhile isBlank

/-- A list of characters without its trailing white space. -/
def stripRight (cs : List Char) : List Char :=
  (cs.reverse.dropWhile isBlank).reverse

/-- A text without the white space at its two ends. -/
def strip (s : String) : String :=
  String.ofList (stripRight (stripLeft s.toList))

/-- The stripped, non-empty parts of a comma separated list. -/
def commaList (s : String) : List String :=
  ((s.splitOn ",").map strip).filter (· ≠ "")

/-- A text that occurs in another. -/
def occursIn (part : List Char) : List Char → Bool
  | [] => part.isEmpty
  | c :: rest => part.isPrefixOf (c :: rest) || occursIn part rest

end GoalReconciliation.Text

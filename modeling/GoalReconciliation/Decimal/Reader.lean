import GoalReconciliation.Decimal.Basic
import GoalReconciliation.Text.Basic
import GoalReconciliation.Text.Digit

/-!
# Reading a decimal

* `Decimal.ofText?` : the number a text writes, with all its digits: an optional sign; digits with at most one point
  and an optional exponent, or an infinity, or a number that is none with a payload. White space around it and
  underscores in it do not count.
-/

namespace GoalReconciliation.Decimal

set_option autoImplicit false

/-- The values of the leading digits, and the rest. -/
def spanDigits : List Char → List Nat × List Char
  | [] => ([], [])
  | c :: rest =>
    match Text.digit? c with
    | some digit => let (digits, after) := spanDigits rest; (digit :: digits, after)
    | none => ([], c :: rest)

/-- An optional sign, and the rest; true for a minus. -/
def spanSign : List Char → Bool × List Char
  | '-' :: rest => (true, rest)
  | '+' :: rest => (false, rest)
  | cs => (false, cs)

/-- The exponent part of a number: nothing, or the letter and a whole number. -/
def exponent? : List Char → Option Int
  | [] => some 0
  | c :: rest =>
    if c = 'e' ∨ c = 'E' then
      let (negative, digits) := spanSign rest
      match spanDigits digits with
      | (n :: ns, []) => some (if negative then -(Text.ofDigits (n :: ns) : Int) else Text.ofDigits (n :: ns))
      | _ => none
    else none

/-- Digits with at most one point, and an exponent. -/
def finite? (negative : Bool) (cs : List Char) : Option Decimal :=
  let (whole, rest) := spanDigits cs
  let (fraction, rest) :=
    match rest with
    | '.' :: rest => spanDigits rest
    | rest => ([], rest)
  if whole.isEmpty && fraction.isEmpty then none
  else (exponent? rest).map fun exponent =>
    .finite negative (Text.ofDigits (whole ++ fraction)) (exponent - fraction.length)

/-- A number that is none: its letters, then an optional payload. -/
def nan? (negative : Bool) (cs : List Char) : Option Decimal :=
  let payload? (digits : List Char) : Option Nat :=
    match spanDigits digits with
    | (ds, []) => some (Text.ofDigits ds)
    | _ => none
  match cs with
  | 's' :: 'n' :: 'a' :: 'n' :: digits => (payload? digits).map (.nan negative true)
  | 'n' :: 'a' :: 'n' :: digits => (payload? digits).map (.nan negative false)
  | _ => none

/-- The number that a text writes. -/
def ofText? (s : String) : Option Decimal :=
  let (negative, body) := spanSign ((Text.strip s).toList.filter (· ≠ '_'))
  let letters := body.map Char.toLower
  if letters = "inf".toList ∨ letters = "infinity".toList then some (.infinity negative)
  else (finite? negative body).orElse fun _ => nan? negative letters

end GoalReconciliation.Decimal

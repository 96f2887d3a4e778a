import GoalReconciliation.Text.Printable

/-!
# Quoted text

* `Text.quoted` : a text between quotes, as messages show names: single quotes unless only single quotes occur in
  the text, and a backslash before the quote, the backslash and every unprintable character's code.
* `Text.quotedList` : quoted texts between brackets.
* `Text.inAscii` : a text with the codes of its characters beyond ASCII.
-/

namespace GoalReconciliation.Text

set_option autoImplicit false

/-- A number in at least `width` lower case hexadecimal digits. -/
def hex (width n : Nat) : String :=
  let digits := Nat.toDigits 16 n
  String.ofList (List.replicate (width - digits.length) '0' ++ digits)

/-- The code of a character. -/
def coded (c : Char) : String :=
  if c.toNat < 0x100 then "\\x" ++ hex 2 c.toNat
  else if c.toNat < 0x10000 then "\\u" ++ hex 4 c.toNat
  else "\\U" ++ hex 8 c.toNat

/-- A text with the codes of its characters beyond ASCII. -/
def inAscii (s : String) : String :=
  String.join (s.toList.map fun c => if c.toNat < 128 then String.singleton c else coded c)

/-- One character of a text quoted with `quote`. -/
def quotedChar (quote c : Char) : String :=
  if c = quote ∨ c = '\\' then String.ofList ['\\', c]
  else if c = '\n' then "\\n"
  else if c = '\r' then "\\r"
  else if c = '\t' then "\\t"
  else if isPrintable c then String.singleton c
  else coded c

/-- A text between quotes. -/
def quoted (s : String) : String :=
  let cs := s.toList
  let quote := if cs.contains '\'' && !cs.contains '"' then '"' else '\''
  String.singleton quote ++ String.join (cs.map (quotedChar quote)) ++ String.singleton quote

/-- Quoted texts between brackets. -/
def quotedList (names : List String) : String :=
  "[" ++ ", ".intercalate (names.map quoted) ++ "]"

end GoalReconciliation.Text

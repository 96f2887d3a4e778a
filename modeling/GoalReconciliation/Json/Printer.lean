import GoalReconciliation.Binary64.Shortest
import GoalReconciliation.Json.Basic
import GoalReconciliation.Text.Quoted

/-!
# The text of a structured value

* `Json.render` : the value on one line, without blanks; text escapes its quote, the backslash and the controls.
-/

namespace GoalReconciliation.Json

set_option autoImplicit false

/-- One character of a text. -/
def renderChar (c : Char) : String :=
  if c = Char.ofNat 34 then "\\\""
  else if c = '\\' then "\\\\"
  else if c = '\n' then "\\n"
  else if c = '\r' then "\\r"
  else if c = '\t' then "\\t"
  else if c.toNat < 32 then "\\u" ++ Text.hex 4 c.toNat
  else String.singleton c

/-- A text between double quotes. -/
def renderText (s : String) : String :=
  "\"" ++ String.join (s.toList.map renderChar) ++ "\""

/-- A double; the infinities and the double that is no number have names. -/
def renderReal (x : Float) : String :=
  match Binary64.parts x with
  | .finite .. => Binary64.toText x
  | .infinity negative => if negative then "-Infinity" else "Infinity"
  | .nan => "NaN"

mutual

/-- A value on one line. -/
def render : Json → String
  | null => "null"
  | bool b => if b then "true" else "false"
  | integer n => toString n
  | real x => renderReal x
  | text s => renderText s
  | list items => "[" ++ renderItems items ++ "]"
  | object fields => "\x7b" ++ renderFields fields ++ "\x7d"

/-- The items of a list, with commas between them. -/
def renderItems : List Json → String
  | [] => ""
  | [item] => render item
  | item :: next :: rest => render item ++ "," ++ renderItems (next :: rest)

/-- The fields of an object, with commas between them. -/
def renderFields : List (String × Json) → String
  | [] => ""
  | [(name, value)] => renderText name ++ ":" ++ render value
  | (name, value) :: next :: rest => renderText name ++ ":" ++ render value ++ "," ++ renderFields (next :: rest)

end

end GoalReconciliation.Json

import GoalReconciliation.Binary64.Shortest
import GoalReconciliation.Json.Basic
import GoalReconciliation.Text.Quoted

/-!
# Values in messages

* `Json.display` : a value as messages show it: a text as itself, every other value in the notation of messages,
  where texts inside lists and objects stand between quotes.
* `Json.written` : the text that a field was filled in with; nothing for null, false, zero and the empty text.
-/

namespace GoalReconciliation.Json

set_option autoImplicit false

mutual

/-- A value in the notation of messages. -/
def notated : Json → String
  | null => "None"
  | bool b => if b then "True" else "False"
  | integer n => toString n
  | real x => Binary64.toText x
  | text s => Text.quoted s
  | list items => "[" ++ notatedItems items ++ "]"
  | object fields => "\x7b" ++ notatedFields fields ++ "\x7d"

/-- Items with commas between them. -/
def notatedItems : List Json → String
  | [] => ""
  | [item] => notated item
  | item :: next :: rest => notated item ++ ", " ++ notatedItems (next :: rest)

/-- Fields with commas between them. -/
def notatedFields : List (String × Json) → String
  | [] => ""
  | [(name, value)] => Text.quoted name ++ ": " ++ notated value
  | (name, value) :: next :: rest =>
    Text.quoted name ++ ": " ++ notated value ++ ", " ++ notatedFields (next :: rest)

end

/-- A value as messages show it. -/
def display : Json → String
  | text s => s
  | value => value.notated

/-- The text that a field was filled in with. -/
def written (value : Json) : String :=
  if value.isTruthy then value.display else ""

end GoalReconciliation.Json

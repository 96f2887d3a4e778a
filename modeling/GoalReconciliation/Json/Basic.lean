/-!
# Structured values

* `Json` : the values that requests, answers and events are made of. Whole numbers and doubles are kept apart; an
  object keeps its fields in the order of their first writing.
* `Json.put` : an object's field set, in its place if it has one.
* `Json.field?` : an object's field.
-/

namespace GoalReconciliation

set_option autoImplicit false

/-- A structured value. -/
inductive Json where
  | null
  | bool (value : Bool)
  | integer (value : Int)
  | real (value : Float)
  | text (value : String)
  | list (items : List Json)
  | object (fields : List (String × Json))

namespace Json

instance : Inhabited Json :=
  ⟨null⟩

/-- The fields with one more: in the place of its name if that occurs, else last. -/
def putField (name : String) (value : Json) : List (String × Json) → List (String × Json)
  | [] => [(name, value)]
  | (key, old) :: rest => if key = name then (name, value) :: rest else (key, old) :: putField name value rest

/-- An object's field. -/
def field? (name : String) : Json → Option Json
  | object fields => (fields.find? (·.1 = name)).map (·.2)
  | _ => none

/-- A text, or null. -/
def ofText? : Option String → Json
  | some s => text s
  | none => null

/-- A whole number, or null. -/
def ofInt? : Option Int → Json
  | some n => integer n
  | none => null

def ofNat (n : Nat) : Json :=
  integer n

/-- A list of texts. -/
def texts (names : List String) : Json :=
  list (names.map text)

/-- A value that is neither null nor false nor zero nor empty. -/
def isTruthy : Json → Bool
  | null => false
  | bool b => b
  | integer n => n ≠ 0
  | real x => !(x == 0.0)
  | text s => s ≠ ""
  | list items => !items.isEmpty
  | object fields => !fields.isEmpty

end Json

end GoalReconciliation

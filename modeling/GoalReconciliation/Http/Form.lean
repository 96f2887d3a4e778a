import GoalReconciliation.Input.Day
import GoalReconciliation.Http.Message
import GoalReconciliation.Vocabulary

/-!
# Reading fields of a request

* `Form` : where fields are looked up: in the fields of a body, or among query parameters.
* `Form.needed`, `Form.optional`, `Form.orElse` : a field that has to be there, one that may be absent or null, and
  one with a standard value.
* `Form.text`, `Form.word`, `Form.texts`, `Form.wholeBetween` : what a field may hold.
-/

namespace GoalReconciliation.Http

set_option autoImplicit false

/-- Named values, and the name of the part of the request that they are in. -/
structure Form where
  part : String
  fields : List (String × Json)

namespace Form

/-- The fields of a query; of several with one name the last counts. -/
def ofQuery (r : Request) : Form :=
  ⟨"query", r.query.reverse.map fun (name, value) => (name, .text value)⟩

/-- A field's value. -/
def value? (form : Form) (name : String) : Option Json :=
  (form.fields.find? (·.1 = name)).map (·.2)

variable {α : Type}

/-- The faults found in a field. -/
def inField (form : Form) (name : String) (c : Checked α) : Checked α :=
  (c.inside (.text name)).inside (.text form.part)

/-- A field that has to be there. -/
def needed (form : Form) (name : String) (read : Json → Checked α) : Checked α :=
  form.inField name (match form.value? name with
    | some value => read value
    | none => .fault .missing)

/-- A field with a standard value. -/
def orElse (form : Form) (name : String) (standard : α) (read : Json → Checked α) : Checked α :=
  match form.value? name with
  | some value => form.inField name (read value)
  | none => .good standard

/-- A value that may be null. -/
def orNull (read : Json → Checked α) : Json → Checked (Option α)
  | .null => .good none
  | value => some <$> read value

/-- A field that may be absent or null. -/
def optional (form : Form) (name : String) (read : Json → Checked α) : Checked (Option α) :=
  form.orElse name none (orNull read)

/-! ## What a field may hold -/

def text : Json → Checked String
  | .text s => .good s
  | _ => .fault .noText

/-- A word of a list. -/
def word [Word α] : Json → Checked α
  | .text s =>
    match Word.ofName? s with
    | some word => .good word
    | none => .fault .unlisted
  | _ => .fault .unlisted

/-- Texts, at least so many. -/
def texts (least : Nat) : Json → Checked (List String)
  | .list items =>
    match Checked.all (items.mapIdx fun place item => (text item).inside (Json.ofNat place)) with
    | .good names => if names.length < least then .fault .tooShort else .good names
    | .bad errors => .bad errors
  | _ => .fault .noList

/-- A whole number that is not too small and, if there is a greatest one, not too large. -/
def wholeBetween (least : Int) (greatest : Option Int) (value : Json) : Checked Int :=
  match Input.whole value with
  | .good n =>
    if n < least then .fault .belowLeast
    else if greatest.any (· < n) then .fault .aboveGreatest
    else .good n
  | .bad errors => .bad errors

end Form

end GoalReconciliation.Http

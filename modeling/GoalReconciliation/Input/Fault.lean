import GoalReconciliation.Json.Basic

/-!
# Faults of input

* `InputFault` : what is wrong with one value that a client or an operator has written; `InputFault.name` names it.
* `FieldError` : a fault and the place of the value, from the outside in.
* `Checked` : a value read, or all the faults found on the way.
-/

namespace GoalReconciliation

set_option autoImplicit false

/-- What is wrong with a value. -/
inductive InputFault where
  | missing
  | unreadableDate
  | timedDate
  | noDate
  | unreadableBool
  | noBool
  | unreadableInt
  | fractionalInt
  | infiniteInt
  | noInt
  | unreadableFloat
  | belowLeast
  | aboveGreatest
  | unlisted
  | noText
  | tooShort
  | noList
  | noObject
  | unreadableJson
deriving DecidableEq

/-- The name of a fault in error reports. -/
def InputFault.name : InputFault → String
  | missing => "missing"
  | unreadableDate => "date_from_datetime_parsing"
  | timedDate => "date_from_datetime_inexact"
  | noDate => "date_type"
  | unreadableBool => "bool_parsing"
  | noBool => "bool_type"
  | unreadableInt => "int_parsing"
  | fractionalInt => "int_from_float"
  | infiniteInt => "finite_number"
  | noInt => "int_type"
  | unreadableFloat => "float_parsing"
  | belowLeast => "greater_than_equal"
  | aboveGreatest => "less_than_equal"
  | unlisted => "enum"
  | noText => "string_type"
  | tooShort => "too_short"
  | noList => "list_type"
  | noObject => "model_attributes_type"
  | unreadableJson => "json_invalid"

/-- A fault and the place of the value: names of fields and positions in lists. -/
structure FieldError where
  place : List Json
  fault : InputFault

/-- The error as a value: the place, and the name of the fault. -/
def FieldError.toJson (e : FieldError) : Json :=
  .list [.list e.place, .text e.fault.name]

/-- A value read, or all the faults found. -/
inductive Checked (α : Type) where
  | good (value : α)
  | bad (errors : List FieldError)

namespace Checked

variable {α β : Type}

/-- A fault of the value itself. -/
def fault (f : InputFault) : Checked α :=
  .bad [⟨[], f⟩]

def map (f : α → β) : Checked α → Checked β
  | good a => good (f a)
  | bad errors => bad errors

/-- Two readings, of which each may find faults. -/
def ap (f : Checked (α → β)) (a : Checked α) : Checked β :=
  match f, a with
  | good f, good a => good (f a)
  | good _, bad errors => bad errors
  | bad errors, good _ => bad errors
  | bad errors, bad more => bad (errors ++ more)

instance : Applicative Checked where
  pure := good
  map := map
  seq f a := ap f (a ())

/-- The faults found inside a place. -/
def inside (place : Json) : Checked α → Checked α
  | good a => good a
  | bad errors => bad (errors.map fun e => { e with place := place :: e.place })

/-- The readings of all items of a list. -/
def all : List (Checked α) → Checked (List α)
  | [] => good []
  | a :: rest => List.cons <$> a <*> all rest

end Checked

end GoalReconciliation

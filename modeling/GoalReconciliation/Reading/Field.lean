import GoalReconciliation.Calendar.Timestamp
import GoalReconciliation.Decimal.Reader
import GoalReconciliation.Failure
import GoalReconciliation.Json.Display

/-!
# Reading fields

Records, rows and steps are exchanged as structured values. A field that is absent reads as null unless it has a
standard value.

* `Reading.field`, `textOr`, `boolOr`, `names`, `whole?`, `real?` : fields that are read leniently.
* `Reading.money`, `date`, `instant?`, `range?`, `word` : values that can be unreadable.
-/

namespace GoalReconciliation.Reading

set_option autoImplicit false

/-! ## Lenient fields -/

/-- A field, or null. -/
def field (value : Json) (name : String) : Json :=
  (value.field? name).getD .null

/-- A text. -/
def text? : Json → Option String
  | .text s => some s
  | _ => none

/-- A field as a text: nothing for null, and any other value as messages show it. -/
def textOr (standard : String) (value : Json) (name : String) : String :=
  match value.field? name with
  | some .null => ""
  | some value => value.display
  | none => standard

/-- A whole number; a double counts as the nearest one. -/
def whole? : Json → Option Int
  | .integer n => some n
  | .real x => Binary64.roundWhole x
  | .bool b => some (if b then 1 else 0)
  | _ => none

/-- A field as a whole number. -/
def wholeOr (standard : Int) (value : Json) (name : String) : Int :=
  (whole? (field value name)).getD standard

/-- A double; a whole number counts as the nearest one. -/
def real? : Json → Option Float
  | .real x => some x
  | .integer n => some (Binary64.nearest (n < 0) n.natAbs 0)
  | _ => none

/-- The items of a list. -/
def items : Json → List Json
  | .list values => values
  | _ => []

/-- The texts of a list. -/
def names (value : Json) : List String :=
  (items value).filterMap text?

/-- A field as a truth value. -/
def boolOr (standard : Bool) (value : Json) (name : String) : Bool :=
  match field value name with
  | .null => standard
  | value => value.isTruthy

/-- A value that may be null. -/
def orNull {α : Type} (read : Json → Except Failure α) : Json → Except Failure (Option α)
  | .null => .ok none
  | value => some <$> read value

/-! ## Values that can be unreadable -/

/-- The failure that a field cannot be used. -/
def unusable {α : Type} (what : String) : Except Failure α :=
  .error (.misuse (.reported ("unusable " ++ what)))

/-- The failure that a text is no day and no instant. -/
def noInstant {α : Type} (s : String) : Except Failure α :=
  .error (.misuse (.reported ("Invalid isoformat string: " ++ Text.quoted s)))

/-- An amount, exactly; a value that is no text stands for no number. -/
def money : Json → Except Failure Decimal
  | .text s =>
    match Decimal.ofText? s with
    | some d => .ok d
    | none => .error (.arithmetic .invalidOperation)
  | _ => .ok (.nan false false 0)

def date : Json → Except Failure Date
  | .text s =>
    match Date.ofIso? s with
    | some d => .ok d
    | none => noInstant s
  | _ => unusable "date"

/-- An instant, or none. -/
def instant? : Json → Except Failure (Option Timestamp)
  | .text s =>
    match Timestamp.ofText? s with
    | some t => .ok (some t)
    | none => noInstant s
  | _ => .ok none

/-- The range between two days, or none. -/
def range? : Json → Except Failure (Option DateRange)
  | .list [a, b] => do
    let first ← date a
    let last ← date b
    return some (← DateRange.read first last)
  | _ => .ok none

/-- The range between two days. -/
def range (value : Json) : Except Failure DateRange := do
  match ← range? value with
  | some range => return range
  | none => unusable "range"

/-- A word of a list. -/
def word {α : Type} [Word α] (value : Json) : Except Failure α :=
  Word.read value.display

/-- A word of a list, or the text in its place. -/
def given {α : Type} [Word α] (value : Json) : Given α :=
  Given.ofText value.display

/-- A field as a word of a list, or the text in its place. -/
def givenOr {α : Type} [Word α] (standard : α) (value : Json) (name : String) : Given α :=
  match value.field? name with
  | some value => given value
  | none => .word standard

end GoalReconciliation.Reading

import GoalReconciliation.Json.Basic
import GoalReconciliation.Text.Basic

/-!
# Redaction

What is sent to the error tracker holds no keys, tokens or passwords.

* `Redaction.isSensitive` : a name under which a value is hidden.
* `Redaction.redact` : an object with all values under such names hidden, in the objects within it too, and in those
  that are items of its lists.
* `Redaction.filterEvent` : an event with its headers, its data and its extra fields redacted.
-/

namespace GoalReconciliation.Redaction

set_option autoImplicit false

/-- The words that make a name sensitive. -/
def words : List String :=
  ["password", "token", "secret", "api_key", "api-key", "authorization", "cookie"]

/-- A letter's small form. Of the letters beyond ASCII only the Kelvin sign has one that occurs in the words. -/
def small (c : Char) : Char :=
  if c = '\u212a' then 'k' else c.toLower

/-- A name under which a value is hidden: in small letters it contains one of the words. -/
def isSensitive (name : String) : Bool :=
  words.any fun word => Text.occursIn word.toList (name.toList.map small)

/-- What stands for a hidden value. -/
def hidden : Json :=
  .text "[REDACTED]"

mutual

/-- An object redacted; any other value as it is. -/
def redact : Json → Json
  | .object fields => .object (redactFields fields)
  | value => value

/-- Fields redacted. -/
def redactFields : List (String × Json) → List (String × Json)
  | [] => []
  | (name, value) :: rest => (name, if isSensitive name then hidden else redactValue value) :: redactFields rest

/-- A field's value redacted: an object, or the objects among the items of a list. -/
def redactValue : Json → Json
  | .list items => .list (redactItems items)
  | .object fields => .object (redactFields fields)
  | value => value

/-- The objects among some items redacted. -/
def redactItems : List Json → List Json
  | [] => []
  | item :: rest => redact item :: redactItems rest

end

/-- One field of an object replaced by its redaction. -/
def redactField (name : String) : Json → Json
  | .object fields => .object (fields.map fun (key, value) => (key, if key = name then redact value else value))
  | value => value

/-- An event with its request's headers and data and its extra fields redacted. -/
def filterEvent (event : Json) : Json :=
  match event with
  | .object fields =>
    .object (fields.map fun (name, value) =>
      (name,
        if name = "request" then redactField "data" (redactField "headers" value)
        else if name = "extra" then redact value
        else value))
  | value => value

end GoalReconciliation.Redaction

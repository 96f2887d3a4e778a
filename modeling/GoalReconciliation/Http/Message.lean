import GoalReconciliation.Json.Basic
import GoalReconciliation.Text.Basic

/-!
# Requests and responses

* `Request` : a method, a path, query parameters, headers and a body. `Request.ofTarget` splits a target into path and
  query, and `Request.header?` looks a header up in any case.
* `Response` : a status, a body, and the headers that clients of this interface read.
* `Uri.decode` : a text with its percent signs resolved.
-/

namespace GoalReconciliation.Http

set_option autoImplicit false

/-! ## Percent signs -/

namespace Uri

/-- The value of a hexadecimal digit. -/
def hexDigit? (c : Char) : Option Nat :=
  let n := c.toNat
  if '0' ≤ c ∧ c ≤ '9' then some (n - 48)
  else if 'a' ≤ c ∧ c ≤ 'f' then some (n - 87)
  else if 'A' ≤ c ∧ c ≤ 'F' then some (n - 55)
  else none

/-- The bytes of a text, those behind percent signs as numbers. -/
def bytes (cs : List Char) : List UInt8 :=
  match cs with
  | [] => []
  | '%' :: a :: b :: rest =>
    match hexDigit? a, hexDigit? b with
    | some high, some low => UInt8.ofNat (16 * high + low) :: bytes rest
    | _, _ => UInt8.ofNat 37 :: bytes (a :: b :: rest)
  | c :: rest => c.toString.toUTF8.data.toList ++ bytes rest
termination_by cs.length

/-- A text with its percent signs resolved; one that makes no text stays as it is. -/
def decode (s : String) : String :=
  (String.fromUTF8? ⟨(bytes s.toList).toArray⟩).getD s

/-- A query value: a plus sign is a blank. -/
def decodeValue (s : String) : String :=
  decode (String.ofList (s.toList.map fun c => if c = '+' then ' ' else c))

/-- The parameters of a query. -/
def parameters (query : String) : List (String × String) :=
  ((query.splitOn "&").filter (· ≠ "")).map fun part =>
    match part.splitOn "=" with
    | [] => (decodeValue part, "")
    | name :: value => (decodeValue name, decodeValue ("=".intercalate value))

end Uri

/-! ## Requests -/

/-- A body that was sent. -/
inductive Body where
  | json (value : Json)
  | raw (text : String)

/-- What a client sends. -/
structure Request where
  method : String
  path : String
  query : List (String × String) := []
  headers : List (String × String) := []
  body : Option Body := none

/-- A text in small ASCII letters. -/
def lower (s : String) : String :=
  String.ofList (s.toList.map Char.toLower)

namespace Request

/-- The part of a text before the first of a character. -/
def before (c : Char) (s : String) : String :=
  String.ofList (s.toList.takeWhile (· ≠ c))

/-- A request to a target: a path that begins with one slash, and behind a question mark a query. Parameters given
apart stand for those in the target. -/
def ofTarget (method target : String) (query : Option (List (String × String)))
    (headers : List (String × String)) (body : Option Body) : Request :=
  let address := before '#' target
  let path := (before '?' address).toList.dropWhile (· = '/')
  let asked := String.ofList ((address.toList.dropWhile (· ≠ '?')).drop 1)
  ⟨String.ofList (method.toList.map Char.toUpper), Uri.decode (String.ofList ('/' :: path)),
    query.getD (Uri.parameters asked), headers, body⟩

/-- A header, whatever the case of its name. -/
def header? (r : Request) (name : String) : Option String :=
  (r.headers.find? fun header => lower header.1 = lower name).map (·.2)

end Request

/-! ## Responses -/

/-- What is sent back. -/
inductive Content where
  | json (value : Json)
  | text (text : String)

/-- A status, a body, and headers. -/
structure Response where
  status : Nat
  content : Content
  headers : List (String × String) := []

namespace Response

def json (status : Nat) (value : Json) : Response :=
  ⟨status, .json value, []⟩

/-- The answer to a request that is refused, with the reason. -/
def detail (status : Nat) (value : Json) : Response :=
  json status (.object [("detail", value)])

def withHeader (r : Response) (name value : String) : Response :=
  { r with headers := r.headers ++ [(name, value)] }

/-- The response as a value; headers are shown if there are any. -/
def toJson (r : Response) : Json :=
  let body := match r.content with
    | .json value => value
    | .text text => .text text
  let headers := r.headers.map fun (name, value) => (name, Json.text value)
  .object ([("status", Json.ofNat r.status), ("body", body)] ++
    if headers.isEmpty then [] else [("headers", .object headers)])

end Response

end GoalReconciliation.Http

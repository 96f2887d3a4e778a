import GoalReconciliation.Binary64.Basic
import GoalReconciliation.Json.Basic
import GoalReconciliation.Text.Digit

/-!
# Reading a structured value

* `Json.parse` : the value that a text writes, or the position of the first character that cannot stand where it
  does. A number with a fraction or an exponent is a double, any other one a whole number; of two fields of one name
  the later one counts.
-/

namespace GoalReconciliation.Json

set_option autoImplicit false

/-- What is left to read, and the position of its first character. -/
structure Input where
  rest : List Char
  position : Nat

/-- A step of the reader: a result and what is left, or the position of a mistake. -/
abbrev Step (α : Type) := Input → Except Nat (α × Input)

namespace Input

/-- The input behind its first `count` characters. -/
def drop (input : Input) (count : Nat) : Input :=
  ⟨input.rest.drop count, input.position + count⟩

/-- The input behind the white space it begins with. -/
def skipBlank (input : Input) : Input :=
  input.drop (input.rest.takeWhile fun c => c = ' ' || c = '\t' || c = '\n' || c = '\r').length

/-- The input behind a word, if it begins with it. -/
def word? (input : Input) (word : String) : Option Input :=
  if word.toList.isPrefixOf input.rest then some (input.drop word.length) else none

end Input

/-- The value of four hexadecimal digits. -/
def hex4? (cs : List Char) : Option Nat :=
  if cs.length < 4 then none
  else (cs.take 4).foldlM (fun total c =>
    if '0' ≤ c ∧ c ≤ '9' then some (16 * total + (c.toNat - 48))
    else if 'a' ≤ c ∧ c ≤ 'f' then some (16 * total + (c.toNat - 87))
    else if 'A' ≤ c ∧ c ≤ 'F' then some (16 * total + (c.toNat - 55))
    else none) 0

/-- The character of a short escape. -/
def escape? : Char → Option Char
  | 'n' => some '\n'
  | 't' => some '\t'
  | 'r' => some '\r'
  | 'b' => some (Char.ofNat 8)
  | 'f' => some (Char.ofNat 12)
  | '/' => some '/'
  | '\\' => some '\\'
  | c => if c = Char.ofNat 34 then some c else none

/-- The low half of a pair of code units that escapes write, and its length. -/
def lowHalf? (cs : List Char) : Option Nat :=
  match cs with
  | '\\' :: 'u' :: digits => (hex4? digits).filter fun n => 0xdc00 ≤ n ∧ n < 0xe000
  | _ => none

/-- The characters up to the closing quote; `start` is the position of the opening one. -/
def parseText (start : Nat) : Nat → List Char → Step String
  | 0, _, _ => .error start
  | fuel + 1, done, input =>
    match input.rest with
    | [] => .error start
    | '\\' :: 'u' :: digits =>
      match hex4? digits with
      | none => .error (input.position + 1)
      | some n =>
        match if 0xd800 ≤ n ∧ n < 0xdc00 then lowHalf? (digits.drop 4) else none with
        | some low =>
          parseText start fuel (Char.ofNat (0x10000 + (n - 0xd800) * 0x400 + (low - 0xdc00)) :: done) (input.drop 12)
        | none =>
          let c := if 0xd800 ≤ n ∧ n < 0xe000 then Char.ofNat 0xfffd else Char.ofNat n
          parseText start fuel (c :: done) (input.drop 6)
    | ['\\'] => .error start
    | '\\' :: c :: _ =>
      match escape? c with
      | some d => parseText start fuel (d :: done) (input.drop 2)
      | none => .error input.position
    | c :: _ =>
      if c = Char.ofNat 34 then .ok (String.ofList done.reverse, input.drop 1)
      else if c.toNat < 32 then .error input.position
      else parseText start fuel (c :: done) (input.drop 1)

/-- The leading ASCII digits. -/
def digitRun (cs : List Char) : List Char :=
  cs.takeWhile fun c => '0' ≤ c && c ≤ '9'

/-- The value of digits that are known to be ASCII. -/
def digitsValue (cs : List Char) : Nat :=
  Text.ofDigits (cs.filterMap Text.asciiDigit?)

/-- The fraction part of a number: its digits, none if there is no such part. -/
def fractionRun : List Char → List Char
  | '.' :: rest => digitRun rest
  | _ => []

/-- The exponent part of a number and its length, zero if there is no such part. -/
def exponentRun (cs : List Char) : Int × Nat :=
  match cs with
  | c :: rest =>
    if c = 'e' ∨ c = 'E' then
      let (negative, digits, signs) : Bool × List Char × Nat :=
        match rest with
        | '-' :: digits => (true, digits, 1)
        | '+' :: digits => (false, digits, 1)
        | digits => (false, digits, 0)
      let run := digitRun digits
      let size : Int := digitsValue run
      if run.isEmpty then (0, 0) else (if negative then -size else size, 1 + signs + run.length)
    else (0, 0)
  | [] => (0, 0)

/-- A number: a whole one, or a double where it has a fraction or an exponent. -/
def parseNumber : Step Json := fun input =>
  let (negative, cs) : Bool × List Char :=
    match input.rest with
    | '-' :: cs => (true, cs)
    | cs => (false, cs)
  let run := digitRun cs
  let whole := match run with
    | '0' :: _ => ['0']
    | run => run
  if whole.isEmpty then .error input.position
  else
    let afterWhole := cs.drop whole.length
    let fraction := fractionRun afterWhole
    let fractionLength := if fraction.isEmpty then 0 else fraction.length + 1
    let (exponent, exponentLength) := exponentRun (afterWhole.drop fractionLength)
    let next := input.drop ((if negative then 1 else 0) + whole.length + fractionLength + exponentLength)
    if fractionLength + exponentLength = 0 then
      let n : Int := digitsValue whole
      .ok (.integer (if negative then -n else n), next)
    else
      .ok (.real (Binary64.nearest negative (digitsValue (whole ++ fraction)) (exponent - fraction.length)), next)

/-- The words that stand for values. -/
def wordValue? (input : Input) : Option (Json × Input) :=
  [("null", Json.null), ("true", .bool true), ("false", .bool false), ("NaN", .real (0.0 / 0.0)),
    ("Infinity", .real (1.0 / 0.0)), ("-Infinity", .real (-(1.0 / 0.0)))].findSome? fun (word, value) =>
      (input.word? word).map fun next => (value, next)

mutual

/-- A value, at the first character of the input. -/
def parseValue : Nat → Step Json
  | 0, input => .error input.position
  | fuel + 1, input =>
    match wordValue? input with
    | some result => .ok result
    | none =>
      match input.rest with
      | '[' :: _ =>
        let input := (input.drop 1).skipBlank
        if input.rest.head? = some ']' then .ok (.list [], input.drop 1)
        else parseItems fuel [] input
      | c :: _ =>
        if c = Char.ofNat 123 then
          let input := (input.drop 1).skipBlank
          if input.rest.head? = some (Char.ofNat 125) then .ok (.object [], input.drop 1)
          else parseFields fuel [] input
        else if c = Char.ofNat 34 then
          (parseText input.position (input.rest.length + 1) [] (input.drop 1)).map fun (s, next) => (.text s, next)
        else parseNumber input
      | [] => .error input.position

/-- The items of a list, from the first one on. -/
def parseItems : Nat → List Json → Step Json
  | 0, _, input => .error input.position
  | fuel + 1, done, input => do
    let (item, next) ← parseValue fuel input
    let next := next.skipBlank
    match next.rest with
    | ']' :: _ => .ok (.list (item :: done).reverse, next.drop 1)
    | ',' :: _ => parseItems fuel (item :: done) (next.drop 1).skipBlank
    | _ => .error next.position

/-- The fields of an object, from the first one on. -/
def parseFields : Nat → List (String × Json) → Step Json
  | 0, _, input => .error input.position
  | fuel + 1, done, input => do
    if input.rest.head? ≠ some (Char.ofNat 34) then throw input.position
    let (name, next) ← parseText input.position (input.rest.length + 1) [] (input.drop 1)
    let next := next.skipBlank
    if next.rest.head? ≠ some ':' then throw next.position
    let (value, next) ← parseValue fuel (next.drop 1).skipBlank
    let next := next.skipBlank
    let done := putField name value done
    match next.rest with
    | c :: _ =>
      if c = Char.ofNat 125 then .ok (.object done, next.drop 1)
      else if c = ',' then parseFields fuel done (next.drop 1).skipBlank
      else .error next.position
    | [] => .error next.position

end

/-- The value that a whole text writes, or the position of the first mistake. -/
def parse (s : String) : Except Nat Json := do
  let input : Input := Input.skipBlank ⟨s.toList, 0⟩
  let (value, next) ← parseValue (2 * s.length + 2) input
  let next := next.skipBlank
  if next.rest.isEmpty then .ok value else .error next.position

end GoalReconciliation.Json

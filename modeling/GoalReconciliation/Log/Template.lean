import GoalReconciliation.Binary64.Basic
import GoalReconciliation.Json.Display
import GoalReconciliation.Natural

/-!
# Message templates

A template is a text with places. A place is a percent sign, perhaps a field's name between parentheses, flags, a width,
a precision, and a letter that says how its argument is written. Two percent signs stand for one.

* `Template.Place` : how one argument is written. `Place.text`, `Place.whole` and `Place.real` write it.
* `Template.Arguments` : values in order, or named fields.
* `Template.Fault` : why a template cannot be filled.
* `Template.fill` : a template with all its places filled.
-/

namespace GoalReconciliation.Template

open Natural (raised)

set_option autoImplicit false

/-- Why a template cannot be filled. -/
inductive Fault where
  | tooFew
  | tooMany
  | noFields
  | unknownField (name : String)
  | unusable
  | tooLarge
  | unfinished
  | unfinishedName
  | unknownLetter (letter : Char) (index : Nat)
deriving DecidableEq

namespace Fault

/-- The name of the kind of fault. -/
def kind : Fault → String
  | unknownField _ => "KeyError"
  | tooLarge => "OverflowError"
  | unfinished | unfinishedName | unknownLetter .. => "ValueError"
  | tooFew | tooMany | noFields | unusable => "TypeError"

/-- What is told about a fault of the template itself. -/
def message? : Fault → Option String
  | unfinished => some "incomplete format"
  | unfinishedName => some "incomplete format key"
  | unknownLetter letter index =>
    let shown := if 31 ≤ letter.toNat ∧ letter.toNat < 127 then letter else '?'
    some ("unsupported format character '" ++ String.singleton shown ++ "' (0x" ++ Text.hex 1 letter.toNat ++
      ") at index " ++ toString index)
  | _ => none

/-- The fault as a value. -/
def toJson (f : Fault) : Json :=
  .object (("error", .text f.kind) :: match f.message? with
    | some message => [("message", .text message)]
    | none => [])

end Fault

/-! ## Places -/

/-- How one argument is written. -/
structure Place where
  left : Bool := false
  plus : Bool := false
  blank : Bool := false
  alternate : Bool := false
  zero : Bool := false
  width : Nat := 0
  precision : Option Nat := none
deriving DecidableEq

namespace Place

/-- So many of a character. -/
def repeated (count : Nat) (c : Char) : String :=
  String.ofList (List.replicate count c)

/-- A text in at least the place's width. -/
def text (p : Place) (s : String) : String :=
  let s := match p.precision with
    | some count => String.ofList (s.toList.take count)
    | none => s
  let fill := repeated (p.width - s.length) ' '
  if p.left then s ++ fill else fill ++ s

/-- The sign that a number has. -/
def sign (p : Place) (negative : Bool) : String :=
  if negative then "-" else if p.plus then "+" else if p.blank then " " else ""

/-- A sign or other start, and digits, in at least the place's width; zeros come between the two. -/
def number (p : Place) (start digits : String) : String :=
  let missing := p.width - (start.length + digits.length)
  if p.left then start ++ digits ++ repeated missing ' '
  else if p.zero then start ++ repeated missing '0' ++ digits
  else repeated missing ' ' ++ start ++ digits

/-- A whole number to a base; the precision is the least number of digits. -/
def whole (p : Place) (base : Nat) (mark : String) (n : Int) : String :=
  let digits := String.ofList (Nat.toDigits base n.natAbs)
  let digits := repeated (p.precision.getD 0 - digits.length) '0' ++ digits
  p.number (p.sign (n < 0) ++ if p.alternate then mark else "") digits

/-! ## Doubles -/

/-- The greatest power of ten that a positive quotient reaches. -/
def magnitude (numerator denominator : Nat) : Int :=
  if denominator ≤ numerator then (Decimal.digitCount (numerator / denominator) : Int) - 1
  else -(Decimal.digitCount ((denominator - 1) / numerator) : Int)

/-- `mantissa * 2 ^ power` to so many significant digits, a half to the even neighbour: the digits as a number, and the
power of ten of the first. -/
def significant (count mantissa : Nat) (power : Int) : Nat × Int :=
  if mantissa = 0 then (0, 0)
  else
    let numerator := mantissa * raised 2 power.toNat
    let denominator := raised 2 (-power).toNat
    let first := magnitude numerator denominator
    let shift : Int := count - 1 - first
    let digits := Binary64.roundQuotient (numerator * raised 10 shift.toNat) (denominator * raised 10 (-shift).toNat)
    if digits = raised 10 count then (digits / 10, first + 1) else (digits, first)

/-- A number in units of `10 ^ -places`, with a point before its last `places` digits. -/
def pointed (point : Bool) (places units : Nat) : String :=
  let digits := toString units
  let digits := repeated (places + 1 - digits.length) '0' ++ digits
  let before := digits.toList.take (digits.length - places)
  let behind := digits.toList.drop (digits.length - places)
  String.ofList before ++ (if point ∨ places ≠ 0 then "." else "") ++ String.ofList behind

/-- A text with a point, without the zeros at its end and without the point if nothing is left behind it. -/
def withoutZeros (s : String) : String :=
  if s.toList.contains '.' then
    let cs := s.toList.reverse.dropWhile (· = '0')
    String.ofList (if cs.head? = some '.' then cs.drop 1 else cs).reverse
  else s

/-- A power of ten, with its sign and at least two digits. -/
def exponentText (n : Int) : String :=
  let digits := toString n.natAbs
  "e" ++ (if n < 0 then "-" else "+") ++ repeated (2 - digits.length) '0' ++ digits

/-- The digits of a finite number that is not negative, as a letter asks: `f` positionally, `e` with a power of ten,
and `g` the one that suits its size. -/
def digits (p : Place) (letter : Char) (mantissa : Nat) (power : Int) : String :=
  let places := p.precision.getD 6
  match letter with
  | 'f' => pointed p.alternate places (Binary64.atPlaces mantissa power places)
  | 'e' =>
    let (units, first) := significant (places + 1) mantissa power
    pointed p.alternate places units ++ exponentText first
  | _ =>
    let count := max places 1
    let (units, first) := significant count mantissa power
    let trimmed (s : String) : String := if p.alternate then s else withoutZeros s
    if -4 ≤ first ∧ first < count then
      let behind := (count - 1 - first).toNat
      trimmed (pointed p.alternate behind (Binary64.atPlaces mantissa power behind))
    else trimmed (pointed p.alternate (count - 1) units) ++ exponentText first

/-- A double. -/
def real (p : Place) (letter : Char) (x : Float) : String :=
  match Binary64.parts x with
  | .finite negative mantissa power => p.number (p.sign negative) (p.digits letter mantissa power)
  | .infinity negative => p.number (p.sign negative) "inf"
  | .nan => p.number (p.sign false) "nan"

/-! ## Arguments in their places -/

/-- A text in great letters; only ASCII letters occur in written numbers. -/
def great (s : String) : String :=
  String.ofList (s.toList.map Char.toUpper)

/-- A whole number; only where a fraction may be cut off, a double. -/
def whole? (cut : Bool) : Json → Option Int
  | .integer n => some n
  | .bool b => some (if b then 1 else 0)
  | .real x =>
    match cut, Binary64.parts x with
    | true, .finite negative mantissa power =>
      let size : Int := mantissa * raised 2 power.toNat / raised 2 (-power).toNat
      some (if negative then -size else size)
    | _, _ => none
  | _ => none

/-- A number as a double. -/
def real? : Json → Option Float
  | .real x => some x
  | .integer n => some (Binary64.nearest (n < 0) n.natAbs 0)
  | .bool b => some (if b then 1.0 else 0.0)
  | _ => none

/-- A single character, or the one with a number. -/
def character : Json → Except Fault Char
  | .text s =>
    match s.toList with
    | [c] => .ok c
    | _ => .error .unusable
  | .integer n => if 0 ≤ n ∧ n.toNat.isValidChar then .ok (Char.ofNat n.toNat) else .error .tooLarge
  | .bool b => .ok (if b then '\x01' else '\x00')
  | _ => .error .unusable

/-- An argument that is needed. -/
def need {α : Type} (value : Option α) : Except Fault α :=
  match value with
  | some a => .ok a
  | none => .error .unusable

/-- An argument written as a letter asks; the letter stands at an index of the template. -/
def write (p : Place) (letter : Char) (index : Nat) (value : Json) : Except Fault String :=
  match letter with
  | 's' => .ok (p.text value.display)
  | 'r' => .ok (p.text value.notated)
  | 'a' => .ok (p.text (Text.inAscii value.notated))
  | 'd' => p.whole 10 "" <$> need (whole? true value)
  | 'i' => p.whole 10 "" <$> need (whole? true value)
  | 'u' => p.whole 10 "" <$> need (whole? true value)
  | 'o' => p.whole 8 "0o" <$> need (whole? false value)
  | 'x' => p.whole 16 "0x" <$> need (whole? false value)
  | 'X' => (great ∘ p.whole 16 "0x") <$> need (whole? false value)
  | 'e' => p.real 'e' <$> need (real? value)
  | 'f' => p.real 'f' <$> need (real? value)
  | 'g' => p.real 'g' <$> need (real? value)
  | 'E' => (great ∘ p.real 'e') <$> need (real? value)
  | 'F' => (great ∘ p.real 'f') <$> need (real? value)
  | 'G' => (great ∘ p.real 'g') <$> need (real? value)
  | 'c' => (Place.text { p with precision := none } ∘ String.singleton) <$> character value
  | letter => .error (.unknownLetter letter index)

end Place

/-! ## Filling -/

/-- Values in order, or named fields, which also stand for one value. -/
inductive Arguments where
  | values (values : List Json)
  | fields (fields : List (String × Json)) (taken : Bool)

namespace Arguments

/-- Arguments as a message has them: a single object with fields is one of named fields. -/
def ofList : List Json → Arguments
  | [.object (first :: others)] => .fields (first :: others) false
  | several => .values several

/-- The next argument. -/
def next : Arguments → Except Fault (Json × Arguments)
  | .values [] => .error .tooFew
  | .values (value :: rest) => .ok (value, .values rest)
  | .fields _ true => .error .tooFew
  | .fields named false => .ok (.object named, .fields named true)

/-- The next argument as a whole number that a width or a precision may have. -/
def nextWhole (arguments : Arguments) : Except Fault (Int × Arguments) := do
  let (value, arguments) ← arguments.next
  let n ← Place.need (Place.whole? false value)
  if n.natAbs < 2147483648 then return (n, arguments) else throw .tooLarge

/-- The arguments behind a named place: the fields no longer stand for one value. -/
def taken : Arguments → Arguments
  | .fields named _ => .fields named true
  | arguments => arguments

/-- No argument is left over. -/
def finish : Arguments → Except Fault Unit
  | .values (_ :: _) => .error .tooMany
  | _ => .ok ()

end Arguments

/-- What is left of a template, the index of its first character, and the arguments that are left. -/
structure Rest where
  chars : List Char
  index : Nat
  arguments : Arguments

namespace Rest

/-- The rest behind its first characters. -/
def skip (r : Rest) (count : Nat) : Rest :=
  { r with chars := r.chars.drop count, index := r.index + count }

/-- The characters of a name up to its closing parenthesis, those inside it closed too. -/
def nameTo : Nat → List Char → Option (List Char)
  | _, [] => none
  | 0, ')' :: _ => some []
  | depth + 1, ')' :: cs => (')' :: ·) <$> nameTo depth cs
  | depth, '(' :: cs => ('(' :: ·) <$> nameTo (depth + 1) cs
  | depth, c :: cs => (c :: ·) <$> nameTo depth cs

/-- A named field, which becomes the next argument. -/
def named (r : Rest) : Except Fault Rest :=
  match r.chars with
  | '(' :: cs =>
    match r.arguments with
    | .values _ => .error .noFields
    | .fields named _ =>
      match nameTo 0 cs with
      | none => .error .unfinishedName
      | some name =>
        match named.find? (·.1 = String.ofList name) with
        | none => .error (.unknownField (String.ofList name))
        | some (_, value) => .ok { r.skip (name.length + 2) with arguments := .values [value] }
  | _ => .ok r

/-- A flag, if the character is one. -/
def flag? (p : Place) : Char → Option Place
  | '-' => some { p with left := true }
  | '+' => some { p with plus := true }
  | ' ' => some { p with blank := true }
  | '#' => some { p with alternate := true }
  | '0' => some { p with zero := true }
  | _ => none

/-- The flags at the start. -/
def flags (p : Place) : List Char → Place × Nat
  | [] => (p, 0)
  | c :: cs =>
    match flag? p c with
    | some p => let (p, count) := flags p cs; (p, count + 1)
    | none => (p, 0)

/-- The digits at the start as a number, or the next argument for a star. -/
def number (r : Rest) : Except Fault (Option Int × Rest) :=
  match r.chars with
  | '*' :: _ => do
    let (n, arguments) ← r.arguments.nextWhole
    return (some n, { r.skip 1 with arguments := arguments })
  | cs =>
    let digits := cs.takeWhile Char.isDigit
    if digits.isEmpty then .ok (none, r)
    else .ok (some ((String.ofList digits).toNat?.getD 0), r.skip digits.length)

/-- The text of the place behind a percent sign, and the rest behind it. -/
def place (r : Rest) : Except Fault (String × Rest) := do
  let outer := r.arguments
  let named := r.chars.head? = some '('
  let behind (arguments : Arguments) : Arguments := if named then outer.taken else arguments
  let r ← r.named
  let (p, count) := flags {} r.chars
  let (width, r) ← (r.skip count).number
  let p := { p with left := p.left || width.any (· < 0), width := (width.getD 0).natAbs }
  let (p, r) ← match r.chars with
    | '.' :: _ => do
      let (precision, r) ← (r.skip 1).number
      pure ({ p with precision := some (precision.getD 0).toNat }, r)
    | _ => pure (p, r)
  let r := if r.chars.head?.any ['h', 'l', 'L'].contains then r.skip 1 else r
  match r.chars with
  | [] => throw .unfinished
  | letter :: _ =>
    let (value, arguments) ← r.arguments.next
    let s ← p.write letter r.index value
    return (s, { r.skip 1 with arguments := behind arguments })

/-- The places and the text between them, for at most so many steps. -/
def fill : Nat → Rest → Except Fault String
  | 0, r => do
    r.arguments.finish
    return ""
  | steps + 1, r =>
    match r.chars with
    | [] => do
      r.arguments.finish
      return ""
    | '%' :: '%' :: _ => do
      return "%" ++ (← fill steps (r.skip 2))
    | '%' :: _ => do
      let (s, r) ← (r.skip 1).place
      return s ++ (← fill steps r)
    | c :: _ => do
      return String.singleton c ++ (← fill steps (r.skip 1))

end Rest

/-- A template with all its places filled. Without arguments it is the message itself. -/
def fill (template : String) (arguments : List Json) : Except Fault String :=
  if arguments.isEmpty then .ok template
  else
    let cs := template.toList
    Rest.fill cs.length ⟨cs, 0, .ofList arguments⟩

end GoalReconciliation.Template

import GoalReconciliation.Calendar.Reader

/-!
# Instants

* `Timestamp` : a day, a time of day to the microsecond, and an optional offset from universal time.
* `Timestamp.toText` : `YYYY-MM-DDThh:mm:ss`, with six digits of microseconds unless they are zero, and the offset.
* `Timestamp.ofText?` : reads that form; seconds, minutes and the whole time may be left out.
-/

namespace GoalReconciliation

set_option autoImplicit false

/-- A day and a time of day. -/
structure Timestamp where
  date : Date
  hour : Nat
  minute : Nat
  second : Nat
  microsecond : Nat
  /-- Seconds east of universal time. -/
  offset : Option Int
deriving DecidableEq

namespace Timestamp

instance : Inhabited Timestamp :=
  ⟨⟨Date.first, 0, 0, 0, 0, none⟩⟩

/-- An offset as hours and minutes, with seconds unless they are zero. -/
def offsetText (offset : Int) : String :=
  let n := offset.natAbs
  (if offset < 0 then "-" else "+") ++ Text.padded 2 (n / 3600) ++ ":" ++ Text.padded 2 (n / 60 % 60) ++
    (if n % 60 = 0 then "" else ":" ++ Text.padded 2 (n % 60))

/-- The instant as text. -/
def toText (t : Timestamp) : String :=
  t.date.toText ++ "T" ++ Text.padded 2 t.hour ++ ":" ++ Text.padded 2 t.minute ++ ":" ++ Text.padded 2 t.second ++
    (if t.microsecond = 0 then "" else "." ++ Text.padded 6 t.microsecond) ++ (t.offset.map offsetText).getD ""

/-- The instant without its offset. -/
def withoutOffset (t : Timestamp) : Timestamp :=
  { t with offset := none }

/-- A number of two digits, and the rest. -/
def takeTwo? (cs : List Char) : Option (Nat × List Char) :=
  Date.takeNumber? 2 cs

/-- A further part of a time, if a colon announces it. -/
def takeAfterColon? (cs : List Char) : Option (Nat × List Char) :=
  match cs with
  | ':' :: rest => takeTwo? rest
  | rest => some (0, rest)

/-- The first six digits behind a point, as microseconds. -/
def takeMicroseconds? (cs : List Char) : Option (Nat × List Char) :=
  match cs with
  | '.' :: rest =>
    let run := rest.takeWhile fun c => '0' ≤ c && c ≤ '9'
    (Text.asciiNat? ((run ++ List.replicate 6 '0').take 6)).bind fun n =>
      if run.isEmpty then none else some (n, rest.drop run.length)
  | rest => some (0, rest)

/-- The offset that ends a text: none, the letter of universal time, or a signed time. -/
def offset? (cs : List Char) : Option (Option Int) :=
  let signed (negative : Bool) (rest : List Char) : Option (Option Int) := do
    let (hours, rest) ← takeTwo? rest
    let (minutes, rest) ← takeAfterColon? rest
    let (seconds, rest) ← takeAfterColon? rest
    let total : Int := hours * 3600 + minutes * 60 + seconds
    if rest.isEmpty ∧ hours < 24 ∧ minutes < 60 ∧ seconds < 60 then some (some (if negative then -total else total))
    else none
  match cs with
  | [] => some none
  | ['Z'] => some (some 0)
  | '+' :: rest => signed false rest
  | '-' :: rest => signed true rest
  | _ => none

/-- The instant that a text writes. -/
def ofText? (s : String) : Option Timestamp := do
  let date ← Date.ofIso? (String.ofList (s.toList.take 10))
  match s.toList.drop 10 with
  | [] => some ⟨date, 0, 0, 0, 0, none⟩
  | _ :: rest =>
    let (hour, rest) ← takeTwo? rest
    let (minute, rest) ← takeAfterColon? rest
    let (second, rest) ← takeAfterColon? rest
    let (microsecond, rest) ← takeMicroseconds? rest
    let offset ← offset? rest
    if hour < 24 ∧ minute < 60 ∧ second < 60 then some ⟨date, hour, minute, second, microsecond, offset⟩ else none

end Timestamp

end GoalReconciliation

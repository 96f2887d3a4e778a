import GoalReconciliation.Assoc
import GoalReconciliation.Decimal.Arithmetic
import GoalReconciliation.Decimal.Printer
import GoalReconciliation.Json.Basic
import GoalReconciliation.Vocabulary

/-!
# Amounts per instrument

* `GivenAmounts` : amounts under instrument codes as a source sent them.
* `Amounts` : amounts under instrument codes, in the order of first writing; a code may be unknown.
* `Amounts.amount` : the amount of an instrument, zero if there is none.
* `Amounts.addTo` : an amount added to a code's.
-/

namespace GoalReconciliation

set_option autoImplicit false

/-- Amounts under instrument codes as they were sent. -/
abbrev GivenAmounts := List (Given Instrument × Decimal)

/-- Amounts under instrument codes. -/
abbrev Amounts := List (Listed Instrument × Decimal)

namespace GivenAmounts

/-- Amounts from pairs; of two for one code the later one counts. -/
def ofPairs (pairs : List (Given Instrument × Decimal)) : GivenAmounts :=
  pairs.foldl (fun amounts (code, amount) => Assoc.put code amount amounts) []

/-- The amounts under what their codes compare as. -/
def listed (amounts : GivenAmounts) : Amounts :=
  amounts.map fun (code, amount) => (code.listed, amount)

/-- The amounts as a value, if every code is a word. -/
def toJson? (amounts : GivenAmounts) : Option Json :=
  let field (entry : Given Instrument × Decimal) : Option (String × Json) :=
    entry.1.word?.map fun word => (word.name, .text entry.2.toText)
  (amounts.mapM field).map .object

end GivenAmounts

namespace Amounts

/-- The amount of an instrument. -/
def amount (amounts : Amounts) (code : Instrument) : Decimal :=
  (Assoc.get? (.known code) amounts).getD Decimal.zero

/-- An amount added to a code's, which starts from zero. -/
def addTo (amounts : Amounts) (code : Listed Instrument) (amount : Decimal) : Except Decimal.Fault Amounts := do
  return Assoc.put code (← ((Assoc.get? code amounts).getD Decimal.zero).add amount) amounts

/-- The sums per code of several records' amounts. -/
def total (all : List Amounts) : Except Decimal.Fault Amounts :=
  all.flatten.foldlM (fun totals (code, amount) => addTo totals code amount) []

/-- The amounts as a value, if every code is known. -/
def toJson? (amounts : Amounts) : Option Json :=
  let field (entry : Listed Instrument × Decimal) : Option (String × Json) :=
    entry.1.word?.map fun word => (word.name, .text entry.2.toText)
  (amounts.mapM field).map .object

end Amounts

end GoalReconciliation

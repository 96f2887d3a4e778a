/-!
# The words of reconciliation

* `TransactionType`, `Instrument`, `MatchType`, `VarianceType`, `Severity`, `Status`, `ReviewTag`, `Side` : the closed
  lists of words that records and results use. Each word has one name, `x.name`, and `X.all` lists them in order.
* `Word` : the class of these lists, with `Word.ofName?`.
* `Given` : what a source sent where a word is expected: the word itself, or a plain text.
* `Listed` : what such a thing compares as: a word of the list, or a text that is the name of none.
* `TransactionType.opposes` : a deposit and a payment out undo each other.
-/

namespace GoalReconciliation

set_option autoImplicit false

/-- The direction of a money movement. -/
inductive TransactionType where
  | deposit
  | withdrawal
  | redemption
deriving DecidableEq

/-- The investment vehicles that a goal can hold. -/
inductive Instrument where
  | moneyMarket
  | bond
  | dollarEquity
  | regionalEquity
deriving DecidableEq

/-- How a bank side was paired with a ledger side. -/
inductive MatchType where
  | exact
  | amount
  | splitBankToGroup
  | splitGroupToBank
  | manual
deriving DecidableEq

/-- What differs between two sides, or which side is missing. -/
inductive VarianceType where
  | totalAmount
  | instrumentAmount
  | instrumentDistribution
  | dateDifference
  | missingInLedger
  | missingInBank
deriving DecidableEq

/-- How grave a variance is. -/
inductive Severity where
  | low
  | medium
  | high
  | critical
deriving DecidableEq

/-- The stored status of a bank record. -/
inductive Status where
  | pending
  | matched
  | autoApproved
  | manualReview
  | missingInLedger
  | missingInBank
  | approved
  | rejected
deriving DecidableEq

/-- An operator's tag. -/
inductive ReviewTag where
  | missingInLedger
  | missingInBank
  | timingDifference
  | amountDifference
  | duplicateTransaction
  | reversal
  | other
deriving DecidableEq

/-- The side of a reconciliation that a record lives on. -/
inductive Side where
  | bank
  | ledger
deriving DecidableEq

/-- A closed list of words with their names. -/
class Word (α : Type) where
  /-- What the list is called. -/
  listName : String
  all : List α
  name : α → String

/-- The word with a name. -/
def Word.ofName? {α : Type} [Word α] (name : String) : Option α :=
  (Word.all (α := α)).find? fun word => Word.name word == name

namespace TransactionType

def all : List TransactionType :=
  [deposit, withdrawal, redemption]

def name : TransactionType → String
  | deposit => "DEPOSIT"
  | withdrawal => "WITHDRAWAL"
  | redemption => "REDEMPTION"

instance : Word TransactionType :=
  ⟨"TransactionType", all, name⟩

end TransactionType

namespace Instrument

def all : List Instrument :=
  [moneyMarket, bond, dollarEquity, regionalEquity]

def name : Instrument → String
  | moneyMarket => "XUMMF"
  | bond => "XUBF"
  | dollarEquity => "XUDEF"
  | regionalEquity => "XUREF"

instance : Word Instrument :=
  ⟨"InstrumentCode", all, name⟩

end Instrument

namespace MatchType

def all : List MatchType :=
  [exact, amount, splitBankToGroup, splitGroupToBank, manual]

def name : MatchType → String
  | exact => "EXACT"
  | amount => "AMOUNT"
  | splitBankToGroup => "SPLIT_BANK_TO_GROUP"
  | splitGroupToBank => "SPLIT_GROUP_TO_BANK"
  | manual => "MANUAL"

instance : Word MatchType :=
  ⟨"MatchType", all, name⟩

end MatchType

namespace VarianceType

def name : VarianceType → String
  | totalAmount => "TOTAL_AMOUNT"
  | instrumentAmount => "INSTRUMENT_AMOUNT"
  | instrumentDistribution => "INSTRUMENT_DISTRIBUTION"
  | dateDifference => "DATE_DIFFERENCE"
  | missingInLedger => "MISSING_IN_LEDGER"
  | missingInBank => "MISSING_IN_BANK"

end VarianceType

namespace Severity

def all : List Severity :=
  [low, medium, high, critical]

def name : Severity → String
  | low => "LOW"
  | medium => "MEDIUM"
  | high => "HIGH"
  | critical => "CRITICAL"

instance : Word Severity :=
  ⟨"VarianceSeverity", all, name⟩

end Severity

namespace Status

def all : List Status :=
  [pending, matched, autoApproved, manualReview, missingInLedger, missingInBank, approved, rejected]

def name : Status → String
  | pending => "PENDING"
  | matched => "MATCHED"
  | autoApproved => "AUTO_APPROVED"
  | manualReview => "MANUAL_REVIEW"
  | missingInLedger => "MISSING_IN_LEDGER"
  | missingInBank => "MISSING_IN_BANK"
  | approved => "APPROVED"
  | rejected => "REJECTED"

instance : Word Status :=
  ⟨"ReconciliationStatus", all, name⟩

end Status

namespace ReviewTag

def all : List ReviewTag :=
  [missingInLedger, missingInBank, timingDifference, amountDifference, duplicateTransaction, reversal, other]

def name : ReviewTag → String
  | missingInLedger => "MISSING_IN_LEDGER"
  | missingInBank => "MISSING_IN_BANK"
  | timingDifference => "TIMING_DIFFERENCE"
  | amountDifference => "AMOUNT_DIFFERENCE"
  | duplicateTransaction => "DUPLICATE_TRANSACTION"
  | reversal => "REVERSAL"
  | other => "OTHER"

instance : Word ReviewTag :=
  ⟨"ReviewTag", all, name⟩

/-- The tags that a sweep can clear. -/
def autoResolvable : List ReviewTag :=
  [missingInLedger, missingInBank, timingDifference]

/-- The tags that a sweep looks for on bank records. -/
def sweptOnBank : List ReviewTag :=
  [missingInLedger, timingDifference]

/-- The tags that a sweep looks for on postings. -/
def sweptOnLedger : List ReviewTag :=
  [missingInBank, timingDifference]

end ReviewTag

namespace Side

def all : List Side :=
  [bank, ledger]

def name : Side → String
  | bank => "BANK"
  | ledger => "LEDGER"

instance : Word Side :=
  ⟨"RecordSource", all, name⟩

end Side

/-! ## Words and other texts -/

/-- What a source sent where a word is expected. A plain text may read like a word and still be none: it has no name. -/
inductive Given (α : Type) where
  | word (word : α)
  | text (text : String)
deriving DecidableEq

/-- A word of a list, or a text that is the name of none. -/
inductive Listed (α : Type) [Word α] where
  | known (word : α)
  | unknown (text : String) (other : Word.ofName? (α := α) text = none)
deriving DecidableEq

namespace Listed

variable {α : Type} [Word α]

/-- The word with a name, or the text itself. -/
def ofText (s : String) : Listed α :=
  match h : Word.ofName? s with
  | some word => known word
  | none => unknown s h

def word? : Listed α → Option α
  | known word => some word
  | unknown .. => none

end Listed

namespace Given

variable {α : Type}

/-- The word with a name, or the text itself. -/
def ofText [Word α] (s : String) : Given α :=
  match Word.ofName? s with
  | some found => word found
  | none => text s

def word? : Given α → Option α
  | word w => some w
  | text _ => none

/-- What it compares as: a plain text is equal to the word that it reads like. -/
def listed [Word α] : Given α → Listed α
  | word w => .known w
  | text s => .ofText s

end Given

/-- A deposit is undone by a withdrawal or a redemption, and these by a deposit. -/
def TransactionType.opposes : TransactionType → TransactionType → Bool
  | .deposit, .withdrawal => true
  | .deposit, .redemption => true
  | .withdrawal, .deposit => true
  | .redemption, .deposit => true
  | _, _ => false

end GoalReconciliation

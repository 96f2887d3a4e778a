import GoalReconciliation.Store.Repository

/-!
# Failing stores

* `Faults` : which steps of a store fail, and how.
* `Repository.withFaults` : a repository some of whose steps fail. Records are stored one at a time up to the first
  whose write fails.
-/

namespace GoalReconciliation

set_option autoImplicit false

/-- Which steps fail, and how. -/
structure Faults where
  failure : Failure
  /-- Records whose write fails. -/
  bank : List String := []
  /-- Postings whose write fails. -/
  postings : List String := []
  /-- Goals whose records cannot be loaded. -/
  goals : List String := []
  /-- The listing of goals and of tagged records fails. -/
  queries : Bool := false

namespace Faults

/-- A question that fails. -/
def hitsQuery (f : Faults) : Query → Bool
  | .bankRecords (some goal) _ => f.goals.contains goal
  | .goalIds _ => f.queries
  | .taggedBank .. => f.queries
  | .taggedBankCount _ => f.queries
  | _ => false

end Faults

namespace Repository

variable {σ : Type}

/-- Single items stored up to the first that fails. -/
def saveSingly {α : Type} (repo : Repository σ) (f : Faults) (name : α → String) (failing : List String)
    (single : α → Write) : List α → σ → Except Failure Unit × σ
  | [], s => (.ok (), s)
  | item :: rest, s =>
    if failing.contains (name item) then (.error f.failure, s)
    else
      match repo.save (single item) s with
      | (.ok (), s) => saveSingly repo f name failing single rest s
      | (.error failure, s) => (.error failure, s)

/-- The write of a repository with faults. -/
def saveWithFaults (repo : Repository σ) (f : Faults) (w : Write) (s : σ) : Except Failure Unit × σ :=
  match w with
  | .bank records =>
    if f.bank.isEmpty then repo.save w s
    else repo.saveSingly f BankRecord.id f.bank (fun r => .bank [r]) records s
  | .postings postings =>
    if f.postings.isEmpty then repo.save w s
    else repo.saveSingly f Posting.id f.postings (fun p => .postings [p]) postings s

/-- A repository some of whose steps fail. -/
def withFaults (repo : Repository σ) (f : Faults) : Repository σ :=
  { repo with
    query := fun question s => if f.hitsQuery question then (.error f.failure, s) else repo.query question s
    save := repo.saveWithFaults f }

end Repository

end GoalReconciliation

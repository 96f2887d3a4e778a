import GoalReconciliation.Assoc
import GoalReconciliation.Store.Procedure

/-!
# Tagging records for review

* `Tagging` : a tag, or none, for bank records and groups.
* `Tagging.apply` : the tag written to all of them or to none.
* `TaggingReceipt` : how many records were tagged, and when.
-/

namespace GoalReconciliation

set_option autoImplicit false

/-- A tag for bank records and groups. -/
structure Tagging where
  bankIds : List String
  groupKeys : List String
  tag : Option ReviewTag
  notes : Option String := none
  actor : String

/-- How many records were tagged, and when. -/
structure TaggingReceipt where
  tag : Option ReviewTag
  records : Nat
  groups : Nat
  postings : Nat
  reviewedAt : Timestamp

/-- The first of some names that is not among others. -/
def firstMissing? (names found : List String) : Option String :=
  names.find? fun name => !found.contains name

/-- The bank records that an operation names, or the failure that names the first unknown one. -/
def needRecords (ids : List String) : Procedure (List BankRecord) := do
  let records ← Procedure.bankById ids
  match firstMissing? ids (records.map BankRecord.id) with
  | some id => throw (.noBankRecord id)
  | none => return records

/-- The postings of the groups that an operation names, or the failure that names the first unknown group. -/
def needPostings (keys : List String) : Procedure (List Posting) := do
  let postings ← Procedure.postingsByKey keys
  match firstMissing? keys (postings.filterMap Posting.groupKey) with
  | some key => throw (.noGroup key)
  | none => return postings

namespace Tagging

/-- The tag for one bank record or for one group. -/
def single (side : Side) (name : String) (tag : Option ReviewTag) (notes : Option String) (actor : String) : Tagging :=
  match side with
  | .bank => ⟨[name], [], tag, notes, actor⟩
  | .ledger => ⟨[], [name], tag, notes, actor⟩

/-- The tag written to all records and all postings of the groups, or to none. -/
def apply (t : Tagging) (now : Timestamp) : Procedure TaggingReceipt := do
  let records ← needRecords t.bankIds
  let postings ← needPostings t.groupKeys
  let retag (review : Review) : Review := review.retag t.tag t.notes t.actor now
  Procedure.saveAll
    [.bank (records.map fun r => { r with review := retag r.review }),
      .postings (postings.map fun p => { p with review := retag p.review })]
  Procedure.report (.reviewApplied t.tag t.bankIds t.groupKeys) none t.actor
  return ⟨t.tag, records.length, (Assoc.distinct (postings.filterMap Posting.groupKey)).length, postings.length, now⟩

end Tagging

def TaggingReceipt.toJson (r : TaggingReceipt) : Json :=
  .object
    [("tag", Json.ofText? (r.tag.map ReviewTag.name)), ("bank_records_updated", Json.ofNat r.records),
      ("groups_updated", Json.ofNat r.groups), ("postings_updated", Json.ofNat r.postings),
      ("reviewed_at", .text r.reviewedAt.toText)]

end GoalReconciliation

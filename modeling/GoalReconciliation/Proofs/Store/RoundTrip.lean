import GoalReconciliation.Proofs.Keys.Groups
import GoalReconciliation.Proofs.Store.Contents

/-!
# Rows and back

* `BankRecord.Kept`, `Posting.Kept` : what is written to a row, whatever the row held before, reads as the record, and
  as the posting with its key;
* `HasRow.kept`, `Known.kept` : records and postings for which that holds;
* `rows_keep_records` : **no row keeps anything of what it held before, and nothing of what is written is lost**.
-/

namespace GoalReconciliation

set_option autoImplicit false

/-- The record fills every row in one way, and reads the same from it. -/
def BankRecord.Kept (r : BankRecord) : Prop :=
  ∃ written read, (∀ row : BankRow, row.apply r = .ok written) ∧ written.toRecord = .ok read ∧ r.Same read

/-- The posting has a key, fills every row in one way, and reads the same from it, with that key. -/
def Posting.Kept (p : Posting) : Prop :=
  ∃ key written read, p.key = .ok key ∧ (∀ row : PostingRow, row.apply p = .ok written) ∧
    written.toPosting = .ok read ∧ { p with groupKey := some key }.Same read

theorem BankRecord.HasRow.kept {r : BankRecord} (h : r.HasRow) : r.Kept :=
  ⟨r.row, r.reread, BankRecord.apply_row h, BankRecord.toRecord_row h, BankRecord.same_reread h.instruments⟩

theorem Posting.Known.kept {p : Posting} (h : p.Known) (hkey : ¬p.Lacking) : p.Kept := by
  obtain ⟨key, hkey⟩ := p.exists_key_iff.mpr hkey
  have hfits : p.FitsRow := ⟨h.givenInstrument, h.givenType, key, hkey⟩
  exact ⟨key, p.row, _, hkey, Posting.apply_row hfits, Posting.toPosting_row hfits hkey,
    Posting.same_reread { p with groupKey := some key }⟩

/-- **What is written to a row is what is read from it**, whatever the row held before: a record that has words and
whose links name who made them and the partner, and a posting that has words and a key or the fields of one. -/
theorem rows_keep_records :
    (∀ r : BankRecord, r.HasRow → r.Kept) ∧ ∀ p : Posting, p.Known → ¬p.Lacking → p.Kept :=
  ⟨fun _ hr => hr.kept, fun _ hp hkey => hp.kept hkey⟩

namespace Sample

/-- A record with an operator's match, a partner and a tag, and with amounts that are not in the order of the columns. -/
def annotated : BankRecord :=
  { id := "annotated"
    goalId := "goal"
    accountId := "account"
    sourceId := "s1"
    givenType := .word .withdrawal
    date := ⟨2024, 3, 15, by decide⟩
    amount := .finite true 70 0
    givenInstruments := [(.word .regionalEquity, .finite false 500 (-1)), (.word .moneyMarket, .finite false 20 0)]
    reference := some ⟨.manual, ["a", "b"], "operator", none⟩
    score := some 0
    reversal := some ⟨"partner", "operator", none⟩
    review := { tag := some .reversal, notes := some "" } }

/-- A row with everything that the record does not have. -/
def occupied : BankRow :=
  { id := "old", bond := some (.finite false 1 0), dollarEquity := some .zero,
    createdAt := some ⟨Date.first, 12, 0, 0, 0, none⟩, matchedAt := some ⟨Date.first, 12, 0, 0, 0, none⟩,
    review := { reviewer := some "old", resolved := true, reason := some "old", batchId := some "old" } }

def unkeyedPosting : Posting :=
  { id := "unkeyed"
    goalId := "goal"
    accountId := "account"
    sourceId := "s1"
    channel := "BANK"
    givenInstrument := .word .bond
    givenType := .word .withdrawal
    date := ⟨2024, 3, 15, by decide⟩
    amount := .finite true 70 0
    units := .finite true 0 (-4) }

end Sample

/-- A row of another record, and one of a posting with units. -/
theorem rows_keep_records_sample :
    Sample.annotated.HasRow ∧ Sample.unkeyedPosting.Known ∧ ¬Sample.unkeyedPosting.Lacking ∧
      (∃ written read, Sample.occupied.apply Sample.annotated = .ok written ∧ written.toRecord = .ok read ∧
        Sample.annotated.Same read) ∧
      ∃ key written read, Sample.unkeyedPosting.key = .ok key ∧
        PostingRow.apply { units := some (.finite false 5 0), groupKey := some "old" } Sample.unkeyedPosting =
          .ok written ∧
        written.toPosting = .ok read ∧ { Sample.unkeyedPosting with groupKey := some key }.Same read := by
  have hrow : Sample.annotated.HasRow :=
    ⟨⟨_, rfl⟩, by simp [Sample.annotated], by simp [Sample.annotated], by simp [Sample.annotated]⟩
  have hwords : Sample.unkeyedPosting.Known := ⟨⟨_, rfl⟩, ⟨_, rfl⟩⟩
  have hkeyed : ¬Sample.unkeyedPosting.Lacking := by decide +kernel
  obtain ⟨hrecords, hpostings⟩ := rows_keep_records
  obtain ⟨written, read, happly, hread, hsame⟩ := hrecords _ hrow
  obtain ⟨key, written', read', hkey, happly', hread', hsame'⟩ := hpostings _ hwords hkeyed
  exact ⟨hrow, hwords, hkeyed, ⟨written, read, happly _, hread, hsame⟩,
    key, written', read', hkey, happly' _, hread', hsame'⟩

end GoalReconciliation

import GoalReconciliation.Proofs.Amounts
import GoalReconciliation.Proofs.Store.Reviewed
import GoalReconciliation.Store.Database

/-!
# Records and their rows

* `BankRecord.HasRow` : a record that comes back from a row; `BankRecord.FitsRow`, `Posting.FitsRow` : what a row of a
  store can hold;
* `BankRecord.row`, `Posting.row` : the row of a record, whatever the row held before;
* `BankRecord.reread`, `Posting.reread` : the record that comes back, with its amounts in the order of the columns, and
  with zero units as the plain zero;
* `toRecord_row`, `toPosting_row` : **what is written to a row and read again comes back as that**;
* `BankRow.toRecord_ok`, `PostingRow.toPosting_ok` : what a row is looked up by is what its record is looked up by.
-/

namespace GoalReconciliation

set_option autoImplicit false

open Fallible (bind_eq_ok pure_eq_ok)

/-! ## Words -/

theorem TransactionType.read_name (word : TransactionType) : Word.read (α := TransactionType) word.name = .ok word := by
  cases word <;> rfl

theorem Instrument.read_name (word : Instrument) : Word.read (α := Instrument) word.name = .ok word := by
  cases word <;> rfl

theorem MatchType.read_name (word : MatchType) : Word.read (α := MatchType) word.name = .ok word := by
  cases word <;> rfl

theorem Status.read_name (word : Status) : Word.read (α := Status) word.name = .ok word := by
  cases word <;> rfl

theorem ReviewTag.read_name (word : ReviewTag) : Word.read (α := ReviewTag) word.name = .ok word := by
  cases word <;> rfl

theorem Word.name_of_read {α : Type} [Word α] {text : String} {word : α} (h : Word.read text = .ok word) :
    Word.name word = text := by
  unfold Word.read Word.ofName? at h
  split at h
  · rename_i found hfound
    obtain rfl := Except.ok.inj h
    simpa using List.find?_some hfound
  · cases h

theorem MatchType.name_injective {a b : MatchType} (h : a.name = b.name) : a = b :=
  Except.ok.inj ((MatchType.read_name a).symm.trans (h ▸ MatchType.read_name b))

theorem ReviewTag.name_injective {a b : ReviewTag} (h : a.name = b.name) : a = b :=
  Except.ok.inj ((ReviewTag.read_name a).symm.trans (h ▸ ReviewTag.read_name b))

theorem present_some {text : String} (h : text ≠ "") : present (some text) = some text :=
  Option.filter_some_pos (by simpa using h)

/-! ## Reviews -/

theorem ReviewColumns.toReview_ofReview (r : Review) : (ReviewColumns.ofReview r).toReview = .ok r := by
  obtain ⟨tag, notes, reviewer, reviewedAt, resolved, resolvedAt, reason, batchId⟩ := r
  cases tag with
  | none => rfl
  | some tag => cases tag <;> rfl

/-! ## Bank records -/

namespace BankRecord

/-- A record whose type and instruments are words, and whose links name who made them, and the partner. -/
structure HasRow (r : BankRecord) : Prop where
  givenType : ∃ word, r.givenType = .word word
  instruments : ∀ entry ∈ r.givenInstruments, ∃ code, entry.1 = .word code
  creator : ∀ link ∈ r.reference, link.createdBy ≠ ""
  partner : ∀ link ∈ r.reversal, link.partnerId ≠ "" ∧ link.linkedBy ≠ ""

/-- A record that a row can hold: it has words, and the texts that stand for a link are there. -/
structure FitsRow (r : BankRecord) : Prop where
  givenType : ∃ word, r.givenType = .word word
  instruments : r.givenInstruments.Plain
  creator : ∀ link ∈ r.reference, link.createdBy ≠ ""
  partner : ∀ link ∈ r.reversal, link.partnerId ≠ "" ∧ link.linkedBy ≠ ""

def row (r : BankRecord) : BankRow :=
  (({} : BankRow).apply r).toOption.getD {}

/-- The record as its row gives it back. -/
def reread (r : BankRecord) : BankRecord :=
  { r with givenInstruments := r.givenInstruments.reread }

variable {r : BankRecord}

theorem FitsRow.hasRow (h : r.FitsRow) : r.HasRow :=
  ⟨h.givenType, h.instruments.words, h.creator, h.partner⟩

theorem apply_row (h : r.HasRow) (row : BankRow) : row.apply r = .ok r.row := by
  obtain ⟨word, hword⟩ := h.givenType
  simp only [BankRow.apply, BankRecord.row, hword]
  rfl

theorem fitsRow_reread (h : r.FitsRow) : r.reread.FitsRow :=
  { h with instruments := GivenAmounts.plain_reread h.instruments }

theorem FitsRow.mark (h : r.FitsRow) {link : MatchReference} (hlink : link.createdBy ≠ "") (score : Int)
    (status : Status) (now : Timestamp) : (r.mark link score status now).FitsRow :=
  { givenType := h.givenType
    instruments := h.instruments
    creator := by
      rintro _ ⟨⟩
      exact hlink
    partner := h.partner }

theorem FitsRow.clearMatch (h : r.FitsRow) (status : Status) : { r.clearMatch with status := status }.FitsRow :=
  { givenType := h.givenType
    instruments := h.instruments
    creator := by rintro _ ⟨⟩
    partner := h.partner }

theorem reread_reread (r : BankRecord) : r.reread.reread = r.reread :=
  congrArg (fun amounts => { r with givenInstruments := amounts }) (GivenAmounts.reread_reread r.givenInstruments)

theorem amounts_row (h : r.HasRow) : r.row.amounts = r.givenInstruments.reread := by
  have hcolumn : ∀ code, r.row.column code = Assoc.get? (.word code) r.givenInstruments := by
    obtain ⟨word, hword⟩ := h.givenType
    simp only [BankRecord.row, BankRow.apply, hword]
    intro code
    cases code <;> exact GivenAmounts.get?_listed h.instruments _
  simp only [BankRow.amounts, hcolumn]
  rw [GivenAmounts.reread, List.filterMap_map]
  rfl

theorem reference_row (h : r.HasRow) : r.row.reference = .ok r.reference := by
  obtain ⟨word, hword⟩ := h.givenType
  have hcreator := h.creator
  simp only [BankRow.reference, BankRecord.row, BankRow.apply, hword]
  cases hreference : r.reference with
  | none => rfl
  | some link =>
      obtain ⟨matchType, keys, creator, created⟩ := link
      have hpresent : present (some creator) = some creator := present_some (hcreator _ hreference)
      have hname : present (some matchType.name) = some matchType.name :=
        present_some (by cases matchType <;> decide)
      simp only [needWord, Except.toOption, Option.getD_some, Option.map_some, Option.bind_some, pure, Except.pure,
        bind, Except.bind, hname, hpresent, MatchType.read_name]

theorem reversal_row (h : r.HasRow) : r.row.reversal = r.reversal := by
  obtain ⟨word, hword⟩ := h.givenType
  have hpartner := h.partner
  simp only [BankRow.reversal, BankRecord.row, BankRow.apply, hword]
  cases hreversal : r.reversal with
  | none => rfl
  | some link =>
      obtain ⟨partner, linker, linked⟩ := link
      obtain ⟨hthere, hlinker⟩ := hpartner _ hreversal
      change (present (some partner)).map (fun name =>
        ReversalLink.mk name ((present (some linker)).getD "system") linked) = _
      rw [present_some hthere, present_some hlinker]
      rfl

/-- **The record comes back from its row.** -/
theorem toRecord_row (h : r.HasRow) : r.row.toRecord = .ok r.reread := by
  obtain ⟨word, hword⟩ := h.givenType
  have hreview : r.row.review.toReview = .ok r.review := by
    simp only [BankRecord.row, BankRow.apply, hword]
    exact ReviewColumns.toReview_ofReview _
  have htype : (Word.read r.row.transactionType : Except Failure TransactionType) = .ok word := by
    simp only [BankRecord.row, BankRow.apply, hword]
    exact TransactionType.read_name word
  have hstatus : (Word.read ((present r.row.status).getD Status.pending.name) : Except Failure Status) =
      .ok r.status := by
    simp only [BankRecord.row, BankRow.apply, hword]
    change Word.read ((present (some r.status.name)).getD Status.pending.name) = _
    rw [present_some (by cases r.status <;> decide)]
    exact Status.read_name r.status
  unfold BankRow.toRecord
  rw [reference_row h, htype, hstatus, hreview, amounts_row h, reversal_row h]
  simp only [BankRecord.row, BankRow.apply, hword]
  cases r
  cases hword
  rfl

end BankRecord

/-! ## Postings -/

namespace Posting

/-- A posting that a row can hold: it has words and a key. -/
structure FitsRow (p : Posting) : Prop where
  givenInstrument : ∃ word, p.givenInstrument = .word word
  givenType : ∃ word, p.givenType = .word word
  keyed : ∃ key, p.key = .ok key

def row (p : Posting) : PostingRow :=
  (({} : PostingRow).apply p).toOption.getD {}

/-- The posting as its row gives it back. -/
def reread (p : Posting) : Posting :=
  { p with units := if p.units.isZero then Decimal.zero else p.units }

variable {p : Posting}

theorem apply_row (h : p.FitsRow) (row : PostingRow) : row.apply p = .ok p.row := by
  obtain ⟨instrument, hinstrument⟩ := h.givenInstrument
  obtain ⟨word, hword⟩ := h.givenType
  obtain ⟨key, hkey⟩ := h.keyed
  simp only [PostingRow.apply, Posting.row, hinstrument, hword, hkey]
  rfl

theorem fitsRow_reread (h : p.FitsRow) : p.reread.FitsRow :=
  ⟨h.givenInstrument, h.givenType, h.keyed⟩

theorem reread_reread (p : Posting) : p.reread.reread = p.reread := by
  unfold reread
  cases hzero : p.units.isZero <;> simp [hzero]

/-- **The posting comes back from its row**, with its key. -/
theorem toPosting_row (h : p.FitsRow) {key : String} (hkey : p.key = .ok key) :
    p.row.toPosting = .ok { p.reread with groupKey := some key } := by
  obtain ⟨instrument, hinstrument⟩ := h.givenInstrument
  obtain ⟨word, hword⟩ := h.givenType
  have hcolumns : (Word.read p.row.instrument : Except Failure Instrument) = .ok instrument ∧
      (Word.read p.row.transactionType : Except Failure TransactionType) = .ok word ∧
      p.row.plainUnits = p.reread.units ∧ p.row.review.toReview = .ok p.review := by
    simp only [Posting.row, PostingRow.apply, hinstrument, hword, hkey]
    refine ⟨Instrument.read_name instrument, TransactionType.read_name word, ?_, ReviewColumns.toReview_ofReview _⟩
    change ((some p.units).filter (!·.isZero)).getD Decimal.zero = if p.units.isZero then Decimal.zero else p.units
    cases hzero : p.units.isZero <;> simp [Option.filter, hzero]
  obtain ⟨hreads, htype, hunits, hreview⟩ := hcolumns
  unfold PostingRow.toPosting
  rw [hreads, htype, hunits, hreview]
  simp only [Posting.row, PostingRow.apply, hinstrument, hword, hkey]
  cases p
  cases hinstrument
  cases hword
  rfl

end Posting

/-! ## Rows -/

theorem ReviewColumns.toReview_ok {columns : ReviewColumns} {review : Review} (h : columns.toReview = .ok review) :
    review.tag.map ReviewTag.name = present columns.tag ∧ review.resolved = columns.resolved := by
  obtain ⟨tag, htag, h⟩ := bind_eq_ok.mp h
  obtain rfl := pure_eq_ok.mp h
  refine ⟨?_, rfl⟩
  cases hpresent : present columns.tag with
  | none =>
      rw [hpresent] at htag
      obtain rfl := Except.ok.inj htag
      rfl
  | some text =>
      rw [hpresent] at htag
      obtain ⟨word, hword, htag⟩ := bind_eq_ok.mp htag
      obtain rfl := Except.ok.inj htag
      exact congrArg some (Word.name_of_read hword)

theorem ReviewTag.contains_names (tags : List ReviewTag) (word : ReviewTag) :
    (tags.map name).contains word.name = tags.contains word := by
  rw [Bool.eq_iff_iff, List.contains_iff_mem, List.contains_iff_mem, List.mem_map]
  exact ⟨fun ⟨tag, hmem, hname⟩ => name_injective hname ▸ hmem, fun hword => ⟨word, hword, rfl⟩⟩

theorem ReviewTag.names_contain_no_empty (tags : List ReviewTag) : (tags.map name).contains "" = false := by
  rw [Bool.eq_false_iff]
  intro hmem
  obtain ⟨word, -, hname⟩ := List.mem_map.mp (List.contains_iff_mem.mp hmem)
  cases word <;> simp [name] at hname

theorem TagFilter.selectsRow_eq {columns : ReviewColumns} {review : Review} (h : columns.toReview = .ok review)
    (f : TagFilter) (date : Date) : f.selectsRow columns date = f.selects review date := by
  obtain ⟨htag, hresolved⟩ := ReviewColumns.toReview_ok h
  have hany : columns.tag.any ((f.tags.map ReviewTag.name).contains ·) = review.tag.any (f.tags.contains ·) := by
    cases hcolumn : columns.tag with
    | none =>
        rw [hcolumn] at htag
        obtain hnone : review.tag = none := Option.map_eq_none_iff.mp htag
        rw [hnone]
        rfl
    | some text =>
        rw [hcolumn] at htag
        by_cases hthere : text = ""
        · subst hthere
          have hnone : review.tag = none := Option.map_eq_none_iff.mp htag
          rw [hnone]
          exact ReviewTag.names_contain_no_empty f.tags
        · rw [present_some hthere] at htag
          obtain ⟨word, hword, rfl⟩ := Option.map_eq_some_iff.mp htag
          rw [hword]
          exact ReviewTag.contains_names f.tags word
  rw [TagFilter.selectsRow, TagFilter.selects, hany, hresolved]

theorem BankRow.stored_faithful (row : BankRow) : row.stored .faithful = row := by
  simp [BankRow.stored, Columns.faithful, ReviewColumns.stored]

theorem PostingRow.stored_faithful (row : PostingRow) : row.stored .faithful = row := by
  simp [PostingRow.stored, Columns.faithful, ReviewColumns.stored]

theorem BankRow.toRecord_ok {row : BankRow} {r : BankRecord} (h : row.toRecord = .ok r) :
    r.id = row.id ∧ r.goalId = row.goalId ∧ r.date = row.date ∧
      (row.matchType = some MatchType.manual.name ↔ r.hasManualMatch = true) ∧
      row.review.toReview = .ok r.review := by
  obtain ⟨reference, hreference, h⟩ := bind_eq_ok.mp h
  obtain ⟨word, -, h⟩ := bind_eq_ok.mp h
  obtain ⟨status, -, h⟩ := bind_eq_ok.mp h
  obtain ⟨review, hreview, h⟩ := bind_eq_ok.mp h
  obtain rfl := pure_eq_ok.mp h
  refine ⟨rfl, rfl, rfl, ?_, hreview⟩
  change _ ↔ reference.any (·.isManual) = true
  unfold BankRow.reference at hreference
  split at hreference
  · rename_i hnone
    obtain rfl := Except.ok.inj hreference
    refine ⟨fun hmanual => ?_, fun hany => by cases hany⟩
    rw [hmanual] at hnone
    cases hnone
  · rename_i name hname
    obtain ⟨matchType, hread, hreference⟩ := bind_eq_ok.mp hreference
    obtain rfl := pure_eq_ok.mp hreference
    obtain rfl : matchType.name = name := Word.name_of_read hread
    have hcolumn : row.matchType = some matchType.name := (Option.filter_eq_some_iff.mp hname).1
    rw [hcolumn, Option.any_some, MatchReference.isManual, decide_eq_true_iff, Option.some_inj]
    exact ⟨MatchType.name_injective, congrArg MatchType.name⟩

theorem PostingRow.toPosting_ok {row : PostingRow} {p : Posting} (h : row.toPosting = .ok p) :
    p.id = row.id ∧ p.goalId = row.goalId ∧ p.date = row.date ∧ p.groupKey = row.groupKey ∧
      row.review.toReview = .ok p.review := by
  obtain ⟨instrument, -, h⟩ := bind_eq_ok.mp h
  obtain ⟨word, -, h⟩ := bind_eq_ok.mp h
  obtain ⟨review, hreview, h⟩ := bind_eq_ok.mp h
  obtain rfl := pure_eq_ok.mp h
  exact ⟨rfl, rfl, rfl, rfl, hreview⟩

end GoalReconciliation

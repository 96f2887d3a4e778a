import GoalReconciliation.Proofs.Related
import GoalReconciliation.Proofs.Store.Listing
import GoalReconciliation.Proofs.Store.Rows

/-!
# A store read from tables

* `Tables.Holds` : tables whose rows read as the records of a store, in its order;
* `Tables.answer_eq` : **such tables answer each question as the store does**, but that records that are asked for by
  their ids come in the order of these;
* `Store.reread` : a store as it is read again, and `Store.answer_reread` : the answers that it gives;
* `Holds.putBank`, `Holds.putPosting` : what is written to the tables is stored as it is read again.
-/

namespace GoalReconciliation

set_option autoImplicit false

open Fallible (mapM_eq_ok)

/-! ## Questions -/

/-- A question whose limit, if it has one, is none below zero. -/
def Query.Sized : Query → Prop
  | .taggedBank _ limit | .taggedKeys _ limit => ∀ n ∈ limit, 0 ≤ n
  | _ => True

/-- The answer with records that are asked for by their ids in the order of these. -/
def Query.ordered : (question : Query) → question.Answer → question.Answer
  | .bankById _, records => Sorting.byText BankRecord.id records
  | .bankRecords .., answer | .postings .., answer | .postingsByKey _, answer | .manualMatches _, answer
  | .goalIds _, answer | .taggedBank .., answer | .taggedBankCount _, answer | .taggedKeys .., answer
  | .taggedKeyCount _, answer => answer

/-! ## One item replaced -/

theorem forall₂_replaceOrAdd {α β : Type} {R : α → β → Prop} {name : α → String} {name' : β → String} {item : α}
    {item' : β} (hitem : R item item') (hname : ∀ {x y}, R x y → name' y = name x) {xs : List α} {ys : List β}
    (h : List.Forall₂ R xs ys) : List.Forall₂ R (replaceOrAdd name item xs) (replaceOrAdd name' item' ys) := by
  induction h with
  | nil => exact .cons hitem .nil
  | @cons x y xs ys hxy hrest ih =>
      unfold replaceOrAdd
      rw [hname hxy, hname hitem]
      split
      · exact .cons hitem hrest
      · exact .cons hxy ih

/-! ## Tables -/

namespace Tables

structure Holds (t : Tables) (s : Store) : Prop where
  bank : List.Forall₂ (fun row r => row.toRecord = .ok r) t.bank s.bank
  ledger : List.Forall₂ (fun row p => row.toPosting = .ok p) t.ledger s.ledger

theorem holds_empty : ({} : Tables).Holds {} :=
  ⟨.nil, .nil⟩

namespace Holds

variable {t : Tables} {s : Store}

theorem filter_bank (h : t.Holds s) {keep : BankRow → Bool} {keep' : BankRecord → Bool}
    (hkeep : ∀ {row r}, row.toRecord = .ok r → keep row = keep' r) :
    List.Forall₂ (fun row r => row.toRecord = .ok r) (t.bank.filter keep) (s.bank.filter keep') :=
  List.rel_filter (fun _ _ hread => Bool.eq_iff_iff.mp (hkeep hread)) h.bank

theorem filter_ledger (h : t.Holds s) {keep : PostingRow → Bool} {keep' : Posting → Bool}
    (hkeep : ∀ {row p}, row.toPosting = .ok p → keep row = keep' p) :
    List.Forall₂ (fun row p => row.toPosting = .ok p) (t.ledger.filter keep) (s.ledger.filter keep') :=
  List.rel_filter (fun _ _ hread => Bool.eq_iff_iff.mp (hkeep hread)) h.ledger

theorem byText {rows : List BankRow} {rs : List BankRecord}
    (h : List.Forall₂ (fun row r => row.toRecord = .ok r) rows rs) :
    List.Forall₂ (fun row r => row.toRecord = .ok r) (Sorting.byText BankRow.id rows)
      (Sorting.byText BankRecord.id rs) :=
  Related.forall₂_mergeSort h fun hx hy => by rw [(BankRow.toRecord_ok hx).1, (BankRow.toRecord_ok hy).1]

theorem newestFirst_ledger {rows : List PostingRow} {ps : List Posting}
    (h : List.Forall₂ (fun row p => row.toPosting = .ok p) rows ps) :
    List.Forall₂ (fun row p => row.toPosting = .ok p) (Sorting.newestFirst PostingRow.date PostingRow.id rows)
      (Sorting.newestFirst Posting.date Posting.id ps) := by
  refine Related.forall₂_mergeSort h fun hx hy => ?_
  obtain ⟨hid, -, hdate, -⟩ := PostingRow.toPosting_ok hx
  obtain ⟨hid', -, hdate', -⟩ := PostingRow.toPosting_ok hy
  simp only [Sorting.isBefore, hid, hdate, hid', hdate']

theorem bankRecords (h : t.Holds s) (goal : Option String) (range : Option DateRange) :
    List.Forall₂ (fun row r => row.toRecord = .ok r) (t.bankRecords goal range) (s.bankRecords goal range) := by
  refine Related.forall₂_mergeSort (h.filter_bank fun hread => ?_) fun hx hy => ?_
  · obtain ⟨-, hgoal, hdate, -⟩ := BankRow.toRecord_ok hread
    rw [hgoal, hdate]
  · obtain ⟨hid, -, hdate, -⟩ := BankRow.toRecord_ok hx
    obtain ⟨hid', -, hdate', -⟩ := BankRow.toRecord_ok hy
    simp only [Sorting.isBefore, hid, hdate, hid', hdate']

theorem postings (h : t.Holds s) (goal : Option String) (range : Option DateRange) :
    List.Forall₂ (fun row p => row.toPosting = .ok p) (t.postings goal range) (s.postings goal range) := by
  refine newestFirst_ledger (h.filter_ledger fun hread => ?_)
  obtain ⟨-, hgoal, hdate, -⟩ := PostingRow.toPosting_ok hread
  rw [hgoal, hdate]

theorem keyOf_eq {row : PostingRow} {p : Posting} (h : row.toPosting = .ok p) : Tables.keyOf row = Store.keyOf p := by
  rw [Tables.keyOf, Store.keyOf, (PostingRow.toPosting_ok h).2.2.2.1]

theorem postingsByKey (h : t.Holds s) (keys : List String) :
    List.Forall₂ (fun row p => row.toPosting = .ok p) (t.postingsByKey keys) (s.postingsByKey keys) :=
  newestFirst_ledger (h.filter_ledger fun hread => by rw [keyOf_eq hread])

theorem manualMatches (h : t.Holds s) (goal : Option String) :
    List.Forall₂ (fun row r => row.toRecord = .ok r) (t.manualMatches goal) (s.manualMatches goal) := by
  refine byText (h.filter_bank fun {row r} hread => ?_)
  obtain ⟨-, hgoal, -, hmanual, -⟩ := BankRow.toRecord_ok hread
  rw [Bool.eq_iff_iff, Bool.and_eq_true, decide_eq_true_iff, hmanual, hgoal]

theorem taggedBank (h : t.Holds s) (f : TagFilter) :
    List.Forall₂ (fun row r => row.toRecord = .ok r) (t.taggedBank f) (s.taggedBank f) := by
  refine byText (h.filter_bank fun hread => ?_)
  obtain ⟨hid, -, hdate, -, hreview⟩ := BankRow.toRecord_ok hread
  rw [TagFilter.selectsRow_eq hreview, hid, hdate]

theorem taggedKeys (h : t.Holds s) (f : TagFilter) : t.taggedKeys f = s.taggedKeys f := by
  have hkeys : (t.ledger.filter fun row => f.selectsRow row.review row.date).map Tables.keyOf =
      (s.ledger.filter fun p => f.selects p.review p.date).map Store.keyOf := by
    refine (Related.map_eq ((h.filter_ledger fun hread => ?_).imp fun row p hread => ?_)).symm
    · obtain ⟨-, -, hdate, -, hreview⟩ := PostingRow.toPosting_ok hread
      rw [TagFilter.selectsRow_eq hreview, hdate]
    · exact (keyOf_eq hread).symm
  simp only [Tables.taggedKeys, Store.taggedKeys, hkeys]

theorem goalIds (h : t.Holds s) (range : Option DateRange) : t.goalIds range = s.goalIds range := by
  have hbank : (t.bank.filter fun row => DateRange.admits range row.date).map BankRow.goalId =
      (s.bank.filter fun r => DateRange.admits range r.date).map BankRecord.goalId := by
    refine (Related.map_eq ((h.filter_bank fun hread => ?_).imp fun row r hread => ?_)).symm
    · rw [(BankRow.toRecord_ok hread).2.2.1]
    · exact (BankRow.toRecord_ok hread).2.1
  have hledger : (t.ledger.filter fun row => DateRange.admits range row.date).map PostingRow.goalId =
      (s.ledger.filter fun p => DateRange.admits range p.date).map Posting.goalId := by
    refine (Related.map_eq ((h.filter_ledger fun hread => ?_).imp fun row p hread => ?_)).symm
    · rw [(PostingRow.toPosting_ok hread).2.2.1]
    · exact (PostingRow.toPosting_ok hread).2.1
  simp only [Tables.goalIds, Store.goalIds, hbank, hledger]

end Holds

end Tables

/-! ## By id -/

namespace Store

variable {s : Store}

theorem nodup_bankById (s : Store) (ids : List String) : ((s.bankById ids).map BankRecord.id).Nodup :=
  (Assoc.nodup_distinct ids).sublist (Lookup.looked_names s.bank (Assoc.distinct ids))

theorem mem_bankById_iff (hs : (s.bank.map BankRecord.id).Nodup) {ids : List String} {r : BankRecord} :
    r ∈ s.bankById ids ↔ r ∈ s.bank ∧ r.id ∈ ids := by
  rw [bankById, List.mem_filterMap]
  constructor
  · rintro ⟨id, hid, hfind⟩
    obtain ⟨hr, rfl⟩ := (bankRecord?_iff hs).mp hfind
    exact ⟨hr, Assoc.mem_distinct.mp hid⟩
  · rintro ⟨hr, hid⟩
    exact ⟨r.id, Assoc.mem_distinct.mpr hid, (bankRecord?_iff hs).mpr ⟨hr, rfl⟩⟩

/-- Records that are asked for by their ids, in the order of these. -/
theorem byText_bankById (hs : (s.bank.map BankRecord.id).Nodup) (ids : List String) :
    Sorting.byText BankRecord.id (s.bank.filter fun r => ids.contains r.id) =
      Sorting.byText BankRecord.id (s.bankById ids) := by
  refine Ascending.eq_of_mem_iff (.of_byText (hs.sublist (List.filter_sublist.map _)))
    (.of_byText (s.nodup_bankById ids)) fun r => ?_
  rw [Sorting.byText, Sorting.byText, List.mem_mergeSort, List.mem_mergeSort, List.mem_filter, List.contains_iff_mem,
    mem_bankById_iff hs]

end Store

/-! ## All questions -/

namespace Tables

theorem limited_eq {α : Type} {limit : Option Int} (h : ∀ n ∈ limit, 0 ≤ n) (items : List α) :
    Tables.limited limit items = Store.limited limit items := by
  cases limit with
  | none => rfl
  | some n =>
      have hn : 0 ≤ n := h n rfl
      rw [Store.limited_eq_take hn]
      obtain ⟨k, rfl⟩ := Int.eq_ofNat_of_zero_le hn
      rfl

variable {t : Tables} {s : Store}

/-- **Tables answer each question as the store does that is read from them.** -/
theorem answer_eq (h : t.Holds s) (hs : (s.bank.map BankRecord.id).Nodup) {question : Query}
    (hquestion : question.Sized) : t.answer question = .ok (question.ordered (s.answer question)) := by
  cases question with
  | bankRecords goal range => exact mapM_eq_ok.mpr (h.bankRecords goal range)
  | postings goal range => exact mapM_eq_ok.mpr (h.postings goal range)
  | bankById ids =>
      refine mapM_eq_ok.mpr ?_
      change List.Forall₂ _ (t.bankById ids) (Sorting.byText BankRecord.id (s.bankById ids))
      rw [← Store.byText_bankById hs]
      exact Holds.byText (h.filter_bank fun hread => by rw [(BankRow.toRecord_ok hread).1])
  | postingsByKey keys => exact mapM_eq_ok.mpr (h.postingsByKey keys)
  | manualMatches goal => exact mapM_eq_ok.mpr (h.manualMatches goal)
  | goalIds range => exact congrArg Except.ok (h.goalIds range)
  | taggedBank filter limit =>
      refine mapM_eq_ok.mpr ?_
      rw [limited_eq hquestion]
      change List.Forall₂ _ _ (Store.limited limit (s.taggedBank filter))
      cases limit with
      | none => exact h.taggedBank filter
      | some n =>
          have hn : 0 ≤ n := hquestion n rfl
          rw [Store.limited_eq_take hn, Store.limited_eq_take hn]
          exact List.forall₂_take _ (h.taggedBank filter)
  | taggedBankCount filter => exact congrArg Except.ok (h.taggedBank filter).length_eq
  | taggedKeys filter limit =>
      change Except.ok (Tables.limited limit (t.taggedKeys filter)) = .ok (Store.limited limit (s.taggedKeys filter))
      rw [limited_eq hquestion, h.taggedKeys]
  | taggedKeyCount filter => exact congrArg (Except.ok ∘ List.length) (h.taggedKeys filter)

end Tables

/-! ## As it is read again -/

def Query.reread : (question : Query) → question.Answer → question.Answer
  | .bankById _, records => (Sorting.byText BankRecord.id records).map BankRecord.reread
  | .bankRecords .., records | .manualMatches _, records | .taggedBank .., records => records.map BankRecord.reread
  | .postings .., answer | .postingsByKey _, answer => answer.map Posting.reread
  | .goalIds _, answer | .taggedBankCount _, answer | .taggedKeys .., answer | .taggedKeyCount _, answer => answer

namespace Store

def reread (s : Store) : Store :=
  ⟨s.bank.map BankRecord.reread, s.ledger.map Posting.reread⟩

variable (s : Store)

theorem reread_ids : s.reread.bank.map BankRecord.id = s.bank.map BankRecord.id := List.map_map

theorem bankRecords_reread (goal : Option String) (range : Option DateRange) :
    s.reread.bankRecords goal range = (s.bankRecords goal range).map BankRecord.reread := by
  refine Sorting.mergeSort_filter_map (f := BankRecord.reread) (fun _ => ?_) (fun _ _ => ?_) s.bank <;> rfl

theorem bankById_reread (ids : List String) : s.reread.bankById ids = (s.bankById ids).map BankRecord.reread := by
  have hfind : s.reread.bankRecord? = fun id => (s.bankRecord? id).map BankRecord.reread := by
    funext id
    exact List.find?_map
  rw [bankById, bankById, hfind, List.map_filterMap]

theorem byText_reread (records : List BankRecord) :
    Sorting.byText BankRecord.id (records.map BankRecord.reread) =
      (Sorting.byText BankRecord.id records).map BankRecord.reread := by
  refine (List.map_mergeSort (f := BankRecord.reread) fun _ _ _ _ => ?_).symm
  rfl

theorem manualMatches_reread (goal : Option String) :
    s.reread.manualMatches goal = (s.manualMatches goal).map BankRecord.reread := by
  refine Sorting.mergeSort_filter_map (f := BankRecord.reread) (fun _ => ?_) (fun _ _ => ?_) s.bank <;> rfl

theorem taggedBank_reread (f : TagFilter) : s.reread.taggedBank f = (s.taggedBank f).map BankRecord.reread := by
  refine Sorting.mergeSort_filter_map (f := BankRecord.reread) (fun _ => ?_) (fun _ _ => ?_) s.bank <;> rfl

theorem postings_reread (goal : Option String) (range : Option DateRange) :
    s.reread.postings goal range = (s.postings goal range).map Posting.reread := by
  refine Sorting.mergeSort_filter_map (f := Posting.reread) (fun _ => ?_) (fun _ _ => ?_) s.ledger <;> rfl

theorem postingsByKey_reread (keys : List String) :
    s.reread.postingsByKey keys = (s.postingsByKey keys).map Posting.reread := by
  refine Sorting.mergeSort_filter_map (f := Posting.reread) (fun _ => ?_) (fun _ _ => ?_) s.ledger <;> rfl

theorem goalIds_reread (range : Option DateRange) : s.reread.goalIds range = s.goalIds range := by
  have hbank : (s.reread.bank.filter fun r => DateRange.admits range r.date).map BankRecord.goalId =
      (s.bank.filter fun r => DateRange.admits range r.date).map BankRecord.goalId := by
    rw [reread, List.filter_map, List.map_map]
    rfl
  have hledger : (s.reread.ledger.filter fun p => DateRange.admits range p.date).map Posting.goalId =
      (s.ledger.filter fun p => DateRange.admits range p.date).map Posting.goalId := by
    rw [reread, List.filter_map, List.map_map]
    rfl
  simp only [goalIds, hbank, hledger]

theorem taggedKeys_reread (f : TagFilter) : s.reread.taggedKeys f = s.taggedKeys f := by
  have hkeys : (s.reread.ledger.filter fun p => f.selects p.review p.date).map keyOf =
      (s.ledger.filter fun p => f.selects p.review p.date).map keyOf := by
    rw [reread, List.filter_map, List.map_map]
    rfl
  simp only [taggedKeys, hkeys]

theorem limited_map {α β : Type} (f : α → β) (limit : Option Int) (items : List α) :
    limited limit (items.map f) = (limited limit items).map f := by
  cases limit with
  | none => rfl
  | some n =>
      change (items.map f).take _ = (items.take _).map f
      rw [List.map_take, List.length_map]

/-- **The answers of a store as it is read again are the answers as they are read again.** -/
theorem answer_reread (question : Query) :
    question.ordered (s.reread.answer question) = question.reread (s.answer question) := by
  cases question with
  | bankRecords goal range => exact s.bankRecords_reread goal range
  | postings goal range => exact s.postings_reread goal range
  | bankById ids =>
      change Sorting.byText BankRecord.id (s.reread.bankById ids) = _
      rw [bankById_reread]
      exact byText_reread (s.bankById ids)
  | postingsByKey keys => exact s.postingsByKey_reread keys
  | manualMatches goal => exact s.manualMatches_reread goal
  | goalIds range => exact s.goalIds_reread range
  | taggedBank filter limit => exact (congrArg (limited limit) (s.taggedBank_reread filter)).trans (limited_map ..)
  | taggedBankCount filter => exact (congrArg List.length (s.taggedBank_reread filter)).trans (List.length_map _)
  | taggedKeys filter limit => exact congrArg (limited limit) (s.taggedKeys_reread filter)
  | taggedKeyCount filter => exact congrArg List.length (s.taggedKeys_reread filter)

end Store

namespace Tables

variable {t : Tables} {s : Store}

/-! ## Writing -/

theorem Holds.putBank (h : t.Holds s) {r : BankRecord} (hr : r.FitsRow) :
    ∃ t', t.putBank .faithful r = .ok t' ∧ t'.Holds (s.putBank r.reread) := by
  refine ⟨{ t with bank := replaceOrAdd BankRow.id r.row t.bank }, ?_, { h with bank := ?_ }⟩
  · rw [Tables.putBank, BankRecord.apply_row hr.hasRow]
    change Except.ok { t with bank := replaceOrAdd BankRow.id (r.row.stored .faithful) t.bank } = _
    rw [BankRow.stored_faithful]
  · exact forall₂_replaceOrAdd (R := fun row r => BankRow.toRecord row = .ok r) (BankRecord.toRecord_row hr.hasRow)
      (fun hread => (BankRow.toRecord_ok hread).1) h.bank

theorem Holds.putPosting (h : t.Holds s) {p : Posting} (hp : p.FitsRow) :
    ∃ t' s', t.putPosting .faithful p = .ok t' ∧ s.putPosting p.reread = .ok s' ∧ t'.Holds s' := by
  obtain ⟨key, hkey⟩ := hp.keyed
  refine ⟨{ t with ledger := replaceOrAdd PostingRow.id p.row t.ledger },
    { s with ledger := replaceOrAdd Posting.id { p.reread with groupKey := some key } s.ledger }, ?_, ?_, ?_⟩
  · rw [Tables.putPosting, Posting.apply_row hp]
    change Except.ok { t with ledger := replaceOrAdd PostingRow.id (p.row.stored .faithful) t.ledger } = _
    rw [PostingRow.stored_faithful]
  · have hreread : p.reread.key = .ok key := hkey
    rw [Store.putPosting, hreread]
    rfl
  · refine { h with ledger := ?_ }
    exact forall₂_replaceOrAdd (R := fun row p => PostingRow.toPosting row = .ok p) (Posting.toPosting_row hp hkey)
      (fun hread => (PostingRow.toPosting_ok hread).1) h.ledger

end Tables

end GoalReconciliation

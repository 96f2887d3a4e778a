import GoalReconciliation.Proofs.Assoc
import GoalReconciliation.Proofs.Sorting
import GoalReconciliation.Proofs.Store.Reviewed

/-!
# Listings of a store

* `Ascending` : items in the order of their names, each name once; `Ascending.eq_of_mem_iff` : such a list is known by
  its items;
* `mem_bankRecords`, `mem_postings` : what is listed of a goal and a range;
* `mem_taggedBank`, `ascending_taggedBank`, `mem_taggedKeys`, `ascending_taggedKeys` : the listings of tagged records
  and keys are such lists;
* `TagFilter.past` : the cursor moved over some names;
* `taggedBank_past`, `taggedKeys_past` : **what a listing goes on with once the cursor is past its first items is its
  other items**;
* `Reviewed.taggedBank`, `Reviewed.taggedKeys` : new reviews of what is not behind the cursor do not change it.
-/

namespace GoalReconciliation

set_option autoImplicit false

open Store (keyOf)

/-! ## Ascending lists -/

def Ascending {α : Type} (name : α → String) (items : List α) : Prop :=
  items.Pairwise fun a b => name a < name b

namespace Ascending

variable {α : Type} {name : α → String} {items others : List α}

theorem names (h : Ascending name items) : Ascending id (items.map name) :=
  List.pairwise_map.mpr h

theorem nodup_names (h : Ascending name items) : (items.map name).Nodup :=
  h.names.imp String.ne_of_lt

theorem eq_of_mem_iff (h : Ascending name items) (h' : Ascending name others) (hmem : ∀ a, a ∈ items ↔ a ∈ others) :
    items = others := by
  have hirrefl : Std.Irrefl fun a b : α => name a < name b := ⟨fun a => String.lt_irrefl (name a)⟩
  have hantisymm : Std.Antisymm fun a b : α => name a < name b :=
    ⟨fun a b hab hba => absurd hba (String.lt_asymm hab)⟩
  exact List.Pairwise.eq_of_mem_iff h h' hmem

theorem of_byText (h : (items.map name).Nodup) : Ascending name (Sorting.byText name items) := by
  have hdistinct : (Sorting.byText name items).Pairwise fun a b => name a ≠ name b :=
    List.pairwise_map.mp (((List.mergeSort_perm items _).map name).nodup_iff.mpr h)
  refine ((Sorting.byText_sorted items).and hdistinct).imp fun {a b} ⟨hle, hne⟩ => ?_
  exact String.not_le.mp fun hge => hne (String.le_antisymm hle hge)

end Ascending

/-! ## Cursors -/

namespace TagFilter

/-- The filter with its cursor moved over some names. -/
def past (f : TagFilter) (names : List String) : TagFilter :=
  { f with after := names.foldl (fun _ name => some name) f.after }

variable {f : TagFilter} {names rest : List String}

theorem past_concat (f : TagFilter) (names : List String) (last : String) :
    f.past (names ++ [last]) = { f with after := some last } := by
  rw [past, List.foldl_append]
  rfl

theorem selects_iff {review : Review} {date : Date} :
    f.selects review date = true ↔
      review.resolved = f.resolved ∧ (∃ tag ∈ f.tags, review.tag = some tag) ∧
        DateRange.admits f.range date = true := by
  have htag : review.tag.any (f.tags.contains ·) = true ↔ ∃ tag ∈ f.tags, review.tag = some tag := by
    cases review.tag <;> simp
  unfold selects
  rw [Bool.and_eq_true, Bool.and_eq_true, htag, beq_iff_eq, and_assoc]
  exact and_left_comm

theorem isBehind_passed (hasc : Ascending id names) {name : String} (h : name ∈ names) :
    (f.past names).isBehind name = false := by
  obtain rfl | ⟨init, last, rfl⟩ := List.eq_nil_or_concat' names
  · cases h
  · rw [past_concat]
    refine decide_eq_false ?_
    rcases List.mem_append.mp h with h | h
    · exact String.lt_asymm ((List.pairwise_append.mp hasc).2.2 name h last (List.mem_singleton_self last))
    · exact List.mem_singleton.mp h ▸ String.lt_irrefl last

theorem isBehind_rest (hasc : Ascending id (names ++ rest)) (hbehind : ∀ name ∈ rest, f.isBehind name = true)
    {name : String} (h : name ∈ rest) : (f.past names).isBehind name = true := by
  obtain rfl | ⟨init, last, rfl⟩ := List.eq_nil_or_concat' names
  · exact hbehind name h
  · rw [past_concat]
    exact decide_eq_true ((List.pairwise_append.mp hasc).2.2 last List.mem_concat_self name h)

theorem isBehind_past (hbehind : ∀ name ∈ names, f.isBehind name = true) {name : String}
    (h : (f.past names).isBehind name = true) : f.isBehind name = true := by
  obtain rfl | ⟨init, last, rfl⟩ := List.eq_nil_or_concat' names
  · exact h
  · rw [past_concat] at h
    have hlast := hbehind last List.mem_concat_self
    unfold isBehind at h hlast ⊢
    cases hafter : f.after with
    | none => rfl
    | some cursor =>
        rw [hafter] at hlast
        exact decide_eq_true (String.lt_trans (of_decide_eq_true hlast) (of_decide_eq_true h))

/-- Of all that is listed behind a cursor, what is behind it once it is past the first items: the other items. -/
theorem mem_past {α : Type} {name : α → String} {listed : α → Prop} {xs ys : List α}
    (hasc : Ascending name (xs ++ ys)) (hmem : ∀ x, x ∈ xs ++ ys ↔ listed x ∧ f.isBehind (name x) = true) (x : α) :
    listed x ∧ (f.past (xs.map name)).isBehind (name x) = true ↔ x ∈ ys := by
  have hnames := hasc.names
  rw [List.map_append] at hnames
  have hbehind : ∀ n ∈ xs.map name ++ ys.map name, f.isBehind n = true := by
    intro n hn
    rw [← List.map_append] at hn
    obtain ⟨x, hx, rfl⟩ := List.mem_map.mp hn
    exact ((hmem x).mp hx).2
  constructor
  · rintro ⟨hlisted, hpast⟩
    have hfirst : f.isBehind (name x) = true :=
      isBehind_past (fun n hn => hbehind n (List.mem_append_left _ hn)) hpast
    refine (List.mem_append.mp ((hmem x).mpr ⟨hlisted, hfirst⟩)).resolve_left fun hx => ?_
    have hpassed := isBehind_passed (f := f) (List.pairwise_append.mp hnames).1 (List.mem_map_of_mem hx)
    exact Bool.false_ne_true (hpassed.symm.trans hpast)
  · intro hx
    refine ⟨((hmem x).mp (List.mem_append_right xs hx)).1, isBehind_rest hnames ?_ (List.mem_map_of_mem hx)⟩
    exact fun n hn => hbehind n (List.mem_append_right _ hn)

end TagFilter

/-! ## The listings -/

namespace Store

variable {s s' : Store} {f : TagFilter}

theorem limited_eq_take {α : Type} {n : Int} (hn : 0 ≤ n) (items : List α) :
    limited (some n) items = items.take n.toNat := by
  have hposition : Slice.position items.length n = min items.length n.toNat := by
    rw [Slice.position, if_neg (by omega)]
  rw [limited, Slice.upTo, hposition, Nat.min_comm, ← List.take_eq_take_min]

theorem limited_sublist {α : Type} (limit : Option Int) (items : List α) :
    (limited limit items).Sublist items := by
  cases limit with
  | none => exact List.Sublist.refl _
  | some n => exact List.take_sublist _ _

theorem mem_bankRecords {goal : Option String} {range : Option DateRange} {r : BankRecord} :
    r ∈ s.bankRecords goal range ↔ r ∈ s.bank ∧ isGoal goal r.goalId = true ∧ DateRange.admits range r.date = true := by
  rw [bankRecords, Sorting.newestFirst, List.mem_mergeSort, List.mem_filter, Bool.and_eq_true]

theorem mem_postings {goal : Option String} {range : Option DateRange} {p : Posting} :
    p ∈ s.postings goal range ↔ p ∈ s.ledger ∧ isGoal goal p.goalId = true ∧ DateRange.admits range p.date = true := by
  rw [postings, Sorting.newestFirst, List.mem_mergeSort, List.mem_filter, Bool.and_eq_true]

theorem mem_postingsByKeys {keys : List String} {p : Posting} :
    p ∈ s.postingsByKey keys ↔ p ∈ s.ledger ∧ keyOf p ∈ keys := by
  rw [postingsByKey, Sorting.newestFirst, List.mem_mergeSort, List.mem_filter, List.contains_iff_mem]

theorem mem_postingsByKey {key : String} {p : Posting} :
    p ∈ s.postingsByKey [key] ↔ p ∈ s.ledger ∧ keyOf p = key := by
  rw [mem_postingsByKeys, List.mem_singleton]

theorem nodup_postingsByKey (hs : s.Sound) (keys : List String) :
    ((s.postingsByKey keys).map Posting.id).Nodup :=
  ((List.mergeSort_perm _ _).map Posting.id).nodup_iff.mpr (hs.ledger_once.sublist (List.filter_sublist.map _))

theorem mem_taggedBank {r : BankRecord} :
    r ∈ s.taggedBank f ↔ (r ∈ s.bank ∧ f.selects r.review r.date = true) ∧ f.isBehind r.id = true := by
  rw [taggedBank, Sorting.byText, List.mem_mergeSort, List.mem_filter, Bool.and_eq_true, and_assoc]

theorem ascending_taggedBank (hs : s.Sound) (f : TagFilter) : Ascending BankRecord.id (s.taggedBank f) :=
  Ascending.of_byText (hs.bank_once.sublist (List.filter_sublist.map _))

theorem mem_taggedKeys {key : String} :
    key ∈ s.taggedKeys f ↔
      (∃ p ∈ s.ledger, f.selects p.review p.date = true ∧ keyOf p = key) ∧ f.isBehind key = true := by
  rw [taggedKeys, Sorting.ascending, Sorting.byText, List.mem_mergeSort, List.mem_filter, Assoc.mem_distinct,
    List.mem_map]
  simp only [List.mem_filter, and_assoc]

theorem ascending_taggedKeys (s : Store) (f : TagFilter) : Ascending id (s.taggedKeys f) := by
  refine Ascending.of_byText ?_
  rw [List.map_id]
  exact (Assoc.nodup_distinct _).filter _

theorem taggedBank_past (hs : s.Sound) {xs ys : List BankRecord} (h : s.taggedBank f = xs ++ ys) :
    s.taggedBank (f.past (xs.map BankRecord.id)) = ys := by
  have hasc := ascending_taggedBank hs f
  rw [h] at hasc
  refine (ascending_taggedBank hs _).eq_of_mem_iff (hasc.sublist (List.sublist_append_right xs ys)) fun r => ?_
  exact mem_taggedBank.trans (TagFilter.mem_past hasc (fun r => h ▸ mem_taggedBank) r)

theorem taggedKeys_past {xs ys : List String} (h : s.taggedKeys f = xs ++ ys) : s.taggedKeys (f.past xs) = ys := by
  have hasc := ascending_taggedKeys s f
  rw [h] at hasc
  refine (ascending_taggedKeys s _).eq_of_mem_iff (hasc.sublist (List.sublist_append_right xs ys)) fun key => ?_
  have hpast := TagFilter.mem_past (f := f) hasc (fun key => h ▸ mem_taggedKeys) key
  rw [List.map_id] at hpast
  exact mem_taggedKeys.trans hpast

end Store

/-! ## New reviews -/

namespace Reviewed

variable {keepRecord keepKey : String → Bool} {s s' : Store} {f : TagFilter}

theorem taggedBank (h : Reviewed f.isBehind keepKey s s') : s'.taggedBank f = s.taggedBank f := by
  have hfilter : s'.bank.filter (fun r => f.selects r.review r.date && f.isBehind r.id) =
      s.bank.filter fun r => f.selects r.review r.date && f.isBehind r.id := by
    rw [← List.filter_filter, ← List.filter_filter, h.bank]
  rw [Store.taggedBank, hfilter, Store.taggedBank]

theorem taggedKeys (h : Reviewed keepRecord f.isBehind s s') : s'.taggedKeys f = s.taggedKeys f := by
  have hmem : ∀ p, f.isBehind (keyOf p) = true → (p ∈ s'.ledger ↔ p ∈ s.ledger) := by
    intro p hp
    have hiff : p ∈ s'.ledger.filter (fun p => f.isBehind (keyOf p)) ↔
        p ∈ s.ledger.filter fun p => f.isBehind (keyOf p) := by rw [h.ledger]
    simpa [List.mem_filter, hp] using hiff
  refine (Store.ascending_taggedKeys s' f).eq_of_mem_iff (Store.ascending_taggedKeys s f) fun key => ?_
  rw [Store.mem_taggedKeys, Store.mem_taggedKeys]
  constructor
  · rintro ⟨⟨p, hp, hselects, rfl⟩, hbehind⟩
    exact ⟨⟨p, (hmem p hbehind).mp hp, hselects, rfl⟩, hbehind⟩
  · rintro ⟨⟨p, hp, hselects, rfl⟩, hbehind⟩
    exact ⟨⟨p, (hmem p hbehind).mpr hp, hselects, rfl⟩, hbehind⟩

end Reviewed

end GoalReconciliation

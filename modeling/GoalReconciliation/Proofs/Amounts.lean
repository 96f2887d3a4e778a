import GoalReconciliation.Amounts
import GoalReconciliation.Proofs.Assoc
import GoalReconciliation.Proofs.Decimal.Exact

/-!
# Amounts under instrument codes

* `GivenAmounts.Plain` : finite amounts of instruments, each of them once; `filter_listed`, `get?_listed` : words
  compare as they are;
* `GivenAmounts.reread` : the amounts in the order of the columns of a row; `get?_reread`, `filter_reread` : the amount
  of each instrument stays as it was;
* `Amounts.total_cases` : the sum of each code, or a code that has none;
* `Amounts.total_alike` : **the sums do not depend on the order of the codes**.
-/

namespace GoalReconciliation

set_option autoImplicit false

open Fallible (Alike)

theorem Instrument.mem_all (code : Instrument) : code ∈ all := by
  cases code <;> decide

namespace Amounts

/-- Sums per instrument that agree for each instrument, in whichever order they came about. -/
def Same (a b : Amounts) : Prop :=
  ∀ code, a.amount code = b.amount code

end Amounts

namespace GivenAmounts

/-- Finite amounts of instruments that are given as words, each of them once. -/
structure Plain (amounts : GivenAmounts) : Prop where
  words : ∀ entry ∈ amounts, ∃ code, entry.1 = .word code
  once : (amounts.map Prod.fst).Nodup
  finite : ∀ entry ∈ amounts, entry.2.isFinite = true

variable {amounts : GivenAmounts}

/-! ## As they compare -/

theorem mem_listed {entry : Listed Instrument × Decimal} :
    entry ∈ amounts.listed ↔ ∃ given ∈ amounts, (given.1.listed, given.2) = entry :=
  List.mem_map

theorem Plain.known (h : amounts.Plain) {entry : Listed Instrument × Decimal} (hentry : entry ∈ amounts.listed) :
    (∃ code, entry.1 = .known code) ∧ entry.2.isFinite = true := by
  obtain ⟨given, hgiven, rfl⟩ := mem_listed.mp hentry
  obtain ⟨code, hcode⟩ := h.words given hgiven
  refine ⟨⟨code, ?_⟩, h.finite given hgiven⟩
  simp only [hcode]
  rfl

/-- Words compare as they are. -/
theorem filter_listed (hwords : ∀ entry ∈ amounts, ∃ code, entry.1 = .word code) (code : Instrument) :
    amounts.listed.filter (fun entry => decide (entry.1 = .known code)) =
      listed (amounts.filter fun entry => decide (entry.1 = .word code)) := by
  refine List.filter_map.trans (congrArg listed (List.filter_congr fun entry hentry => ?_))
  obtain ⟨word, hword⟩ := hwords entry hentry
  simp [hword, Given.listed]

theorem filter_listed_unknown (hwords : ∀ entry ∈ amounts, ∃ code, entry.1 = .word code) {text : String}
    (hother : Word.ofName? (α := Instrument) text = none) :
    amounts.listed.filter (fun entry => decide (entry.1 = .unknown text hother)) = [] := by
  refine List.filter_eq_nil_iff.mpr fun entry hentry => ?_
  obtain ⟨given, hgiven, rfl⟩ := mem_listed.mp hentry
  obtain ⟨word, hword⟩ := hwords given hgiven
  simp [hword, Given.listed]

theorem get?_listed (hwords : ∀ entry ∈ amounts, ∃ code, entry.1 = .word code) (code : Instrument) :
    Assoc.get? (.known code) amounts.listed = Assoc.get? (.word code) amounts := by
  have hfilter := congrArg (fun entries => entries.head?.map Prod.snd) (filter_listed hwords code)
  simp only [List.head?_filter, listed, List.head?_map, Option.map_map] at hfilter
  exact hfilter

/-! ## In the order of the columns -/

/-- The amounts of the instruments, in the order of the columns of a row. -/
def reread (amounts : GivenAmounts) : GivenAmounts :=
  (Instrument.all.map Given.word).filterMap fun code =>
    (Assoc.get? code amounts).map fun amount => (code, amount)

theorem mem_reread {entry : Given Instrument × Decimal} (h : entry ∈ amounts.reread) :
    entry ∈ amounts ∧ ∃ code, entry.1 = .word code := by
  obtain ⟨code, hcode, hentry⟩ := List.mem_filterMap.mp h
  obtain ⟨amount, hamount, rfl⟩ := Option.map_eq_some_iff.mp hentry
  obtain ⟨pair, hpair, rfl⟩ := Option.map_eq_some_iff.mp hamount
  obtain ⟨word, -, rfl⟩ := List.mem_map.mp hcode
  have hkey : pair.1 = .word word := by simpa using List.find?_some hpair
  exact ⟨hkey ▸ List.mem_of_find?_eq_some hpair, word, rfl⟩

theorem get?_reread (amounts : GivenAmounts) (code : Instrument) :
    Assoc.get? (.word code) amounts.reread = Assoc.get? (.word code) amounts := by
  have hall : Given.word code ∈ Instrument.all.map Given.word := List.mem_map_of_mem code.mem_all
  rw [reread, Assoc.get?_chosen, if_pos hall]

theorem reread_reread (amounts : GivenAmounts) : amounts.reread.reread = amounts.reread := by
  refine List.filterMap_congr fun code hcode => ?_
  obtain ⟨word, -, rfl⟩ := List.mem_map.mp hcode
  rw [get?_reread]

theorem plain_reread (h : amounts.Plain) : amounts.reread.Plain where
  words entry hentry := (mem_reread hentry).2
  once := List.Nodup.sublist (Assoc.chosen_keys _ _) (by decide)
  finite entry hentry := h.finite entry (mem_reread hentry).1

theorem get?_text (hwords : ∀ entry ∈ amounts, ∃ code, entry.1 = .word code) (text : String) :
    Assoc.get? (.text text) amounts = none := by
  refine congrArg (Option.map Prod.snd) (List.find?_eq_none.mpr fun entry hentry hcode => ?_)
  obtain ⟨code, hword⟩ := hwords entry hentry
  simp [hword] at hcode

theorem get?_reread_of_words (hwords : ∀ entry ∈ amounts, ∃ code, entry.1 = .word code) (code : Given Instrument) :
    Assoc.get? code amounts.reread = Assoc.get? code amounts := by
  cases code with
  | word code => exact get?_reread amounts code
  | text text => exact (get?_text (fun _ hentry => (mem_reread hentry).2) text).trans (get?_text hwords text).symm

theorem filter_reread (h : amounts.Plain) (code : Listed Instrument) :
    amounts.reread.listed.filter (fun entry => decide (entry.1 = code)) =
      amounts.listed.filter fun entry => decide (entry.1 = code) := by
  have hreread := plain_reread h
  cases code with
  | known code =>
      rw [filter_listed hreread.words, filter_listed h.words, Assoc.filter_key hreread.once, Assoc.filter_key h.once,
        get?_reread]
  | unknown text hother => rw [filter_listed_unknown hreread.words, filter_listed_unknown h.words]

end GivenAmounts

namespace Amounts

/-! ## Sums -/

def under (code : Listed Instrument) (entries : Amounts) : List Decimal :=
  (entries.filter fun entry => decide (entry.1 = code)).map Prod.snd

theorem under_concat_self (entries : Amounts) (code : Listed Instrument) (amount : Decimal) :
    under code (entries ++ [(code, amount)]) = under code entries ++ [amount] := by
  simp [under]

theorem under_concat_ne (entries : Amounts) {code other : Listed Instrument} (h : other ≠ code) (amount : Decimal) :
    under code (entries ++ [(other, amount)]) = under code entries := by
  simp [under, h]

theorem sum_concat (amounts : List Decimal) (d : Decimal) :
    Decimal.sum (amounts ++ [d]) = Decimal.sum amounts >>= fun total => total.add d := by
  rw [Decimal.sum, List.foldlM_append]
  exact bind_congr fun total => by simp

/-- The sum of each code, or a code that has none. -/
theorem total_cases (all : List Amounts) :
    (∃ totals, total all = .ok totals ∧
      ∀ code, Decimal.sum (under code all.flatten) = .ok ((Assoc.get? code totals).getD Decimal.zero)) ∨
    ∃ fault code, total all = .error fault ∧ Decimal.sum (under code all.flatten) = .error fault := by
  unfold total
  generalize all.flatten = entries
  induction entries using List.reverseRecOn with
  | nil => exact .inl ⟨[], rfl, fun _ => rfl⟩
  | append_singleton entries entry ih =>
      obtain ⟨code, amount⟩ := entry
      rw [List.foldlM_append]
      obtain ⟨totals, htotals, hsums⟩ | ⟨fault, other, htotals, hfault⟩ := ih
      · have hnext : Decimal.sum (under code (entries ++ [(code, amount)])) =
            ((Assoc.get? code totals).getD Decimal.zero).add amount := by
          rw [under_concat_self, sum_concat, hsums]
          rfl
        rw [htotals]
        change (∃ totals', (addTo totals code amount >>= pure) = _ ∧ _) ∨
          ∃ fault other, (addTo totals code amount >>= pure) = _ ∧ _
        unfold addTo
        cases hadd : ((Assoc.get? code totals).getD Decimal.zero).add amount with
        | error fault => exact .inr ⟨fault, code, rfl, hnext.trans hadd⟩
        | ok next =>
            refine .inl ⟨Assoc.put code next totals, rfl, fun other => ?_⟩
            by_cases hsame : code = other
            · subst hsame
              rw [hnext, hadd, Assoc.get?_put, if_pos rfl]
              rfl
            · rw [under_concat_ne _ hsame, hsums, Assoc.get?_put, if_neg hsame]
      · refine .inr ⟨fault, other, by rw [htotals]; rfl, ?_⟩
        by_cases hsame : code = other
        · subst hsame
          rw [under_concat_self, sum_concat, hfault]
          rfl
        · rw [under_concat_ne _ hsame, hfault]

/-- Sums of finite numbers fail in one way. -/
theorem overflow_of_under {entries : Amounts} (hfinite : ∀ entry ∈ entries, entry.2.isFinite = true)
    {code : Listed Instrument} {fault : Decimal.Fault} (h : Decimal.sum (under code entries) = .error fault) :
    fault = .overflow := by
  refine Decimal.sum_fault (fun d hd => ?_) h
  obtain ⟨entry, hentry, rfl⟩ := List.mem_map.mp hd
  exact hfinite entry (List.mem_filter.mp hentry).1

/-- **The sums of finite amounts do not depend on the order of the codes.** -/
theorem total_alike {all others : List Amounts} (hsame : ∀ code, under code all.flatten = under code others.flatten)
    (hfinite : ∀ entry ∈ all.flatten, entry.2.isFinite = true) : Alike Same (total all) (total others) := by
  obtain ⟨totals, htotals, hsums⟩ | ⟨fault, code, htotals, hfault⟩ := total_cases all
  · obtain ⟨totals', htotals', hsums'⟩ | ⟨fault', code', -, hfault'⟩ := total_cases others
    · rw [htotals, htotals']
      refine .ok fun code => ?_
      have hsum := hsums (.known code)
      rw [hsame, hsums'] at hsum
      exact (Except.ok.inj hsum).symm
    · rw [← hsame, hsums] at hfault'
      cases hfault'
  · obtain ⟨totals', -, hsums'⟩ | ⟨fault', code', htotals', hfault'⟩ := total_cases others
    · rw [hsame, hsums'] at hfault
      cases hfault
    · rw [← hsame] at hfault'
      obtain rfl := overflow_of_under hfinite hfault
      obtain rfl := overflow_of_under hfinite hfault'
      rw [htotals, htotals']
      exact .error _

end Amounts

end GoalReconciliation

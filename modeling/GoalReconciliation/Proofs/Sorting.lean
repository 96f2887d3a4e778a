import GoalReconciliation.Sorting
import Mathlib.Data.List.Sort

/-!
# Listings in their order

* `Date.ordinal_lt_iff`, `Date.ordinal_injective` : days are in order by year, month and day, and a day is known by its
  number;
* `Sorting.byText_sorted`, `Sorting.newestFirst_sorted` : a listing by a text has its texts in order; the other one puts
  the newer day first, and on one day the smaller text;
* `Sorting.mergeSort_filter_map` : items that are changed keep their choice and their order;
* `Sorting.mergeSort_stable` : items that a sorting does not tell apart keep their order.
-/

namespace GoalReconciliation

set_option autoImplicit false

/-! ## Days -/

namespace Calendar

def yearLength (year : Nat) : Nat :=
  if isLeap year then 366 else 365

theorem daysBeforeYear_succ {year : Nat} (hyear : 1 ≤ year) :
    daysBeforeYear (year + 1) = daysBeforeYear year + yearLength year := by
  obtain ⟨past, rfl⟩ : ∃ past, year = past + 1 := ⟨year - 1, by omega⟩
  have hdivided : ∀ n, 0 < n → (past + 1) / n = past / n + if (past + 1) % n = 0 then 1 else 0 := by
    intro n hn
    rw [Nat.succ_div]
    simp only [Nat.dvd_iff_mod_eq_zero]
  have hfour := hdivided 4 (by omega)
  have hcentury := hdivided 100 (by omega)
  have hcycle := hdivided 400 (by omega)
  have hless : past / 100 ≤ past := Nat.div_le_self _ _
  have hnested : (past + 1) % 400 = 0 → (past + 1) % 100 = 0 := fun h => by omega
  have hnested' : (past + 1) % 100 = 0 → (past + 1) % 4 = 0 := fun h => by omega
  simp only [daysBeforeYear, yearLength, isLeap, Nat.add_sub_cancel, hfour, hcentury, hcycle, Bool.and_eq_true,
    Bool.or_eq_true, beq_iff_eq, bne_iff_ne]
  generalize past / 4 = fours at *
  generalize past / 100 = centuries at *
  generalize past / 400 = cycles at *
  split_ifs <;> grind

theorem daysBeforeYear_mono {a b : Nat} (h : a ≤ b) : daysBeforeYear a ≤ daysBeforeYear b := by
  refine monotone_nat_of_le_succ (fun year => ?_) h
  rcases Nat.eq_zero_or_pos year with rfl | hyear
  · exact Nat.le_refl _
  · rw [daysBeforeYear_succ hyear]
    exact Nat.le_add_right _ _

theorem daysBeforeMonth_mono (year : Nat) {a b : Nat} (h : a ≤ b) :
    daysBeforeMonth year a ≤ daysBeforeMonth year b := by
  induction h with
  | refl => exact Nat.le_refl _
  | step _ ih => exact ih.trans (Nat.le_add_right _ _)

theorem daysBeforeMonth_thirteen (year : Nat) : daysBeforeMonth year 13 = yearLength year := by
  unfold yearLength
  cases hleap : isLeap year <;> simp [daysBeforeMonth, monthLength, hleap]

theorem month_le {year month : Nat} (h : 1 ≤ monthLength year month) : month ≤ 12 := by
  by_contra hgt
  have hzero : monthLength year month = 0 := by
    unfold monthLength
    split <;> omega
  omega

end Calendar

namespace Date

open Calendar

theorem day_le (d : Date) : daysBeforeMonth d.year d.month + d.day ≤ daysBeforeMonth d.year (d.month + 1) :=
  Nat.add_le_add_left d.isDay.2.2.2 _

theorem ordinal_bounds (d : Date) : daysBeforeYear d.year < d.ordinal ∧ d.ordinal ≤ daysBeforeYear (d.year + 1) := by
  obtain ⟨hyear, -, hday, hlength⟩ := d.isDay
  have hmonth := month_le (hday.trans hlength)
  have hlast := d.day_le.trans (daysBeforeMonth_mono d.year (show d.month + 1 ≤ 13 by omega))
  rw [daysBeforeMonth_thirteen] at hlast
  rw [daysBeforeYear_succ hyear, ordinal]
  omega

theorem ordinal_lt_of_year {a b : Date} (h : a.year < b.year) : a.ordinal < b.ordinal :=
  (a.ordinal_bounds.2.trans (daysBeforeYear_mono h)).trans_lt b.ordinal_bounds.1

theorem ordinal_lt_of_month {a b : Date} (hyear : a.year = b.year) (h : a.month < b.month) : a.ordinal < b.ordinal := by
  have hmono := a.day_le.trans (daysBeforeMonth_mono a.year h)
  have hpos := b.isDay.2.2.1
  unfold ordinal
  rw [← hyear]
  omega

/-- Days are in order by year, then by month, then by day. -/
theorem ordinal_lt_iff {a b : Date} : a.ordinal < b.ordinal ↔
    a.year < b.year ∨ a.year = b.year ∧ (a.month < b.month ∨ a.month = b.month ∧ a.day < b.day) := by
  rcases Nat.lt_trichotomy a.year b.year with hlt | hyear | hgt
  · simp [hlt, ordinal_lt_of_year hlt]
  · rcases Nat.lt_trichotomy a.month b.month with hlt | hmonth | hgt
    · simp [hyear, hlt, ordinal_lt_of_month hyear hlt]
    · simp [ordinal, hyear, hmonth]
    · have hlater := ordinal_lt_of_month hyear.symm hgt
      refine iff_of_false hlater.asymm ?_
      omega
  · refine iff_of_false (ordinal_lt_of_year hgt).asymm ?_
    omega

/-- A day is known by its number. -/
theorem ordinal_injective {a b : Date} (h : a.ordinal = b.ordinal) : a = b := by
  have hnot := mt ordinal_lt_iff.mpr h.not_lt
  have hnot' := mt ordinal_lt_iff.mpr h.not_gt
  have hyear : a.year = b.year := by omega
  have hmonth : a.month = b.month := by omega
  have hday : a.day = b.day := by omega
  cases a
  cases b
  congr

end Date

/-! ## Listings -/

namespace Sorting

variable {α : Type} {date : α → Date} {key : α → String}

theorem mergeSort_filter_map {f : α → α} {keep : α → Bool} {le : α → α → Bool}
    (hkeep : ∀ a, keep (f a) = keep a) (hle : ∀ a b, le (f a) (f b) = le a b) (items : List α) :
    ((items.map f).filter keep).mergeSort le = ((items.filter keep).mergeSort le).map f := by
  have hchosen : (items.map f).filter keep = (items.filter keep).map f := by
    rw [List.filter_map]
    exact congrArg _ (List.filter_congr fun a _ => hkeep a)
  rw [hchosen]
  exact (List.map_mergeSort fun a _ b _ => (hle a b).symm).symm

/-- Items that are put in order keep the order that they have where they may stand either way. -/
theorem mergeSort_stable {R : α → α → Prop} {le : α → α → Bool}
    (trans : ∀ a b c, le a b = true → le b c = true → le a c = true) (total : ∀ a b, (le a b || le b a) = true)
    {items : List α} (h : items.Pairwise R) :
    (items.mergeSort le).Pairwise fun a b => le a b = true ∧ (le b a = true → R a b) := by
  have hsorted := List.pairwise_mergeSort (List.zipIdxLE_trans trans) (List.zipIdxLE_total total) items.zipIdx
  have hperm := List.mergeSort_perm items.zipIdx (List.zipIdxLE le)
  have hplaces : (items.zipIdx.mergeSort (List.zipIdxLE le)).Pairwise fun a b => a.2 ≠ b.2 := by
    rw [← List.pairwise_map]
    refine (hperm.map Prod.snd).nodup_iff.mpr ?_
    rw [List.zipIdx_map_snd]
    exact List.nodup_range'
  rw [← List.mergeSort_zipIdx, List.pairwise_map]
  refine (hsorted.and hplaces).imp_of_mem fun {a b} ha hb ⟨hle, hne⟩ => ?_
  -- Each item stands with its place in the list.
  have hplace : ∀ {p : α × Nat}, p ∈ items.zipIdx.mergeSort (List.zipIdxLE le) →
      ∃ hi : p.2 < items.length, items[p.2] = p.1 := by
    intro p hp
    exact List.getElem?_eq_some_iff.mp (List.mk_mem_zipIdx_iff_getElem?.mp (hperm.mem_iff.mp hp))
  obtain ⟨hi, hia⟩ := hplace ha
  obtain ⟨hj, hjb⟩ := hplace hb
  unfold List.zipIdxLE at hle
  split at hle
  · rename_i hab
    refine ⟨hab, fun hba => ?_⟩
    rw [if_pos hba] at hle
    have hlt : a.2 < b.2 := lt_of_le_of_ne (of_decide_eq_true hle) hne
    rw [← hia, ← hjb]
    exact List.pairwise_iff_getElem.mp h _ _ hi hj hlt
  · cases hle

theorem atMost_iff {a b : String} : atMost a b = true ↔ a ≤ b := by
  rw [atMost, Bool.not_eq_true', decide_eq_false_iff_not]
  exact String.not_lt

theorem byText_sorted (items : List α) : (byText key items).Pairwise fun a b => key a ≤ key b := by
  have hsorted : (byText key items).Pairwise fun a b => atMost (key a) (key b) = true := by
    refine List.pairwise_mergeSort (fun a b c hab hbc => ?_) (fun a b => ?_) items
    · rw [atMost_iff] at *
      exact String.le_trans hab hbc
    · rw [Bool.or_eq_true, atMost_iff, atMost_iff]
      exact String.le_total _ _
  exact hsorted.imp atMost_iff.mp

theorem isBefore_iff {a b : α} :
    isBefore date key a b = true ↔ (date b).ordinal < (date a).ordinal ∨ date a = date b ∧ key a ≤ key b := by
  unfold isBefore
  split
  · rename_i hsame
    rw [hsame, atMost_iff]
    simp
  · rename_i hne
    have hlt : (date b).ordinal ≤ (date a).ordinal ↔ (date b).ordinal < (date a).ordinal :=
      ⟨fun hle => lt_of_le_of_ne hle fun e => hne (Date.ordinal_injective e).symm, Nat.le_of_lt⟩
    rw [decide_eq_true_iff]
    change (date b).ordinal ≤ (date a).ordinal ↔ _
    simp [hlt, hne]

/-- A listing puts the newer day first, and on one day the smaller text. -/
theorem newestFirst_sorted (items : List α) :
    (newestFirst date key items).Pairwise fun a b =>
      (date b).ordinal < (date a).ordinal ∨ date a = date b ∧ key a ≤ key b := by
  have hsorted : (newestFirst date key items).Pairwise fun a b => isBefore date key a b = true := by
    refine List.pairwise_mergeSort (fun a b c hab hbc => ?_) (fun a b => ?_) items
    · rw [isBefore_iff] at *
      rcases hab with hab | ⟨hsame, hab⟩
      · rcases hbc with hbc | ⟨hsame', -⟩
        · exact .inl (hbc.trans hab)
        · exact .inl (hsame' ▸ hab)
      · rcases hbc with hbc | ⟨hsame', hbc⟩
        · exact .inl (hsame ▸ hbc)
        · exact .inr ⟨hsame.trans hsame', String.le_trans hab hbc⟩
    · rw [Bool.or_eq_true, isBefore_iff, isBefore_iff]
      rcases Nat.lt_trichotomy (date a).ordinal (date b).ordinal with hlt | heq | hgt
      · exact .inr (.inl hlt)
      · have hsame := Date.ordinal_injective heq
        exact (String.le_total (key a) (key b)).imp (fun h => .inr ⟨hsame, h⟩) fun h => .inr ⟨hsame.symm, h⟩
      · exact .inl (.inl hgt)
  exact hsorted.imp isBefore_iff.mp

end Sorting

end GoalReconciliation

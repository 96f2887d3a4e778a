import GoalReconciliation.Proofs.Decimal.Quotient
import Mathlib.Algebra.Order.BigOperators.Group.Multiset

/-!
# Amounts in cents

Amounts of two places that together stay below `10 ^ 16`, and shares of six places. Sums, distances and shares of such
amounts are exact. A ratio of two of them is not, but it is rounded to the side of a share that it is on, as it is
further from the share than the last digit.

* `InCents` : a number of cents below `10 ^ 16`; `Cents` : amounts that together make one; `Cents.exactSums`,
  `Cents.total_inCents` : they are summed up exactly; `cents_of_units` : amounts written with two places;
* `Share` : a share of at most the whole, with six places;
* `fits_places` : a number with few places and digits fits; `InCents.sub_fits`, `InCents.share_fits` : distances and
  shares;
* `Rounded.le_iff` : a limit that is not next to the exact number;
* `ratio_rounded` : a ratio of two amounts, and its percentage, are given;
* `ratio_le_iff` : **a rounded ratio is within a share just where the exact one is**.
-/

namespace GoalReconciliation.Decimal

set_option autoImplicit false

/-- A number of cents below `10 ^ 16`. -/
def InCents (q : ℚ) : Prop :=
  ∃ k : ℤ, q = k / 10 ^ 2 ∧ k.natAbs < 10 ^ 18

/-- Amounts of two places whose sizes add up to less than `10 ^ 16`. -/
structure Cents (amounts : List Decimal) : Prop where
  whole : ∀ d ∈ amounts, ∃ k : ℤ, d.Worth (k / 10 ^ 2)
  small : (amounts.map fun d => |d.value|).sum < 10 ^ 16

def Share (d : Decimal) : Prop :=
  ∃ j : ℕ, j ≤ 10 ^ 6 ∧ d.Worth (j / 10 ^ 6)

theorem div_ten_pow (k : ℤ) (places : ℕ) : (k : ℚ) / 10 ^ places = k * 10 ^ (-places : ℤ) := by
  rw [zpow_neg, zpow_natCast, div_eq_mul_inv]

theorem fits_places {k : ℤ} {places : ℕ} (hplaces : places ≤ 28) (hk : k.natAbs < 10 ^ precision) :
    Fits (k / 10 ^ places) := by
  have hmin : minExponent ≤ -28 := by decide
  have hmax : 0 ≤ maxExponent := by decide
  rw [div_ten_pow]
  exact fits_units (by omega) (by omega) hk

theorem fits_places_nat {n places : ℕ} (hplaces : places ≤ 28) (hn : n < 10 ^ precision) :
    Fits ((n : ℚ) / 10 ^ places) :=
  fits_places hplaces (k := n) hn

theorem abs_cents (k : ℤ) : |(k : ℚ) / 10 ^ 2| = (k.natAbs : ℚ) / 10 ^ 2 := by
  rw [abs_div, abs_of_pos (by norm_num : (0 : ℚ) < 10 ^ 2), ← Int.cast_abs, Int.abs_eq_natAbs, Int.cast_natCast]

/-! ## Sums -/

section Sums

variable {amounts : List Decimal}

theorem abs_total_le (amounts : List Decimal) : |total amounts| ≤ (amounts.map fun d => |d.value|).sum := by
  have hsum := Multiset.abs_sum_le_sum_abs (s := (amounts.map value : Multiset ℚ))
  rw [Multiset.map_coe, Multiset.sum_coe, Multiset.sum_coe, List.map_map] at hsum
  exact hsum

theorem total_whole (h : ∀ d ∈ amounts, ∃ k : ℤ, d.Worth (k / 10 ^ 2)) : ∃ k : ℤ, total amounts = k / 10 ^ 2 := by
  induction amounts with
  | nil => exact ⟨0, by simp⟩
  | cons d amounts ih =>
      obtain ⟨⟨j, hj⟩, hrest⟩ := List.forall_mem_cons.mp h
      obtain ⟨k, hk⟩ := ih hrest
      exact ⟨j + k, by rw [total_cons, hj.2, hk, Int.cast_add, add_div]⟩

theorem Cents.sublist {chosen : List Decimal} (h : Cents amounts) (hchosen : chosen.Sublist amounts) :
    Cents chosen where
  whole d hd := h.whole d (hchosen.subset hd)
  small := ((hchosen.map _).sum_le_sum fun q hq => by
    obtain ⟨d, -, rfl⟩ := List.mem_map.mp hq
    exact abs_nonneg _).trans_lt h.small

theorem Cents.total_inCents (h : Cents amounts) : InCents (total amounts) := by
  obtain ⟨k, hk⟩ := total_whole h.whole
  refine ⟨k, hk, ?_⟩
  have hsmall := (abs_total_le amounts).trans_lt h.small
  rw [hk, abs_cents, div_lt_iff₀ (by norm_num)] at hsmall
  have hdigits : ((k.natAbs : ℕ) : ℚ) < (10 ^ 18 : ℕ) := by
    refine hsmall.trans_le ?_
    norm_num
  exact_mod_cast hdigits

theorem Cents.exactSums (h : Cents amounts) : ExactSums amounts where
  finite d hd := by
    obtain ⟨k, hk⟩ := h.whole d hd
    exact hk.1
  fits chosen hchosen := by
    obtain ⟨k, hk, hdigits⟩ := (h.sublist hchosen).total_inCents
    rw [hk]
    exact fits_places (by omega) (hdigits.trans (by decide))

/-- Amounts that are written with two places, and their sizes in cents. -/
theorem sum_abs_le_units (h : ∀ d ∈ amounts, d.onGrid (-2) = true) :
    (amounts.map fun d => |d.value|).sum ≤ ((amounts.map (units (-2))).sum : ℕ) / 10 ^ 2 := by
  induction amounts with
  | nil => simp
  | cons d amounts ih =>
      obtain ⟨hd, hrest⟩ := List.forall_mem_cons.mp h
      obtain ⟨k, hvalue, hk⟩ := value_onGrid hd
      have hsize : |d.value| ≤ (d.units (-2) : ℚ) / 10 ^ 2 := by
        rw [hvalue.trans (div_ten_pow k 2).symm, abs_cents]
        exact div_le_div_of_nonneg_right (by exact_mod_cast hk) (by norm_num)
      rw [List.map_cons, List.sum_cons, List.map_cons, List.sum_cons, Nat.cast_add, add_div]
      exact add_le_add hsize (ih hrest)

theorem cents_of_units (hgrid : ∀ d ∈ amounts, d.onGrid (-2) = true)
    (hsize : (amounts.map (units (-2))).sum < 10 ^ 18) : Cents amounts where
  whole d hd := by
    obtain ⟨k, hvalue, -⟩ := value_onGrid (hgrid d hd)
    exact ⟨k, finite_of_onGrid (hgrid d hd), hvalue.trans (div_ten_pow k 2).symm⟩
  small := by
    refine (sum_abs_le_units hgrid).trans_lt ?_
    rw [div_lt_iff₀ (by norm_num)]
    have hcents : (((amounts.map (units (-2))).sum : ℕ) : ℚ) < (10 ^ 18 : ℕ) := by exact_mod_cast hsize
    refine hcents.trans_le ?_
    norm_num

end Sums

/-! ## Distances and shares -/

section Cents

variable {p q s : ℚ} {d : Decimal}

theorem InCents.fits (h : InCents q) : Fits q := by
  obtain ⟨k, rfl, hk⟩ := h
  exact fits_places (by omega) (hk.trans (by decide))

theorem InCents.sub_fits (hp : InCents p) (hq : InCents q) : Fits (p - q) := by
  obtain ⟨j, rfl, hj⟩ := hp
  obtain ⟨k, rfl, hk⟩ := hq
  rw [← sub_div, ← Int.cast_sub]
  exact fits_places (by omega) (by unfold precision; omega)

theorem InCents.share_fits (hq : InCents q) (hd : Share d) : Fits (|q| * d.value) := by
  obtain ⟨k, rfl, hk⟩ := hq
  obtain ⟨j, hj, -, hvalue⟩ := hd
  have hproduct : k.natAbs * j < 10 ^ precision :=
    (Nat.mul_le_mul hk.le hj).trans_lt (by decide)
  have hsize : |(k : ℚ) / 10 ^ 2| * (j / 10 ^ 6) = ((k.natAbs * j : ℕ) : ℚ) / 10 ^ 8 := by
    rw [abs_cents, Nat.cast_mul]
    ring
  rw [hvalue, hsize]
  exact fits_places_nat (by omega) hproduct

theorem double_share {j : ℕ} (hd : d.Worth (j / 10 ^ 6)) (hj : j ≤ 10 ^ 6) :
    ∃ double, d.mul (.ofNat 2) = .ok double ∧ double.Worth ((2 * j : ℕ) / 10 ^ 6) := by
  have htwo : (ofNat 2).Worth 2 := ⟨rfl, by norm_num [ofNat, value, signed]⟩
  have hproduct : (j : ℚ) / 10 ^ 6 * 2 = ((2 * j : ℕ) : ℚ) / 10 ^ 6 := by
    rw [Nat.cast_mul]
    push_cast
    ring
  rw [← hproduct]
  refine mul_fits hd htwo ?_
  rw [hproduct]
  exact fits_places_nat (by omega) (by unfold precision; omega)

/-! ## Ratios -/

/-- A number is rounded to the side of a limit that it is on, if it is not between the limit and the next number. -/
theorem Rounded.le_iff {q r limit next : ℚ} (h : Rounded q r) (hlimit : Fits limit) (hnext : Fits next)
    (hlt : limit < next) (hgap : q ≤ limit ∨ next ≤ q) : r ≤ limit ↔ q ≤ limit := by
  constructor
  · intro hle
    rcases hgap with hbelow | habove
    · exact hbelow
    · exact absurd ((h.above hnext habove).trans hle) (not_le.mpr hlt)
  · exact h.below hlimit

/-- The distance of two numbers of cents, and the size of the second one, as numbers of cents. -/
theorem InCents.sizes (hp : InCents p) (hq : InCents q) (hne : q ≠ 0) :
    ∃ k m : ℕ, |p - q| = k / 10 ^ 2 ∧ |q| = m / 10 ^ 2 ∧ k ≤ 2 * 10 ^ 18 ∧ 0 < m ∧ m < 10 ^ 18 := by
  obtain ⟨i, rfl, hi⟩ := hp
  obtain ⟨j, rfl, hj⟩ := hq
  refine ⟨(i - j).natAbs, j.natAbs, ?_, abs_cents j, by omega, ?_, hj⟩
  · rw [← sub_div, ← Int.cast_sub, abs_cents]
  · refine Int.natAbs_pos.mpr fun hzero => hne ?_
    rw [hzero, Int.cast_zero, zero_div]

/-- **A rounded ratio of numbers of cents is within a share just where the exact one is.** -/
theorem ratio_le_iff (hp : InCents p) (hq : InCents q) (hne : q ≠ 0) {j : ℕ} (hj : j ≤ 2 * 10 ^ 6) {r : ℚ}
    (h : Rounded (|p - q| / |q|) r) : r ≤ j / 10 ^ 6 ↔ |p - q| ≤ j / 10 ^ 6 * |q| := by
  obtain ⟨k, m, hgap, hsize, -, hm, hdigits⟩ := hp.sizes hq hne
  have hpos : (0 : ℚ) < m := by exact_mod_cast hm
  have hratio : (k : ℚ) / 10 ^ 2 / (m / 10 ^ 2) = k / m := by field_simp
  have hlimit : Fits ((j : ℚ) / 10 ^ 6) := fits_places_nat (by omega) (by unfold precision; omega)
  have hnext : Fits (((j * 10 ^ 18 + 1 : ℕ) : ℚ) / 10 ^ 24) := fits_places_nat (by omega) (by unfold precision; omega)
  have hexact : (k : ℚ) / 10 ^ 2 ≤ j / 10 ^ 6 * (m / 10 ^ 2) ↔ (k : ℚ) / m ≤ j / 10 ^ 6 := by
    rw [← mul_div_assoc, div_le_div_iff_of_pos_right (by norm_num), div_le_iff₀ hpos]
  rw [hgap, hsize] at h ⊢
  rw [hratio] at h
  rw [hexact]
  refine h.le_iff hlimit hnext ?_ ?_
  · rw [div_lt_div_iff₀ (by norm_num) (by norm_num)]
    push_cast
    linarith
  · -- Cross-multiplied, the two sides are whole numbers.
    rcases Nat.lt_or_ge (j * m) (k * 10 ^ 6) with hlt | hle
    · right
      rw [div_le_div_iff₀ (by norm_num) hpos]
      have hunits : (j * 10 ^ 18 + 1) * m ≤ k * 10 ^ 24 := by
        have hone : (j * m + 1) * 10 ^ 18 ≤ k * 10 ^ 6 * 10 ^ 18 := Nat.mul_le_mul_right _ hlt
        nlinarith
      exact_mod_cast hunits
    · left
      rw [div_le_div_iff₀ hpos (by norm_num)]
      exact_mod_cast hle

theorem ratio_le (hp : InCents p) (hq : InCents q) (hne : q ≠ 0) {ratio share : Decimal} {j : ℕ} (hj : j ≤ 2 * 10 ^ 6)
    (hshare : share.Worth (j / 10 ^ 6)) (hfinite : ratio.isFinite = true)
    (hratio : Rounded (|p - q| / |q|) ratio.value) : ratio.le share = .ok (decide (|p - q| ≤ share.value * |q|)) := by
  rw [le_of_worth (worth_value hfinite) hshare, hshare.2]
  exact congrArg Except.ok (decide_eq_decide.mpr (ratio_le_iff hp hq hne hj hratio))

/-- A ratio of numbers of cents, rounded, and its percentage. -/
theorem ratio_rounded (hp : InCents p) (hq : InCents q) (hne : q ≠ 0) {gap size : Decimal} (hgap : gap.Worth |p - q|)
    (hsize : size.Worth |q|) : ∃ ratio percentage, gap.div size = .ok ratio ∧ ratio.mul (.ofNat 100) = .ok percentage ∧
      ratio.isFinite = true ∧ Rounded (|p - q| / |q|) ratio.value := by
  have hlarge : |(|p - q| / |q|)| ≤ ((2 * 10 ^ 18 : ℕ) : ℚ) / 10 ^ 0 := by
    obtain ⟨k, m, hk, hm, hbound, hpos, -⟩ := hp.sizes hq hne
    have hone : (1 : ℚ) ≤ m := by exact_mod_cast hpos
    rw [hk, hm, abs_of_nonneg (by positivity), show (k : ℚ) / 10 ^ 2 / (m / 10 ^ 2) = k / m by field_simp]
    calc (k : ℚ) / m ≤ k := div_le_self (Nat.cast_nonneg k) hone
      _ ≤ ((2 * 10 ^ 18 : ℕ) : ℚ) / 10 ^ 0 := by rw [pow_zero, div_one]; exact_mod_cast hbound
  have hfits : Fits (((2 * 10 ^ 18 : ℕ) : ℚ) / 10 ^ 0) := fits_places_nat (by omega) (by decide)
  obtain ⟨ratio, hdiv, hfinite, hrounded⟩ := div_rounded hgap hsize (abs_ne_zero.mpr hne) hfits hlarge
  have hratio := hrounded.toBeside.size_le hfits hlarge
  have hhundred : (ofNat 100).Worth 100 := ⟨rfl, by norm_num [ofNat, value, signed]⟩
  have hpercent : |ratio.value * 100| ≤ ((2 * 10 ^ 20 : ℕ) : ℚ) / 10 ^ 0 := by
    rw [abs_mul, abs_of_pos (by norm_num : (0 : ℚ) < 100)]
    refine (mul_le_mul_of_nonneg_right hratio (by norm_num)).trans (le_of_eq ?_)
    norm_num
  obtain ⟨percentage, hmul, -⟩ := (mul_settles (worth_value hfinite) hhundred).returns
    (fits_places_nat (by omega) (by decide)) hpercent
  exact ⟨ratio, percentage, hdiv, hmul, hfinite, hrounded⟩

end Cents

end GoalReconciliation.Decimal

import GoalReconciliation.Proofs.Decimal.Alike
import GoalReconciliation.Proofs.Decimal.Laws

/-!
# Sums of moderate amounts

Sums are rounded to 28 digits, so that amounts below a fixed size no longer add to a sum that is large enough: however
many of them are summed up, no sum overflows.

* `Moderate`, `Bounded` : amounts below `10 ^ 16`, and what their sums do not leave;
* `settle_bounded` : an exact result that exceeds the bound by less than a moderate amount is rounded to the bound;
* `add_bounded` : **a moderate amount added to a bounded sum makes a bounded sum**; `sum_bounded` : so have moderate
  amounts a sum; `sub_of_sizes`, `abs_bounded` : differences and sizes of such amounts;
* `order_of_finite`, `le_of_finite`, `lt_of_finite`, `greater_of_finite` : a finite amount is compared with every number.
-/

namespace GoalReconciliation.Decimal

set_option autoImplicit false

/-- A finite amount below `10 ^ 16` in size. -/
structure Moderate (d : Decimal) : Prop where
  finite : d.isFinite = true
  size : |d.value| < 10 ^ 16

/-- A finite amount of at most `10 ^ 44`, where the last of 28 digits counts more than ten moderate amounts. -/
structure Bounded (d : Decimal) : Prop where
  finite : d.isFinite = true
  size : |d.value| ≤ 10 ^ 44

theorem bounded_zero : zero.Bounded :=
  ⟨rfl, by simp [zero, ofNat, value]⟩

theorem moderate_zero : zero.Moderate :=
  ⟨rfl, by simp [zero, ofNat, value]⟩

theorem Moderate.bounded {d : Decimal} (h : d.Moderate) : d.Bounded :=
  ⟨h.finite, h.size.le.trans (by norm_num)⟩

theorem bounded_finite {negative : Bool} {m : Nat} {e : Int} (h : (m : ℚ) * 10 ^ e ≤ 10 ^ 44) :
    Bounded (.finite negative m e) :=
  ⟨rfl, by rwa [value, abs_mul, abs_signed, abs_of_pos (zpow_pos (by norm_num) _)]⟩

/-! ## Rounding -/

/-- A number that exceeds a multiple of the unit by less than half of it is not rounded beyond the multiple. -/
theorem dropDigits_le {n count bound : Nat} (h : 10 * n < (10 * bound + 1) * 10 ^ count) :
    dropDigits n count ≤ bound := by
  obtain ⟨unit, hunit⟩ : ∃ unit, Natural.raised 10 count = unit := ⟨_, rfl⟩
  have hpos : 0 < unit := hunit ▸ Nat.pow_pos (by omega)
  have hsplit := Nat.div_add_mod n unit
  rw [← raised_eq, hunit] at h
  unfold dropDigits
  simp only [hunit]
  have hle : n / unit ≤ bound := by
    by_contra hgt
    have hmore : unit * (bound + 1) ≤ unit * (n / unit) := Nat.mul_le_mul_left _ (by omega)
    have hn : unit * (bound + 1) ≤ n := by omega
    nlinarith
  split
  · rename_i hup
    by_contra hgt
    have hbound : n / unit = bound := by omega
    have hhalf : unit ≤ 2 * (n % unit) := by omega
    rw [hbound] at hsplit
    nlinarith
  · exact hle

section Place

variable {m : Nat} {e least : Int}

theorem place_le (hm : 0 < m) (h : (m : ℚ) * 10 ^ e < 10 ^ 44 + 10 ^ 16) :
    (digitCount m : Int) + e - precision ≤ 17 ∧
      ((digitCount m : Int) + e - precision < 17 → (m : ℚ) * 10 ^ e < 10 ^ 44) := by
  have hdigits : (digitCount m : Int) + e ≤ 45 := digits_le hm (h.trans (by norm_num))
  refine ⟨by unfold precision; omega, fun hlt => ?_⟩
  have hvalue : (m : ℚ) * 10 ^ e < 10 ^ ((digitCount m : Int) + e) := by
    rw [zpow_add₀ (by norm_num), zpow_natCast]
    refine mul_lt_mul_of_pos_right ?_ (zpow_pos (by norm_num) _)
    exact_mod_cast (digitCount_bounds hm).2
  refine hvalue.trans_le ?_
  have hle : (digitCount m : Int) + e ≤ 44 := by
    unfold precision at hlt
    omega
  exact zpow_le_zpow_right₀ (show (1 : ℚ) ≤ 10 by norm_num) hle

/-- What digits are left of a result when others are dropped stands for at most the bound. -/
theorem dropped_le (hm : 0 < m) (h : (m : ℚ) * 10 ^ e < 10 ^ 44 + 10 ^ 16) (hroom : e < least)
    (hleast : least = max ((digitCount m : Int) + e - precision) minExponent) :
    (dropDigits m (least - e).toNat : ℚ) * 10 ^ least ≤ 10 ^ 44 := by
  obtain ⟨hplace, hsmall⟩ := place_le hm h
  have hmin : minExponent < 17 := by decide
  have hle : least ≤ 17 := hleast ▸ max_le hplace hmin.le
  -- The bound is a multiple of the last place kept, and the excess is less than half of that place.
  have hsize : (10 : ℚ) * m * 10 ^ e < 10 ^ 45 + 10 ^ least := by
    have hpos : (0 : ℚ) < 10 ^ least := zpow_pos (by norm_num) _
    by_cases hlt : (digitCount m : Int) + e - precision < 17
    · linarith [hsmall hlt]
    · obtain rfl : least = 17 := by omega
      have hcast : (10 : ℚ) ^ (17 : Int) = 10 ^ 17 := by norm_num
      rw [hcast]
      linarith
  have hbound := units_of_place (show least ≤ 44 by omega)
  have hunits : 10 * m < (10 * 10 ^ (44 - least).toNat + 1) * 10 ^ (least - e).toNat := by
    have hscaled : ((10 * 10 ^ (44 - least).toNat + 1 : ℕ) * (10 ^ (least - e).toNat : ℕ) : ℚ) * 10 ^ e =
        10 ^ 45 + 10 ^ least := by
      rw [mul_assoc, units_of_place hroom.le]
      push_cast at hbound ⊢
      rw [add_mul, mul_assoc, hbound]
      norm_num
    rw [← hscaled] at hsize
    exact_mod_cast lt_of_mul_lt_mul_right hsize (zpow_pos (by norm_num) e).le
  have hdropped : (dropDigits m (least - e).toNat : ℚ) ≤ (10 ^ (44 - least).toNat : ℕ) := by
    exact_mod_cast dropDigits_le hunits
  refine (mul_le_mul_of_nonneg_right hdropped (zpow_pos (by norm_num) least).le).trans (le_of_eq ?_)
  rw [hbound]
  norm_num

theorem kept_le (hm : 0 < m) (h : (m : ℚ) * 10 ^ e < 10 ^ 44 + 10 ^ 16)
    (hroom : (digitCount m : Int) + e - precision ≤ e) : (m : ℚ) * 10 ^ e ≤ 10 ^ 44 := by
  obtain ⟨hplace, hsmall⟩ := place_le hm h
  by_cases hlt : (digitCount m : Int) + e - precision < 17
  · exact (hsmall hlt).le
  · -- Where the last digit has the place 17, what exceeds the bound does so by a unit of that place.
    have hexponent : 17 ≤ e := by omega
    have hunits : ((scaled m e 17 : ℕ) : ℚ) * 10 ^ (17 : Int) = m * 10 ^ e := scaled_value false m hexponent
    have hcast : (10 : ℚ) ^ (17 : Int) = 10 ^ 17 := by norm_num
    rw [hcast] at hunits
    rw [← hunits] at h ⊢
    generalize scaled m e 17 = units at h ⊢
    have hexcess : units * 10 ^ 17 < 10 ^ 44 + 10 ^ 16 := by exact_mod_cast h
    have hle : units * 10 ^ 17 ≤ 10 ^ 44 := by omega
    exact_mod_cast hle

end Place

/-- An exact result that exceeds the bound by less than a moderate amount is rounded to a bounded one. -/
theorem settle_bounded {negative : Bool} {m : Nat} {e : Int} (h : (m : ℚ) * 10 ^ e < 10 ^ 44 + 10 ^ 16) :
    ∃ d, settle negative m e = .ok d ∧ d.Bounded := by
  rcases Nat.eq_zero_or_pos m with rfl | hm
  · exact ⟨_, if_pos rfl, bounded_finite (by simp)⟩
  have hplace := (place_le hm h).1
  have hmax : (17 : Int) < maxExponent := by decide
  by_cases hroom : e < max ((digitCount m : Int) + e - precision) minExponent
  · generalize hleast : max ((digitCount m : Int) + e - precision) minExponent = least at hroom
    have hdropped := dropped_le hm h hroom hleast.symm
    have hmin : minExponent < 17 := by decide
    have hle : least ≤ 17 := hleast ▸ max_le hplace hmin.le
    rw [settle_placed hm hleast.symm (by omega) hroom, placed]
    split
    · exact ⟨_, rfl, bounded_finite hdropped⟩
    · rw [if_neg (by omega)]
      refine ⟨_, rfl, bounded_finite (le_trans ?_ hdropped)⟩
      rw [zpow_add_one₀ (by norm_num), mul_comm (10 ^ least : ℚ), ← mul_assoc]
      refine mul_le_mul_of_nonneg_right ?_ (zpow_pos (by norm_num) _).le
      exact_mod_cast Nat.div_mul_le_self _ 10
  · refine ⟨.finite negative m e, ?_, bounded_finite (kept_le hm h ((le_max_left _ _).trans (not_lt.mp hroom)))⟩
    rw [settle, if_neg hm.ne']
    simp only []
    rw [if_neg (by omega), if_neg hroom]

/-! ## Operations -/

variable {a b : Decimal}

/-- Two amounts whose sizes exceed the bound by less than a moderate amount have a sum. -/
theorem add_of_sizes (ha : a.isFinite = true) (hb : b.isFinite = true)
    (h : |a.value| + |b.value| < 10 ^ 44 + 10 ^ 16) : ∃ d, a.add b = .ok d ∧ d.Bounded := by
  obtain ⟨negative, m, e, hadd, hworth⟩ := add_settles (worth_value ha) (worth_value hb)
  have hsize : (m : ℚ) * 10 ^ e = |a.value + b.value| := by
    rw [← hworth, abs_mul, abs_signed, abs_of_pos (zpow_pos (by norm_num) _)]
  rw [hadd]
  refine settle_bounded ?_
  rw [hsize]
  exact (abs_add_le _ _).trans_lt h

/-- **A moderate amount added to a bounded sum makes a bounded sum.** -/
theorem add_bounded (ha : a.Bounded) (hb : b.Moderate) : ∃ d, a.add b = .ok d ∧ d.Bounded :=
  add_of_sizes ha.finite hb.finite (add_lt_add_of_le_of_lt ha.size hb.size)

/-- Moderate amounts have a sum, however many they are. -/
theorem sum_bounded {amounts : List Decimal} (h : ∀ d ∈ amounts, d.Moderate) : ∃ d, sum amounts = .ok d ∧ d.Bounded := by
  have hfold : ∀ {start : Decimal}, start.Bounded → ∃ d, amounts.foldlM add start = .ok d ∧ d.Bounded := by
    induction amounts with
    | nil => exact fun hstart => ⟨_, rfl, hstart⟩
    | cons d rest ih =>
        intro start hstart
        obtain ⟨hd, hrest⟩ := List.forall_mem_cons.mp h
        obtain ⟨next, hnext, hbounded⟩ := add_bounded hstart hd
        rw [List.foldlM_cons, hnext]
        exact ih hrest hbounded
  exact hfold bounded_zero

theorem sub_of_sizes (ha : a.isFinite = true) (hb : b.isFinite = true)
    (h : |a.value| + |b.value| < 10 ^ 44 + 10 ^ 16) : ∃ d, a.sub b = .ok d ∧ d.Bounded := by
  obtain ⟨hfinite, hvalue⟩ := flip_worth (worth_value hb)
  exact add_of_sizes ha hfinite (by rwa [hvalue, abs_neg])

theorem abs_bounded (h : a.Bounded) : ∃ d, a.abs = .ok d ∧ d.Bounded := by
  obtain ⟨negative, m, e, rfl, hvalue⟩ := (worth_value h.finite).parts
  refine settle_bounded (lt_of_le_of_lt ?_ (show (10 : ℚ) ^ 44 < 10 ^ 44 + 10 ^ 16 by norm_num))
  have hsize := h.size
  rwa [hvalue, abs_mul, abs_signed, abs_of_pos (zpow_pos (by norm_num) _)] at hsize

theorem order_of_finite (ha : a.isFinite = true) (hb : b.isNaN = false) : ∃ ordering, order a b = .ok ordering := by
  cases a with
  | finite negA coA expA =>
      cases b with
      | finite negB coB expB => exact ⟨_, rfl⟩
      | infinity negB => exact ⟨_, rfl⟩
      | nan negative signalling payload => cases hb
  | infinity negA => cases ha
  | nan negative signalling payload => cases ha

theorem le_of_finite (ha : a.isFinite = true) (hb : b.isNaN = false) : ∃ answer, a.le b = .ok answer := by
  obtain ⟨ordering, h⟩ := order_of_finite ha hb
  exact ⟨_, congrArg (Except.map _) h⟩

theorem lt_of_finite (ha : a.isFinite = true) (hb : b.isNaN = false) : ∃ answer, a.lt b = .ok answer := by
  obtain ⟨ordering, h⟩ := order_of_finite ha hb
  exact ⟨_, congrArg (Except.map _) h⟩

theorem greater_of_finite (ha : a.isFinite = true) (hb : b.isNaN = false) :
    ∃ d, a.greater b = .ok d ∧ d.isNaN = false := by
  obtain ⟨answer, hlt⟩ := lt_of_finite ha hb
  unfold greater
  rw [hlt]
  cases answer with
  | true => exact ⟨b, rfl, hb⟩
  | false => exact ⟨a, rfl, (number_of_lt hlt).1⟩

end GoalReconciliation.Decimal

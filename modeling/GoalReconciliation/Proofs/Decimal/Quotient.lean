import GoalReconciliation.Proofs.Decimal.Nearest

/-!
# Where a quotient is rounded to

A quotient is cut behind its 29th digit or later, and a cut quotient that ends on zero or five is raised by one, before
it is rounded. Neither step leads across a number that fits.

* `shedZeros_value` : zeros moved into the exponent;
* `cut_beside` : a cut quotient, raised or not;
* `divFinite_beside` : the quotient of two sizes is settled from a number beside it;
* `div_rounded` : **a quotient is rounded to a number on no other side of any number that fits**.
-/

namespace GoalReconciliation.Decimal

set_option autoImplicit false

theorem shedZeros_value (count coefficient : Nat) (exponent : Int) :
    ((shedZeros count coefficient exponent).1 : ℚ) * 10 ^ (shedZeros count coefficient exponent).2 =
      coefficient * 10 ^ exponent := by
  induction count generalizing coefficient exponent with
  | zero => rfl
  | succ count ih =>
      unfold shedZeros
      split
      · rename_i hzero
        rw [ih, zpow_add_one₀ (by norm_num)]
        have htens : ((coefficient / 10 * 10 : ℕ) : ℚ) = coefficient := by
          exact_mod_cast Nat.div_mul_cancel (Nat.dvd_of_mod_eq_zero hzero)
        rw [← htens]
        push_cast
        ring
      · rfl

/-- A number with 29 digits before the place of a unit lies beside that number of units, or one more, if it is between
the two. -/
theorem cut_beside {digits kept : Nat} {place : Int} {q : ℚ} (hdigits : 10 ^ precision ≤ digits)
    (hlow : digits * 10 ^ place < q) (hhigh : q < (digits + 1 : ℕ) * 10 ^ place)
    (hkept : kept = digits ∨ kept = digits + 1) : Beside q (kept * 10 ^ place) := by
  have hpow : (0 : ℚ) < 10 ^ place := zpow_pos (by norm_num) _
  have hsmall : (10 : ℚ) ^ (place + precision - 1) < digits * 10 ^ place := by
    rw [show place + precision - 1 = ((precision - 1 : ℕ) : ℤ) + place by unfold precision; omega,
      zpow_add₀ (by norm_num), zpow_natCast]
    refine mul_lt_mul_of_pos_right ?_ hpow
    have hlt : 10 ^ (precision - 1) < digits := lt_of_lt_of_le (by decide) hdigits
    exact_mod_cast hlt
  have hraised : digits ≤ kept ∧ kept ≤ digits + 1 := by omega
  have hbounds : digits * (10 : ℚ) ^ place ≤ kept * 10 ^ place ∧
      (kept : ℚ) * 10 ^ place ≤ (digits + 1 : ℕ) * 10 ^ place :=
    ⟨mul_le_mul_of_nonneg_right (by exact_mod_cast hraised.1) hpow.le,
      mul_le_mul_of_nonneg_right (by exact_mod_cast hraised.2) hpow.le⟩
  have hcut : (0 : ℚ) ≤ digits * 10 ^ place := mul_nonneg (Nat.cast_nonneg _) hpow.le
  refine beside_of_nonneg (hcut.trans hlow.le) (hcut.trans hbounds.1) (fun x hx hnonneg hle => ?_)
    fun x hx hnonneg hle => ?_
  · refine le_trans ?_ hbounds.1
    obtain ⟨j, rfl⟩ | ⟨-, hlt⟩ := hx.multiple_or_small hnonneg place
    · have hunits : j < digits + 1 := by exact_mod_cast lt_of_mul_lt_mul_right (hle.trans_lt hhigh) hpow.le
      exact mul_le_mul_of_nonneg_right (by exact_mod_cast Nat.le_of_lt_succ hunits) hpow.le
    · exact (hlt.trans hsmall).le
  · refine hbounds.2.trans ?_
    obtain ⟨j, rfl⟩ | ⟨-, hlt⟩ := hx.multiple_or_small hnonneg place
    · have hunits : digits < j := by exact_mod_cast lt_of_mul_lt_mul_right (hlow.trans_le hle) hpow.le
      exact mul_le_mul_of_nonneg_right (by exact_mod_cast hunits) hpow.le
    · exact absurd (hlow.trans_le hle) (not_lt.mpr (hlt.trans hsmall).le)

section Sizes

variable {coA coB : Nat}

theorem shifted_quotient (coA : Nat) {coB : Nat} (hB : 0 < coB) (expA expB shift : Int) :
    ((coA * 10 ^ shift.toNat : ℕ) : ℚ) / (coB * 10 ^ (-shift).toNat : ℕ) * 10 ^ (expA - expB - shift) =
      coA * 10 ^ expA / (coB * 10 ^ expB) := by
  have hshift : (10 : ℚ) ^ shift.toNat = 10 ^ (-shift).toNat * 10 ^ shift := by
    rw [← zpow_natCast, ← zpow_natCast, ← zpow_add₀ (by norm_num)]
    congr 1
    omega
  have hne : (coB : ℚ) ≠ 0 := by exact_mod_cast hB.ne'
  have hten : (10 : ℚ) ≠ 0 := by norm_num
  push_cast
  rw [hshift, zpow_sub₀ hten, zpow_sub₀ hten]
  field_simp

theorem shifted_digits (hA : 0 < coA) (hB : 0 < coB) {shift : Int}
    (hshift : shift = (digitCount coB : Int) - digitCount coA + precision + 1) :
    10 ^ precision ≤ coA * 10 ^ shift.toNat / (coB * 10 ^ (-shift).toNat) := by
  have hpos : 0 < coB * 10 ^ (-shift).toNat := Nat.mul_pos hB (Nat.pow_pos (by omega))
  have hcount := digitCount_pos coA
  rw [Nat.le_div_iff_mul_le hpos]
  calc 10 ^ precision * (coB * 10 ^ (-shift).toNat)
      ≤ 10 ^ precision * (10 ^ digitCount coB * 10 ^ (-shift).toNat) :=
        Nat.mul_le_mul_left _ (Nat.mul_le_mul_right _ (digitCount_bounds hB).2.le)
    _ = 10 ^ (digitCount coA - 1) * 10 ^ shift.toNat := by
        rw [← pow_add, ← pow_add, ← pow_add]
        congr 1
        omega
    _ ≤ coA * 10 ^ shift.toNat := Nat.mul_le_mul_right _ (digitCount_bounds hA).1

theorem cut_bounds {n d : Nat} (hd : 0 < d) (hcut : n % d ≠ 0) : n / d * d < n ∧ n < (n / d + 1) * d := by
  have hsplit := Nat.div_add_mod' n d
  have hrest := Nat.mod_lt n hd
  rw [add_mul, one_mul]
  omega

/-- The quotient of two sizes is settled from a number beside it. -/
theorem divFinite_beside (negative : Bool) (coA : Nat) {coB : Nat} (hB : 0 < coB) (expA expB : Int) :
    ∃ r, Settles (divFinite negative coA expA coB expB) (turned negative r) ∧
      Beside (coA * 10 ^ expA / (coB * 10 ^ expB)) r := by
  have hturned : turned negative 0 = 0 := by cases negative <;> simp
  unfold divFinite
  rcases Nat.eq_zero_or_pos coA with rfl | hA
  · rw [if_pos rfl]
    refine ⟨0, ⟨negative, 0, expA - expB, rfl, ?_⟩, ?_⟩
    · rw [hturned, signed_zero, Int.cast_zero, zero_mul]
    · rw [Nat.cast_zero, zero_mul, zero_div]
      exact Beside.refl 0
  rw [if_neg hA.ne']
  -- The shift is named before the quotient is opened, as the zeros moved are counted down from it.
  obtain ⟨shift, hshift⟩ : ∃ shift, shift = (digitCount coB : Int) - digitCount coA + precision + 1 := ⟨_, rfl⟩
  rw [← hshift]
  simp only []
  rw [raised_eq, raised_eq]
  have hvalue := shifted_quotient coA hB expA expB shift
  have hdigits := shifted_digits hA hB hshift
  have hpos : 0 < coB * 10 ^ (-shift).toNat := Nat.mul_pos hB (Nat.pow_pos (by omega))
  generalize coA * 10 ^ shift.toNat = numerator at hvalue hdigits ⊢
  generalize coB * 10 ^ (-shift).toNat = denominator at hvalue hdigits hpos ⊢
  generalize expA - expB - shift = place at hvalue ⊢
  have hpow : (0 : ℚ) < 10 ^ place := zpow_pos (by norm_num) _
  have hdenominator : (0 : ℚ) < denominator := by exact_mod_cast hpos
  rw [← hvalue]
  split
  · -- The quotient is exact.
    rename_i hexact
    refine ⟨(numerator / denominator : ℕ) * 10 ^ place, ⟨negative, _, _, rfl, ?_⟩, ?_⟩
    · rw [signed_turned, shedZeros_value]
    · have hproduct : (numerator : ℚ) = (numerator / denominator : ℕ) * denominator := by
        exact_mod_cast (Nat.div_mul_cancel (Nat.dvd_of_mod_eq_zero hexact)).symm
      have hquotient : (numerator : ℚ) / denominator = (numerator / denominator : ℕ) :=
        (div_eq_iff hdenominator.ne').mpr hproduct
      rw [hquotient]
      exact Beside.refl _
  · rename_i hcut
    obtain ⟨hlow, hhigh⟩ := cut_bounds hpos hcut
    refine ⟨_, ⟨negative, _, _, rfl, signed_turned negative _ _⟩, cut_beside hdigits ?_ ?_ ?_⟩
    · refine mul_lt_mul_of_pos_right ?_ hpow
      rw [lt_div_iff₀ hdenominator]
      exact_mod_cast hlow
    · refine mul_lt_mul_of_pos_right ?_ hpow
      rw [div_lt_iff₀ hdenominator]
      exact_mod_cast hhigh
    · split
      · exact .inr rfl
      · exact .inl rfl

end Sizes

/-- **A quotient is rounded to a number on no other side of any number that fits**, if its size is at most one that
does. -/
theorem div_rounded {a b : Decimal} {p q x : ℚ} (ha : a.Worth p) (hb : b.Worth q) (hq : q ≠ 0) (hx : Fits x)
    (h : |p / q| ≤ x) : ∃ d, a.div b = .ok d ∧ d.isFinite = true ∧ Rounded (p / q) d.value := by
  obtain ⟨negA, coA, expA, rfl, rfl⟩ := ha.parts
  obtain ⟨negB, coB, expB, rfl, rfl⟩ := hb.parts
  have hB : coB ≠ 0 := by
    rintro rfl
    simp at hq
  have hdiv : div (.finite negA coA expA) (.finite negB coB expB) =
      if coB = 0 then .error (if coA = 0 then .invalidOperation else .divisionByZero)
      else divFinite (negA != negB) coA expA coB expB := rfl
  have hsign : (signed negA coA : ℚ) * 10 ^ expA / (signed negB coB * 10 ^ expB) =
      turned (negA != negB) (coA * 10 ^ expA / (coB * 10 ^ expB)) := by
    rw [signed_turned, signed_turned]
    cases negA <;> cases negB <;> simp [neg_div, div_neg]
  rw [hdiv, if_neg hB]
  obtain ⟨r, hsettles, hbeside⟩ := divFinite_beside (negA != negB) coA (Nat.pos_of_ne_zero hB) expA expB
  have hbeside := hbeside.turned (negA != negB)
  rw [← hsign] at hbeside
  obtain ⟨d, hd, hrounds⟩ := hsettles.returns hx (hbeside.size_le hx h)
  obtain ⟨hfinite, hrounded⟩ := hrounds.rounded
  exact ⟨d, hd, hfinite, { hbeside.trans hrounded.toBeside with fits := hrounded.fits }⟩

end GoalReconciliation.Decimal

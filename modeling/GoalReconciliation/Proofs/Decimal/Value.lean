import GoalReconciliation.Decimal.Rounding
import GoalReconciliation.Proofs.Decimal.Digits
import Mathlib.Algebra.Order.Field.Power
import Mathlib.Algebra.Order.Field.Rat
import Mathlib.Tactic.FieldSimp
import Mathlib.Tactic.Linarith
import Mathlib.Tactic.Positivity

/-!
# What decimals are worth

* `value`, `Worth` : the rational number that a finite decimal stands for;
* `Fits` : the rationals that a decimal of the working precision can stand for;
* `settle_fits` : an exact result that fits is not rounded.
-/

namespace GoalReconciliation.Decimal

set_option autoImplicit false

def signed (negative : Bool) (coefficient : Nat) : ℤ :=
  if negative then -(coefficient : ℤ) else coefficient

def value : Decimal → ℚ
  | .finite negative coefficient exponent => signed negative coefficient * 10 ^ exponent
  | _ => 0

def Worth (d : Decimal) (q : ℚ) : Prop :=
  d.isFinite = true ∧ d.value = q

theorem worth_finite (negative : Bool) (coefficient : Nat) (exponent : Int) :
    Worth (.finite negative coefficient exponent) (signed negative coefficient * 10 ^ exponent) :=
  ⟨rfl, rfl⟩

theorem worth_value {d : Decimal} (h : d.isFinite = true) : d.Worth d.value :=
  ⟨h, rfl⟩

theorem Worth.parts {d : Decimal} {q : ℚ} (h : d.Worth q) :
    ∃ negative coefficient exponent, d = .finite negative coefficient exponent ∧
      q = signed negative coefficient * 10 ^ exponent := by
  obtain ⟨hfinite, rfl⟩ := h
  cases d with
  | finite negative coefficient exponent => exact ⟨negative, coefficient, exponent, rfl, rfl⟩
  | infinity _ => cases hfinite
  | nan _ _ _ => cases hfinite

theorem worth_zero : zero.Worth 0 := by
  simp [Worth, zero, ofNat, isFinite, value, signed]

/-! ## Signed coefficients -/

@[simp] theorem signed_zero (negative : Bool) : signed negative 0 = 0 := by
  cases negative <;> rfl

theorem signed_not (negative : Bool) (coefficient : Nat) :
    signed (!negative) coefficient = -signed negative coefficient := by
  cases negative <;> simp [signed]

theorem natAbs_signed (negative : Bool) (coefficient : Nat) : (signed negative coefficient).natAbs = coefficient := by
  cases negative <;> simp [signed]

theorem signed_natAbs (n : ℤ) : signed (decide (n < 0)) n.natAbs = n := by
  unfold signed
  split
  · rename_i h
    rw [decide_eq_true_eq] at h
    omega
  · rename_i h
    rw [decide_eq_true_eq] at h
    omega

theorem signed_mul (a b : Bool) (m n : Nat) : signed (a != b) (m * n) = signed a m * signed b n := by
  cases a <;> cases b <;> simp [signed]

theorem abs_signed (negative : Bool) (coefficient : Nat) : |(signed negative coefficient : ℚ)| = coefficient := by
  cases negative <;> simp [signed]

theorem signedAt_eq (negative : Bool) (coefficient : Nat) (exponent low : Int) :
    signedAt negative coefficient exponent low = signed negative (scaled coefficient exponent low) := rfl

theorem scaled_value (negative : Bool) (coefficient : Nat) {exponent low : Int} (h : low ≤ exponent) :
    (signed negative (scaled coefficient exponent low) : ℚ) * 10 ^ low =
      signed negative coefficient * 10 ^ exponent := by
  have hpow : ((10 : ℚ) ^ (exponent - low).toNat) * 10 ^ low = 10 ^ exponent := by
    rw [← zpow_natCast, ← zpow_add₀ (by norm_num), Int.toNat_of_nonneg (by omega)]
    congr 1
    omega
  cases negative <;> simp [signed, scaled, mul_assoc, hpow]

theorem units_of_place {low high : ℤ} (h : low ≤ high) :
    ((10 ^ (high - low).toNat : ℕ) : ℚ) * 10 ^ low = 10 ^ high := by
  push_cast
  rw [← zpow_natCast, ← zpow_add₀ (by norm_num), Int.toNat_of_nonneg (by omega), sub_add_cancel]

/-! ## Numbers that fit the working precision -/

/-- The rationals that a decimal of the working precision can stand for: at most 28 digits, and an exponent in
range. -/
def Fits (q : ℚ) : Prop :=
  ∃ coefficient exponent : ℤ, coefficient.natAbs < 10 ^ precision ∧ minExponent ≤ exponent ∧
    exponent ≤ maxExponent ∧ q = coefficient * 10 ^ exponent

theorem Fits.neg {q : ℚ} (h : Fits q) : Fits (-q) := by
  obtain ⟨coefficient, exponent, hdigits, hmin, hmax, rfl⟩ := h
  exact ⟨-coefficient, exponent, by rwa [Int.natAbs_neg], hmin, hmax, by push_cast; ring⟩

theorem Fits.abs {q : ℚ} (h : Fits q) : Fits |q| := by
  rcases abs_choice q with e | e
  · rwa [e]
  · rw [e]
    exact h.neg

/-- One number written with two exponents. -/
theorem coefficient_eq {m n : Nat} {e e' : ℤ} (h : (m : ℚ) * 10 ^ e = n * 10 ^ e') (he : e ≤ e') :
    m = n * 10 ^ (e' - e).toNat := by
  have hsplit : (10 : ℚ) ^ e' = 10 ^ (e' - e).toNat * 10 ^ e := by
    rw [← zpow_natCast, ← zpow_add₀ (by norm_num), Int.toNat_of_nonneg (by omega)]
    congr 1
    omega
  have hne : (10 : ℚ) ^ e ≠ 0 := zpow_ne_zero _ (by norm_num)
  rw [hsplit, ← mul_assoc] at h
  exact_mod_cast mul_right_cancel₀ hne h

/-- The place of a number's first digit is within its size. -/
theorem digits_le {m : Nat} (hm : 0 < m) {e k : ℤ} (h : (m : ℚ) * 10 ^ e < 10 ^ k) : (digitCount m : ℤ) + e ≤ k := by
  have hlow : (10 : ℚ) ^ ((digitCount m : ℤ) - 1 + e) ≤ m * 10 ^ e := by
    rw [zpow_add₀ (by norm_num)]
    refine mul_le_mul_of_nonneg_right ?_ (by positivity)
    have hpos := digitCount_pos m
    rw [show (digitCount m : ℤ) - 1 = ((digitCount m - 1 : ℕ) : ℤ) by omega, zpow_natCast]
    exact_mod_cast (digitCount_bounds hm).1
  have hlt := (zpow_lt_zpow_iff_right₀ (show (1 : ℚ) < 10 by norm_num)).mp (hlow.trans_lt h)
  omega

/-- The exponent of a number that fits leaves room for no more than 28 of its digits. -/
theorem exponent_room {m n : Nat} {e e' : ℤ} (hm : 0 < m) (hn : n < 10 ^ precision)
    (h : (m : ℚ) * 10 ^ e = n * 10 ^ e') : (digitCount m : ℤ) + e - precision ≤ e' := by
  have hhigh : (n : ℚ) * 10 ^ e' < 10 ^ ((precision : ℤ) + e') := by
    rw [zpow_add₀ (by norm_num), zpow_natCast]
    refine mul_lt_mul_of_pos_right ?_ (by positivity)
    exact_mod_cast hn
  have hdigits := digits_le hm (h ▸ hhigh)
  omega

/-- The digits of a number that fits are zeros below every place that leaves room for 28 of them. -/
theorem dropped_zeros {m n : Nat} {e e' least : ℤ} (hm : 0 < m) (h : (m : ℚ) * 10 ^ e = n * 10 ^ e') (hdrop : e ≤ least)
    (hle : least ≤ e') (hroom : (digitCount m : ℤ) + e - precision ≤ least) :
    ∃ kept < 10 ^ precision, m = kept * 10 ^ (least - e).toNat := by
  have hsplit : m = n * 10 ^ (e' - least).toNat * 10 ^ (least - e).toNat := by
    rw [mul_assoc, ← pow_add, ← Int.toNat_add (by omega) (by omega), show e' - least + (least - e) = e' - e by ring]
    exact coefficient_eq h (by omega)
  refine ⟨n * 10 ^ (e' - least).toNat, ?_, hsplit⟩
  have hbound : n * 10 ^ (e' - least).toNat * 10 ^ (least - e).toNat < 10 ^ precision * 10 ^ (least - e).toNat := by
    rw [← hsplit, ← pow_add]
    exact (digitCount_bounds hm).2.trans_le (Nat.pow_le_pow_right (by omega) (by omega))
  exact Nat.lt_of_mul_lt_mul_right hbound

/-- **An exact result that fits is not rounded.** -/
theorem settle_fits {negative : Bool} {coefficient : Nat} {exponent : Int}
    (h : Fits (signed negative coefficient * 10 ^ exponent)) :
    ∃ d, settle negative coefficient exponent = .ok d ∧ d.Worth (signed negative coefficient * 10 ^ exponent) := by
  unfold settle
  by_cases hzero : coefficient = 0
  · subst hzero
    refine ⟨_, if_pos rfl, rfl, ?_⟩
    simp [value]
  rw [if_neg hzero]
  have hpos : 0 < coefficient := Nat.pos_of_ne_zero hzero
  obtain ⟨c, e, hdigits, hmin, hmax, heq⟩ := h
  have hsize : (coefficient : ℚ) * 10 ^ exponent = c.natAbs * 10 ^ e := by
    have habs := congrArg (fun q : ℚ => |q|) heq
    simpa [abs_mul, abs_signed, abs_of_pos (zpow_pos (show (0 : ℚ) < 10 by norm_num) _), Nat.cast_natAbs] using habs
  have hroom := exponent_room hpos hdigits hsize
  simp only []
  rw [if_neg (by omega)]
  split
  · -- Digits are dropped, and all of them are zeros.
    rename_i hdrop
    set least := max ((digitCount coefficient : ℤ) + exponent - precision) minExponent
    obtain ⟨kept, hlt, hcoefficient⟩ :=
      dropped_zeros hpos hsize (by omega) (max_le hroom hmin) (le_max_left _ _)
    have hrounded : dropDigits coefficient (least - exponent).toNat = kept := by
      conv_lhs => rw [hcoefficient]
      exact dropDigits_mul _ _
    rw [hrounded, raised_eq, if_pos hlt]
    refine ⟨_, rfl, rfl, ?_⟩
    have hscaled := scaled_value negative kept (le_of_lt hdrop)
    have hsame : scaled kept least exponent = coefficient := by
      rw [scaled, raised_eq, ← hcoefficient]
    rw [hsame] at hscaled
    exact hscaled.symm
  · exact ⟨_, rfl, worth_finite _ _ _⟩

end GoalReconciliation.Decimal

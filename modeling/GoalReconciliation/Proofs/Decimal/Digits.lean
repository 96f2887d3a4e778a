import GoalReconciliation.Decimal.Rounding
import Mathlib.Algebra.Order.Ring.Nat
import Mathlib.Tactic.Ring

/-!
# How many digits a number has

* `digitCount_bounds` : a number of `n` digits lies from `10 ^ (n - 1)` up to, but not at, `10 ^ n`;
* `dropDigits_mul` : zeros at the end are dropped without rounding.
-/

namespace GoalReconciliation.Decimal

set_option autoImplicit false

@[simp] theorem raised_eq (base exponent : Nat) : Natural.raised base exponent = base ^ exponent := rfl

theorem countDigits_pos (n : Nat) : 0 < countDigits n := by
  rw [countDigits]
  split <;> omega

theorem countDigits_bounds {n : Nat} (hn : 0 < n) :
    10 ^ (countDigits n - 1) ≤ n ∧ n < 10 ^ countDigits n := by
  induction n using Nat.strong_induction_on with
  | _ n ih =>
      rw [countDigits]
      split
      · rename_i hsmall
        exact ⟨by simpa using Nat.succ_le_of_lt hn, by simpa using hsmall⟩
      · obtain ⟨hlow, hhigh⟩ := ih (n / 10) (by omega) (by omega)
        have hpos := countDigits_pos (n / 10)
        have hpow : 10 ^ countDigits (n / 10) = 10 * 10 ^ (countDigits (n / 10) - 1) := by
          rw [← pow_succ']
          congr 1
          omega
        rw [Nat.add_sub_cancel, pow_succ]
        omega

/-- The digits are guessed from the place of the first bit, and counted where the guess is wrong. -/
theorem digitCount_cases (n : Nat) :
    digitCount n = countDigits n ∨ ∃ d, digitCount n = d + 1 ∧ 10 ^ d ≤ n ∧ n < 10 ^ (d + 1) := by
  unfold digitCount
  generalize Nat.log2 n * 30102999566398 / 100000000000000 = guess
  by_cases hfirst : 10 ^ guess ≤ n ∧ n < 10 ^ (guess + 1)
  · exact Or.inr ⟨guess, by simp [hfirst], hfirst⟩
  · by_cases hsecond : 10 ^ (guess + 1) ≤ n ∧ n < 10 ^ (guess + 2)
    · exact Or.inr ⟨guess + 1, by simp [hfirst, hsecond], hsecond⟩
    · exact Or.inl (by simp [hfirst, hsecond])

theorem digitCount_bounds {n : Nat} (hn : 0 < n) : 10 ^ (digitCount n - 1) ≤ n ∧ n < 10 ^ digitCount n := by
  rcases digitCount_cases n with h | ⟨d, h, hbounds⟩
  · rw [h]
    exact countDigits_bounds hn
  · rw [h, Nat.add_sub_cancel]
    exact hbounds

theorem digitCount_pos (n : Nat) : 0 < digitCount n := by
  rcases digitCount_cases n with h | ⟨d, h, -⟩
  · rw [h]
    exact countDigits_pos n
  · rw [h]
    exact Nat.succ_pos d

theorem dropDigits_mul (quotient count : Nat) : dropDigits (quotient * 10 ^ count) count = quotient := by
  have hunit : 0 < 10 ^ count := Nat.pow_pos (by omega)
  have hne : 0 ≠ 10 ^ count := hunit.ne
  simp [dropDigits, hne]

end GoalReconciliation.Decimal

import GoalReconciliation.Decimal.Arithmetic
import GoalReconciliation.Proofs.Fallible
import Mathlib.Order.Lattice

/-!
# Laws of arithmetic

What holds of all numbers, however they are rounded.

* `add_comm_of_numbers` : a sum does not depend on the order of its two numbers;
* `number_of_add`, `number_of_abs`, `number_of_order`, `number_of_lt`, `number_of_le` : what can be compared is made of
  numbers;
* `le_of_not_lt` : of two numbers of which the first is not less, the second is at most the first.
-/

namespace GoalReconciliation.Decimal

set_option autoImplicit false

variable {a b c : Decimal}

/-! ## Sums -/

theorem addFinite_comm (negA : Bool) (coA : Nat) (expA : Int) (negB : Bool) (coB : Nat) (expB : Int) :
    addFinite negA coA expA negB coB expB = addFinite negB coB expB negA coA expA := by
  unfold addFinite
  rw [min_comm expA expB, Bool.and_comm negA negB]
  by_cases hA : coA = 0
  · by_cases hB : coB = 0
    · simp [hA, hB]
    · simp [hA, hB]
  · by_cases hB : coB = 0
    · simp [hA, hB]
    · simp only [hA, hB, and_self, if_false]
      rw [Int.add_comm]

theorem add_comm_of_numbers (ha : a.isNaN = false) (hb : b.isNaN = false) : a.add b = b.add a := by
  cases a with
  | nan negative signalling payload => cases ha
  | finite negA coA expA =>
      cases b with
      | nan negative signalling payload => cases hb
      | finite negB coB expB => exact addFinite_comm negA coA expA negB coB expB
      | infinity negB => rfl
  | infinity negA =>
      cases b with
      | nan negative signalling payload => cases hb
      | finite negB coB expB => rfl
      | infinity negB =>
          change (if negA = negB then _ else _) = if negB = negA then _ else _
          by_cases h : negA = negB
          · rw [if_pos h, if_pos h.symm, h]
          · rw [if_neg h, if_neg fun e => h e.symm]

/-! ## Numbers -/

/-- The sum of what is no number is none. -/
theorem number_of_add (h : a.add b = .ok c) (hc : c.isNaN = false) : a.isNaN = false ∧ b.isNaN = false := by
  have hright : ∀ negative signalling payload, b = .nan negative signalling payload → a.isNaN = true := by
    rintro negative signalling payload rfl
    cases a with
    | nan => rfl
    | finite negA coA expA =>
        cases signalling <;> cases h
        cases hc
    | infinity negA =>
        cases signalling <;> cases h
        cases hc
  have hleft : a.isNaN = false := by
    cases a with
    | finite negA coA expA => rfl
    | infinity negA => rfl
    | nan negative signalling payload =>
        cases signalling with
        | true => cases h
        | false =>
            obtain ⟨result, hresult, h⟩ := Fallible.bind_eq_ok.mp h
            obtain ⟨rest, -, rfl⟩ := Fallible.map_eq_ok.mp hresult
            cases h
            cases hc
  refine ⟨hleft, ?_⟩
  cases b with
  | finite negB coB expB => rfl
  | infinity negB => rfl
  | nan negative signalling payload => exact absurd (hright _ _ _ rfl) (by simp [hleft])

theorem number_of_abs (h : a.abs = .ok c) (hc : c.isNaN = false) : a.isNaN = false := by
  cases a with
  | nan negative signalling payload =>
      cases signalling <;> cases h
      cases hc
  | finite negA coA expA => rfl
  | infinity negA => rfl

/-! ## Order -/

theorem number_of_order {ordering : Ordering} (h : order a b = .ok ordering) : a.isNaN = false ∧ b.isNaN = false := by
  cases a with
  | nan negative signalling payload => cases h
  | finite negA coA expA =>
      cases b with
      | nan negative signalling payload => cases h
      | finite negB coB expB => exact ⟨rfl, rfl⟩
      | infinity negB => exact ⟨rfl, rfl⟩
  | infinity negA =>
      cases b with
      | nan negative signalling payload => cases h
      | finite negB coB expB => exact ⟨rfl, rfl⟩
      | infinity negB => exact ⟨rfl, rfl⟩

theorem number_of_lt {answer : Bool} (h : a.lt b = .ok answer) : a.isNaN = false ∧ b.isNaN = false := by
  obtain ⟨ordering, horder, -⟩ := Fallible.map_eq_ok.mp h
  exact number_of_order horder

theorem number_of_le {answer : Bool} (h : a.le b = .ok answer) : a.isNaN = false ∧ b.isNaN = false := by
  obtain ⟨ordering, horder, -⟩ := Fallible.map_eq_ok.mp h
  exact number_of_order horder

theorem compare?_swap (a b : Decimal) : compare? b a = (compare? a b).map Ordering.swap := by
  cases a with
  | nan negative signalling payload => cases b <;> rfl
  | finite negA coA expA =>
      cases b with
      | nan negative signalling payload => rfl
      | infinity negB => cases negB <;> rfl
      | finite negB coB expB =>
          change some (compare _ _) = some (compare _ _).swap
          rw [min_comm expB expA, Std.OrientedOrd.eq_swap (a := signedAt negB coB expB (min expA expB))]
  | infinity negA =>
      cases b with
      | nan negative signalling payload => rfl
      | finite negB coB expB => cases negA <;> rfl
      | infinity negB =>
          change some (compare _ _) = some (compare _ _).swap
          rw [Std.OrientedOrd.eq_swap (a := negA.toNat)]

theorem le_of_not_lt (h : a.lt b = .ok false) : b.le a = .ok true := by
  unfold lt order at h
  unfold le order
  rw [compare?_swap a b]
  cases hcompare : compare? a b with
  | none =>
      rw [hcompare] at h
      cases h
  | some ordering =>
      rw [hcompare] at h
      cases ordering with
      | lt => cases h
      | eq => rfl
      | gt => rfl

end GoalReconciliation.Decimal

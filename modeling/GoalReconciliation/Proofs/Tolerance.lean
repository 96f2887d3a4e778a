import GoalReconciliation.Proofs.Decimal.Magnitude
import GoalReconciliation.Proofs.Decimal.Nearest
import GoalReconciliation.Tolerance

/-!
# Tolerances on exact numbers and on moderate ones

* `distance_of_rounds`, `distance_ok` : the distance of two amounts is the size of their rounded difference;
* `allowanceOf_of_rounds`, `allowanceOf_ok` : the allowance is the rounded share of the amount's size, or the floor if
  that is greater;
* `distance_fits`, `allowanceOf_fits` : both are exact where the exact numbers fit;
* `amountsMatch_fits`, `severityOf_fits` : so are then the comparison of two amounts, and what counts as low;
* `Works`, `allowance_returns`, `amountsMatch_returns`, `severityOf_returns` : a tolerance of numbers whose share is
  finite answers for all moderate amounts and their sums, rounded or not; `allowance_infinite` : one with an infinite
  share does not;
* `numbers_of_check`, `check_ok` : what the check of a tolerance needs.
-/

namespace GoalReconciliation

set_option autoImplicit false

open Decimal (Fits Rounds)
open Fallible (bind_eq_ok)

theorem Decimal.greater_worth {a b : Decimal} {p q : ℚ} (ha : a.Worth p) (hb : b.Worth q) :
    ∃ d, a.greater b = .ok d ∧ d.Worth (max p q) := by
  unfold greater
  rw [lt_of_worth ha hb]
  by_cases h : p < q
  · exact ⟨b, by rw [decide_eq_true h]; rfl, by rwa [max_eq_right h.le]⟩
  · exact ⟨a, by rw [decide_eq_false h]; rfl, by rwa [max_eq_left (not_lt.mp h)]⟩

namespace Tolerance

variable {a b d r : Decimal} {p q : ℚ}

/-! ## Distances -/

theorem distance_of_rounds (ha : a.Worth p) (hb : b.Worth q) (h : Rounds (p - q) r) :
    ∃ d, distance a b = .ok d ∧ d.Worth |r.value| := by
  obtain ⟨difference, hsub, hdifference⟩ := (Decimal.sub_settles ha hb).alike h
  obtain ⟨size, habs, hsize⟩ := Decimal.abs_fits hdifference h.rounded.2.fits
  exact ⟨size, bind_eq_ok.mpr ⟨difference, hsub, habs⟩, hsize⟩

theorem distance_ok (ha : a.Worth p) (hb : b.Worth q) (h : distance a b = .ok d) :
    ∃ r, Rounds (p - q) r ∧ d.Worth |r.value| := by
  obtain ⟨difference, hsub, -⟩ := bind_eq_ok.mp h
  have hrounds := (Decimal.sub_settles ha hb).rounds hsub
  obtain ⟨d', hd', hworth⟩ := distance_of_rounds ha hb hrounds
  obtain rfl := Except.ok.inj (h.symm.trans hd')
  exact ⟨difference, hrounds, hworth⟩

theorem distance_fits (ha : a.Worth p) (hb : b.Worth q) (h : Fits (p - q)) :
    ∃ d, distance a b = .ok d ∧ d.Worth |p - q| := by
  obtain ⟨r, hr, hworth⟩ := Decimal.rounds_of_fits h
  have hd := distance_of_rounds ha hb hr
  rwa [hworth.2] at hd

/-! ## Allowances -/

variable {share floor amount : Decimal} {s f : ℚ}

theorem allowanceOf_of_rounds (hamount : amount.Worth p) (hfits : Fits p) (hshare : share.Worth s)
    (hfloor : floor.Worth f) (h : Rounds (|p| * s) r) :
    ∃ d, allowanceOf share floor amount = .ok d ∧ d.Worth (max r.value f) := by
  obtain ⟨size, habs, hsize⟩ := Decimal.abs_fits hamount hfits
  obtain ⟨product, hmul, hproduct⟩ := (Decimal.mul_settles hsize hshare).alike h
  obtain ⟨d, hgreater, hd⟩ := Decimal.greater_worth hproduct hfloor
  exact ⟨d, bind_eq_ok.mpr ⟨size, habs, bind_eq_ok.mpr ⟨product, hmul, hgreater⟩⟩, hd⟩

theorem allowanceOf_ok (hamount : amount.Worth p) (hfits : Fits p) (hshare : share.Worth s) (hfloor : floor.Worth f)
    (h : allowanceOf share floor amount = .ok d) : ∃ r, Rounds (|p| * s) r ∧ d.Worth (max r.value f) := by
  obtain ⟨size, habs, hrest⟩ := bind_eq_ok.mp h
  obtain ⟨product, hmul, -⟩ := bind_eq_ok.mp hrest
  obtain ⟨size', habs', hsize⟩ := Decimal.abs_fits hamount hfits
  obtain rfl := Except.ok.inj (habs.symm.trans habs')
  have hrounds := (Decimal.mul_settles hsize hshare).rounds hmul
  obtain ⟨d', hd', hworth⟩ := allowanceOf_of_rounds hamount hfits hshare hfloor hrounds
  obtain rfl := Except.ok.inj (h.symm.trans hd')
  exact ⟨product, hrounds, hworth⟩

theorem allowanceOf_fits (hamount : amount.Worth p) (hfits : Fits p) (hshare : share.Worth s) (hfloor : floor.Worth f)
    (h : Fits (|p| * s)) : ∃ d, allowanceOf share floor amount = .ok d ∧ d.Worth (max (|p| * s) f) := by
  obtain ⟨r, hr, hworth⟩ := Decimal.rounds_of_fits h
  have hd := allowanceOf_of_rounds hamount hfits hshare hfloor hr
  rwa [hworth.2] at hd

/-! ## Comparisons -/

variable {t : Tolerance} {reference : Decimal}

theorem amountsMatch_fits (hamount : amount.Worth p) (hreference : reference.Worth q) (hfits : Fits q)
    (hshare : t.share.Worth s) (hfloor : t.floor.Worth f) (hdistance : Fits (p - q)) (hproduct : Fits (|q| * s)) :
    t.amountsMatch amount reference = .ok (decide (|p - q| ≤ max (|q| * s) f)) := by
  obtain ⟨size, hsize, hsizeWorth⟩ := distance_fits hamount hreference hdistance
  obtain ⟨allowed, hallowed, hallowedWorth⟩ := allowanceOf_fits hreference hfits hshare hfloor hproduct
  exact bind_eq_ok.mpr ⟨size, hsize, bind_eq_ok.mpr ⟨allowed, hallowed, Decimal.le_of_worth hsizeWorth hallowedWorth⟩⟩

theorem severityOf_fits (hamount : amount.Worth p) (hfits : Fits p) (hlow : t.lowLimit.isFinite = true)
    (hmedium : t.mediumLimit.isFinite = true) (hhigh : t.highLimit.isFinite = true) :
    ∃ severity, t.severityOf amount = .ok severity ∧ (severity = .low ↔ |p| < t.lowLimit.value) := by
  obtain ⟨size, habs, hsize⟩ := Decimal.abs_fits hamount hfits
  have hless : ∀ {limit : Decimal}, limit.isFinite = true → size.lt limit = .ok (decide (|p| < limit.value)) :=
    fun hlimit => Decimal.lt_of_worth hsize (Decimal.worth_value hlimit)
  unfold severityOf
  rw [habs]
  simp only [bind, Except.bind, hless hlow, hless hmedium, hless hhigh]
  by_cases hsmall : |p| < t.lowLimit.value
  · exact ⟨.low, by simp [hsmall, pure, Except.pure], iff_of_true rfl hsmall⟩
  · rw [decide_eq_false hsmall]
    by_cases hmiddle : |p| < t.mediumLimit.value
    · exact ⟨.medium, by simp [hmiddle, pure, Except.pure], iff_of_false (by decide) hsmall⟩
    · rw [decide_eq_false hmiddle]
      by_cases hlarge : |p| < t.highLimit.value
      · exact ⟨.high, by simp [hlarge, pure, Except.pure], iff_of_false (by decide) hsmall⟩
      · exact ⟨.critical, by simp [hlarge, pure, Except.pure], iff_of_false (by decide) hsmall⟩

/-! ## Moderate amounts and their sums -/

/-- The tolerance answers for all moderate amounts. -/
structure Works (t : Tolerance) : Prop where
  allowance : ∀ {reference : Decimal}, reference.Moderate → ∃ d, t.allowance reference = .ok d
  amountsMatch : ∀ {amount reference : Decimal}, amount.Moderate → reference.Moderate →
    ∃ answer, t.amountsMatch amount reference = .ok answer
  severity : ∀ {amount : Decimal}, amount.Moderate → ∃ severity, t.severityOf amount = .ok severity

/-- The share of an amount is far from overflowing. -/
theorem allowance_returns (hshare : t.share.isFinite = true) (hsize : |t.share.value| ≤ 10 ^ 1024)
    (hfloor : t.floor.isNaN = false) (hreference : reference.Bounded) :
    ∃ d, t.allowance reference = .ok d ∧ d.isNaN = false := by
  obtain ⟨size, habs, hbounded⟩ := Decimal.abs_bounded hreference
  have hfits : Fits (10 ^ (44 + 1024)) :=
    ⟨1, (1068 : ℕ), by decide, by decide, by decide, by rw [zpow_natCast, Int.cast_one, one_mul]⟩
  have hproduct : |size.value * t.share.value| ≤ 10 ^ (44 + 1024) := by
    rw [abs_mul, pow_add]
    exact mul_le_mul hbounded.size hsize (abs_nonneg _) (by positivity)
  obtain ⟨product, hmul, hrounds⟩ :=
    (Decimal.mul_settles (Decimal.worth_value hbounded.finite) (Decimal.worth_value hshare)).returns hfits hproduct
  obtain ⟨d, hgreater, hd⟩ := Decimal.greater_of_finite hrounds.rounded.1 hfloor
  exact ⟨d, bind_eq_ok.mpr ⟨size, habs, bind_eq_ok.mpr ⟨product, hmul, hgreater⟩⟩, hd⟩

theorem amountsMatch_returns (hshare : t.share.isFinite = true) (hsize : |t.share.value| ≤ 10 ^ 1024)
    (hfloor : t.floor.isNaN = false) (hamount : amount.Bounded) (hreference : reference.Bounded) :
    ∃ answer, t.amountsMatch amount reference = .ok answer := by
  have hamountWorth := Decimal.worth_value hamount.finite
  have hreferenceWorth := Decimal.worth_value hreference.finite
  have hfits : Fits (10 ^ 45) :=
    ⟨1, (45 : ℕ), by decide, by decide, by decide, by rw [zpow_natCast, Int.cast_one, one_mul]⟩
  have hdifference : |amount.value - reference.value| ≤ 10 ^ 45 := by
    refine (abs_sub _ _).trans ((add_le_add hamount.size hreference.size).trans ?_)
    norm_num
  obtain ⟨r, -, hrounds⟩ := (Decimal.sub_settles hamountWorth hreferenceWorth).returns hfits hdifference
  obtain ⟨size, hdistance, hsized⟩ := distance_of_rounds hamountWorth hreferenceWorth hrounds
  obtain ⟨allowed, hallowed, hnumber⟩ := allowance_returns hshare hsize hfloor hreference
  obtain ⟨answer, hle⟩ := Decimal.le_of_finite hsized.1 hnumber
  exact ⟨answer, bind_eq_ok.mpr ⟨size, hdistance, bind_eq_ok.mpr ⟨allowed, hallowed, hle⟩⟩⟩

theorem severityOf_returns (hlow : t.lowLimit.isNaN = false) (hmedium : t.mediumLimit.isNaN = false)
    (hhigh : t.highLimit.isNaN = false) (hamount : amount.Moderate) :
    ∃ severity, t.severityOf amount = .ok severity := by
  obtain ⟨size, habs, hbounded⟩ := Decimal.abs_bounded hamount.bounded
  obtain ⟨isLow, hlow⟩ := Decimal.lt_of_finite hbounded.finite hlow
  obtain ⟨isMedium, hmedium⟩ := Decimal.lt_of_finite hbounded.finite hmedium
  obtain ⟨isHigh, hhigh⟩ := Decimal.lt_of_finite hbounded.finite hhigh
  unfold severityOf
  rw [habs]
  simp only [bind, Except.bind, hlow, hmedium, hhigh]
  cases isLow <;> cases isMedium <;> cases isHigh <;> exact ⟨_, rfl⟩

/-- An infinite share has no product with a zero. -/
theorem allowance_infinite {negative : Bool} (h : t.share = .infinity negative) :
    t.allowance Decimal.zero = .error .invalidOperation := by
  unfold allowance allowanceOf
  rw [h]
  rfl

/-! ## The check -/

/-- The check compares the share and the floor, so that they are numbers. -/
theorem numbers_of_check (h : t.check = .ok ()) : t.share.isNaN = false ∧ t.floor.isNaN = false := by
  unfold check at h
  cases hshare : t.share.lt Decimal.zero with
  | error fault =>
      rw [hshare] at h
      cases h
  | ok negative =>
      cases hfloor : t.floor.lt Decimal.zero with
      | error fault =>
          rw [hshare, hfloor] at h
          cases negative <;> cases h
      | ok _ => exact ⟨(Decimal.number_of_lt hshare).1, (Decimal.number_of_lt hfloor).1⟩

theorem check_ok (hshare : t.share.lt Decimal.zero = .ok false) (hfloor : t.floor.lt Decimal.zero = .ok false)
    (hwindow : ¬t.dateWindow < 0) (hlow : t.lowLimit.le t.mediumLimit = .ok true)
    (hmedium : t.mediumLimit.le t.highLimit = .ok true) (hsplit : ¬t.splitLimit < 2) : t.check = .ok () := by
  unfold check
  rw [hshare, hfloor, hlow, hmedium, if_neg hwindow, if_neg hsplit]
  rfl

end Tolerance

end GoalReconciliation

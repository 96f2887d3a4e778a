import GoalReconciliation.Decimal.Arithmetic
import GoalReconciliation.Proofs.Decimal.Value
import GoalReconciliation.Proofs.Fallible
import Mathlib.Algebra.BigOperators.Group.List.Basic
import Mathlib.Algebra.Order.BigOperators.Group.List
import Mathlib.Data.List.Perm.Subperm

/-!
# Exact operations

An operation on finite decimals gives the exact result where that fits the working precision.

* `Settles` : a result is an exact number, settled; `add_settles`, `sub_settles`, `mul_settles`, `abs_settles`,
  `neg_settles` : the operations; `add_finite`, `sum_fault` : sums of finite decimals are finite, or too large;
* `add_fits`, `sub_fits`, `mul_fits`, `abs_fits`, `neg_fits` : where the exact numbers fit;
* `lt_of_worth`, `le_of_worth`, `equal_of_worth` : the order of finite decimals is that of the rationals;
* `Bounds` : the numbers whose size is at most a decimal, which may be infinite;
* `ExactSums` : amounts all of whose sums fit; `sum_exact` : they are summed up exactly;
* `exactSums_of_units` : amounts in whole units are such, as long as their sizes add up to at most 28 digits.
-/

namespace GoalReconciliation.Decimal

open Fallible (bind_eq_ok)

set_option autoImplicit false

/-! ## Operations -/

def Settles (result : Except Fault Decimal) (q : ℚ) : Prop :=
  ∃ negative coefficient exponent, result = settle negative coefficient exponent ∧
    (signed negative coefficient : ℚ) * 10 ^ exponent = q

theorem Settles.fits {result : Except Fault Decimal} {q : ℚ} (h : Settles result q) (hq : Fits q) :
    ∃ d, result = .ok d ∧ d.Worth q := by
  obtain ⟨negative, coefficient, exponent, rfl, rfl⟩ := h
  exact settle_fits hq

theorem add_settles {a b : Decimal} {p q : ℚ} (ha : a.Worth p) (hb : b.Worth q) :
    Settles (a.add b) (p + q) := by
  obtain ⟨negA, coA, expA, rfl, rfl⟩ := ha.parts
  obtain ⟨negB, coB, expB, rfl, rfl⟩ := hb.parts
  change ∃ negative coefficient exponent, addFinite negA coA expA negB coB expB = _ ∧ _
  unfold addFinite
  simp only []
  by_cases hA : coA = 0
  · subst hA
    by_cases hB : coB = 0
    · subst hB
      exact ⟨_, _, _, if_pos ⟨rfl, rfl⟩, by simp⟩
    · refine ⟨_, _, _, (if_neg fun e => hB e.2).trans (if_pos rfl), ?_⟩
      rw [scaled_value negB coB (max_le (min_le_right _ _) (by omega))]
      simp
  · rw [if_neg fun e => hA e.1, if_neg hA]
    by_cases hB : coB = 0
    · subst hB
      refine ⟨_, _, _, if_pos rfl, ?_⟩
      rw [scaled_value negA coA (max_le (min_le_left _ _) (by omega))]
      simp
    · refine ⟨_, _, _, if_neg hB, ?_⟩
      rw [signed_natAbs, signedAt_eq, signedAt_eq, Int.cast_add, add_mul,
        scaled_value negA coA (min_le_left _ _), scaled_value negB coB (min_le_right _ _)]

/-- What is settled is finite, or too large. -/
theorem settle_finite (negative : Bool) (coefficient : Nat) (exponent : Int) :
    settle negative coefficient exponent = .error .overflow ∨
      ∃ d, settle negative coefficient exponent = .ok d ∧ d.isFinite = true := by
  unfold settle
  simp only []
  split_ifs
  all_goals first
    | exact .inl rfl
    | exact .inr ⟨_, rfl, rfl⟩

theorem add_finite {a b : Decimal} (ha : a.isFinite = true) (hb : b.isFinite = true) :
    a.add b = .error .overflow ∨ ∃ d, a.add b = .ok d ∧ d.isFinite = true := by
  obtain ⟨negative, coefficient, exponent, hadd, -⟩ := add_settles (worth_value ha) (worth_value hb)
  rw [hadd]
  exact settle_finite negative coefficient exponent

/-- A sum of finite decimals fails only when it becomes too large. -/
theorem sum_fault {amounts : List Decimal} (h : ∀ d ∈ amounts, d.isFinite = true) {fault : Fault}
    (hfault : sum amounts = .error fault) : fault = .overflow := by
  have hfold : ∀ {start : Decimal}, start.isFinite = true → amounts.foldlM add start = .error fault →
      fault = .overflow := by
    clear hfault
    induction amounts with
    | nil => exact fun _ hnil => nomatch hnil
    | cons d rest ih =>
        intro start hstart hfault
        obtain ⟨hd, hrest⟩ := List.forall_mem_cons.mp h
        rw [List.foldlM_cons] at hfault
        rcases add_finite hstart hd with hlarge | ⟨next, hnext, hfinite⟩
        · rw [hlarge] at hfault
          exact (Except.error.inj hfault).symm
        · rw [hnext] at hfault
          exact ih hrest hfinite hfault
  exact hfold rfl hfault

theorem flip_worth {d : Decimal} {q : ℚ} (h : d.Worth q) : d.flip.Worth (-q) := by
  obtain ⟨negative, coefficient, exponent, rfl, rfl⟩ := h.parts
  refine ⟨rfl, ?_⟩
  rw [flip, value, signed_not, Int.cast_neg, neg_mul]

theorem sub_settles {a b : Decimal} {p q : ℚ} (ha : a.Worth p) (hb : b.Worth q) : Settles (a.sub b) (p - q) := by
  rw [sub_eq_add_neg]
  exact add_settles ha (flip_worth hb)

theorem mul_settles {a b : Decimal} {p q : ℚ} (ha : a.Worth p) (hb : b.Worth q) : Settles (a.mul b) (p * q) := by
  obtain ⟨negA, coA, expA, rfl, rfl⟩ := ha.parts
  obtain ⟨negB, coB, expB, rfl, rfl⟩ := hb.parts
  refine ⟨negA != negB, coA * coB, expA + expB, rfl, ?_⟩
  rw [signed_mul, zpow_add₀ (by norm_num)]
  push_cast
  ring

theorem abs_settles {d : Decimal} {q : ℚ} (hd : d.Worth q) : Settles d.abs |q| := by
  obtain ⟨negative, coefficient, exponent, rfl, rfl⟩ := hd.parts
  refine ⟨false, coefficient, exponent, rfl, ?_⟩
  rw [abs_mul, abs_signed, abs_of_pos (zpow_pos (by norm_num) _)]
  rfl

theorem neg_settles {d : Decimal} {q : ℚ} (hd : d.Worth q) : Settles d.neg (-q) := by
  obtain ⟨negative, coefficient, exponent, rfl, rfl⟩ := hd.parts
  cases coefficient with
  | zero => exact ⟨false, 0, exponent, rfl, by simp⟩
  | succ rest => exact ⟨!negative, rest + 1, exponent, rfl, by rw [signed_not, Int.cast_neg, neg_mul]⟩

theorem add_fits {a b : Decimal} {p q : ℚ} (ha : a.Worth p) (hb : b.Worth q) (h : Fits (p + q)) :
    ∃ d, a.add b = .ok d ∧ d.Worth (p + q) :=
  (add_settles ha hb).fits h

theorem sub_fits {a b : Decimal} {p q : ℚ} (ha : a.Worth p) (hb : b.Worth q) (h : Fits (p - q)) :
    ∃ d, a.sub b = .ok d ∧ d.Worth (p - q) :=
  (sub_settles ha hb).fits h

theorem mul_fits {a b : Decimal} {p q : ℚ} (ha : a.Worth p) (hb : b.Worth q) (h : Fits (p * q)) :
    ∃ d, a.mul b = .ok d ∧ d.Worth (p * q) :=
  (mul_settles ha hb).fits h

theorem abs_fits {d : Decimal} {q : ℚ} (hd : d.Worth q) (h : Fits q) : ∃ size, d.abs = .ok size ∧ size.Worth |q| :=
  (abs_settles hd).fits h.abs

theorem neg_fits {d : Decimal} {q : ℚ} (hd : d.Worth q) (h : Fits q) : ∃ n, d.neg = .ok n ∧ n.Worth (-q) :=
  (neg_settles hd).fits h.neg

theorem worth_ofInt (n : Int) : (ofInt n).Worth n := by
  refine ⟨rfl, ?_⟩
  rw [ofInt, value, signed_natAbs]
  simp

/-! ## Order -/

theorem compare?_of_worth {a b : Decimal} {p q : ℚ} (ha : a.Worth p) (hb : b.Worth q) :
    compare? a b = some (compare p q) := by
  obtain ⟨negA, coA, expA, rfl, rfl⟩ := ha.parts
  obtain ⟨negB, coB, expB, rfl, rfl⟩ := hb.parts
  have hpos : (0 : ℚ) < 10 ^ min expA expB := zpow_pos (by norm_num) _
  rw [compare?, signedAt_eq, signedAt_eq, ← scaled_value negA coA (min_le_left expA expB),
    ← scaled_value negB coB (min_le_right expA expB)]
  congr 1
  rcases lt_trichotomy (signed negA (scaled coA expA (min expA expB))) (signed negB (scaled coB expB (min expA expB)))
    with h | h | h
  · have hq : ((signed negA (scaled coA expA (min expA expB)) : ℤ) : ℚ) <
        (signed negB (scaled coB expB (min expA expB)) : ℤ) := by exact_mod_cast h
    rw [compare_lt_iff_lt.mpr h, compare_lt_iff_lt.mpr (mul_lt_mul_of_pos_right hq hpos)]
  · rw [h, compare_eq_iff_eq.mpr rfl, compare_eq_iff_eq.mpr rfl]
  · have hq : ((signed negB (scaled coB expB (min expA expB)) : ℤ) : ℚ) <
        (signed negA (scaled coA expA (min expA expB)) : ℤ) := by exact_mod_cast h
    rw [compare_gt_iff_gt.mpr h, compare_gt_iff_gt.mpr (mul_lt_mul_of_pos_right hq hpos)]

theorem lt_of_worth {a b : Decimal} {p q : ℚ} (ha : a.Worth p) (hb : b.Worth q) : a.lt b = .ok (decide (p < q)) := by
  rw [lt, order, compare?_of_worth ha hb]
  simp only [Except.map, Except.ok.injEq]
  rw [Bool.eq_iff_iff, beq_iff_eq, decide_eq_true_iff, compare_lt_iff_lt]

theorem le_of_worth {a b : Decimal} {p q : ℚ} (ha : a.Worth p) (hb : b.Worth q) : a.le b = .ok (decide (p ≤ q)) := by
  rw [le, order, compare?_of_worth ha hb]
  simp only [Except.map, Except.ok.injEq]
  rw [Bool.eq_iff_iff, bne_iff_ne, decide_eq_true_iff, compare_le_iff_le]

theorem equal_of_worth {a b : Decimal} {p q : ℚ} (ha : a.Worth p) (hb : b.Worth q) :
    a.equal b = .ok (decide (p = q)) := by
  have hcompare := compare?_of_worth ha hb
  obtain ⟨negA, coA, expA, rfl, rfl⟩ := ha.parts
  obtain ⟨negB, coB, expB, rfl, rfl⟩ := hb.parts
  rw [equal, hcompare]
  · rw [Except.ok.injEq, Bool.eq_iff_iff, beq_iff_eq, decide_eq_true_iff, Option.some.injEq, compare_eq_iff_eq]
  · rintro _ _ ⟨⟩
  · rintro _ _ ⟨⟩

/-- The numbers whose size is at most a decimal. -/
def Bounds : Decimal → ℚ → Prop
  | .infinity negative, _ => negative = false
  | .nan _ _ _, _ => False
  | d, q => |q| ≤ d.value

theorem bounds_of_worth {d : Decimal} {p q : ℚ} (hd : d.Worth p) : d.Bounds q ↔ |q| ≤ p := by
  obtain ⟨negative, coefficient, exponent, rfl, rfl⟩ := hd.parts
  rfl

theorem bounds_neg {d : Decimal} {q : ℚ} : d.Bounds (-q) ↔ d.Bounds q := by
  cases d with
  | finite negative coefficient exponent =>
      rw [bounds_of_worth (worth_finite _ _ _), bounds_of_worth (worth_finite _ _ _), abs_neg]
  | infinity _ => rfl
  | nan _ _ _ => rfl

theorem le_iff_bounds {size bound : Decimal} {q : ℚ} (hsize : size.Worth |q|) {answer : Bool}
    (h : size.le bound = .ok answer) : answer = true ↔ bound.Bounds q := by
  cases bound with
  | finite negative coefficient exponent =>
      rw [le_of_worth hsize (worth_finite _ _ _), Except.ok.injEq] at h
      rw [bounds_of_worth (worth_finite _ _ _), ← h, decide_eq_true_iff]
  | infinity negative =>
      obtain ⟨sign, coefficient, exponent, rfl, -⟩ := hsize.parts
      have hanswer : answer = !negative := by
        cases negative <;> exact (Except.ok.inj h).symm
      rw [hanswer, Bounds, Bool.not_eq_true']
  | nan negative signalling payload =>
      obtain ⟨sign, coefficient, exponent, rfl, -⟩ := hsize.parts
      cases h

theorem not_lt_of_bounds {size bound : Decimal} {q : ℚ} (hsize : size.Worth |q|) (h : bound.Bounds q) :
    bound.lt size = .ok false := by
  cases bound with
  | finite negative coefficient exponent =>
      have hle := (bounds_of_worth (worth_finite negative coefficient exponent)).mp h
      rw [lt_of_worth (worth_finite _ _ _) hsize, decide_eq_false (not_lt.mpr hle)]
  | infinity negative =>
      obtain ⟨sign, coefficient, exponent, rfl, -⟩ := hsize.parts
      obtain rfl : negative = false := h
      rfl
  | nan negative signalling payload => cases h

/-! ## Sums -/

def total (amounts : List Decimal) : ℚ :=
  (amounts.map value).sum

@[simp] theorem total_nil : total [] = 0 := rfl

@[simp] theorem total_cons (d : Decimal) (amounts : List Decimal) : total (d :: amounts) = d.value + total amounts := by
  simp [total]

theorem total_perm {as bs : List Decimal} (h : as.Perm bs) : total as = total bs :=
  (h.map value).sum_eq

/-- Amounts that add up without rounding: they are finite, and every sum of some of them fits. -/
structure ExactSums (amounts : List Decimal) : Prop where
  finite : ∀ d ∈ amounts, d.isFinite = true
  fits : ∀ chosen : List Decimal, chosen.Sublist amounts → Fits (total chosen)

theorem ExactSums.sublist {as bs : List Decimal} (h : ExactSums bs) (hsub : as.Sublist bs) : ExactSums as :=
  ⟨fun d hd => h.finite d (hsub.subset hd), fun chosen hchosen => h.fits chosen (hchosen.trans hsub)⟩

theorem ExactSums.subperm {as bs : List Decimal} (h : ExactSums bs) (hsub : as.Subperm bs) : ExactSums as := by
  obtain ⟨cs, hperm, hcs⟩ := hsub
  have hexact := h.sublist hcs
  refine ⟨fun d hd => hexact.finite d (hperm.symm.subset hd), fun chosen hchosen => ?_⟩
  obtain ⟨others, hothers, hsublist⟩ := List.exists_perm_sublist hchosen hperm.symm
  rw [← total_perm hothers]
  exact hexact.fits _ hsublist

theorem ExactSums.fits_value {amounts : List Decimal} (h : ExactSums amounts) {d : Decimal} (hd : d ∈ amounts) :
    Fits d.value := by
  simpa using h.fits [d] (List.singleton_sublist.mpr hd)

/-- A sum that goes on from an exact one, where every sum on the way fits. -/
theorem foldlM_add_exact {amounts : List Decimal} {start : Decimal} {q : ℚ} (hstart : start.Worth q)
    (hfinite : ∀ d ∈ amounts, d.isFinite = true)
    (hfits : ∀ front : List Decimal, front <+: amounts → Fits (q + total front)) :
    ∃ d, amounts.foldlM add start = .ok d ∧ d.Worth (q + total amounts) := by
  induction amounts generalizing start q with
  | nil => exact ⟨start, rfl, by simpa using hstart⟩
  | cons a amounts ih =>
      obtain ⟨ha, hfinite⟩ := List.forall_mem_cons.mp hfinite
      have hfirst : Fits (q + a.value) := by simpa using hfits [a] (List.prefix_append [a] amounts)
      obtain ⟨next, hnext, hworth⟩ := add_fits hstart (worth_value ha) hfirst
      obtain ⟨d, hd, hsum⟩ := ih hworth hfinite fun front hfront => by
        have h := hfits (a :: front) (List.cons_prefix_cons.mpr ⟨rfl, hfront⟩)
        rwa [total_cons, ← add_assoc] at h
      refine ⟨d, ?_, by rwa [total_cons, ← add_assoc]⟩
      rw [List.foldlM_cons, bind_eq_ok]
      exact ⟨next, hnext, hd⟩

theorem sum_exact {amounts : List Decimal} (h : ExactSums amounts) :
    ∃ d, sum amounts = .ok d ∧ d.Worth (total amounts) := by
  obtain ⟨d, hd, hworth⟩ := foldlM_add_exact worth_zero h.finite fun front hfront => by
    rw [zero_add]
    exact h.fits front hfront.sublist
  exact ⟨d, hd, by rwa [zero_add] at hworth⟩

/-! ## Amounts in whole units -/

def onGrid (low : Int) : Decimal → Bool
  | .finite _ _ exponent => low ≤ exponent
  | _ => false

def units (low : Int) : Decimal → Nat
  | .finite _ coefficient exponent => scaled coefficient exponent low
  | _ => 0

theorem value_onGrid {low : Int} {d : Decimal} (h : d.onGrid low = true) :
    ∃ k : ℤ, d.value = k * 10 ^ low ∧ k.natAbs ≤ d.units low := by
  cases d with
  | finite negative coefficient exponent =>
      have hle : low ≤ exponent := by simpa [onGrid] using h
      refine ⟨signed negative (scaled coefficient exponent low), ?_, (natAbs_signed _ _).le⟩
      rw [value, ← scaled_value negative coefficient hle]
  | infinity _ => cases h
  | nan _ _ _ => cases h

theorem total_onGrid {low : Int} {amounts : List Decimal} (h : ∀ d ∈ amounts, d.onGrid low = true) :
    ∃ k : ℤ, total amounts = k * 10 ^ low ∧ k.natAbs ≤ (amounts.map (units low)).sum := by
  induction amounts with
  | nil => exact ⟨0, by simp, by simp⟩
  | cons d amounts ih =>
      obtain ⟨hd, hrest⟩ := List.forall_mem_cons.mp h
      obtain ⟨k, htotal, hk⟩ := ih hrest
      obtain ⟨j, hvalue, hj⟩ := value_onGrid hd
      refine ⟨j + k, ?_, ?_⟩
      · rw [total_cons, htotal, hvalue, Int.cast_add, add_mul]
      · rw [List.map_cons, List.sum_cons]
        have := Int.natAbs_add_le j k
        omega

theorem units_sublist (low : Int) {as bs : List Decimal} (h : as.Sublist bs) :
    (as.map (units low)).sum ≤ (bs.map (units low)).sum :=
  (h.map _).sum_le_sum fun _ _ => Nat.zero_le _

theorem finite_of_onGrid {low : Int} {d : Decimal} (h : d.onGrid low = true) : d.isFinite = true := by
  cases d with
  | finite _ _ _ => rfl
  | infinity _ => cases h
  | nan _ _ _ => cases h

theorem fits_units {low k : ℤ} (hmin : minExponent ≤ low) (hmax : low ≤ maxExponent)
    (hk : k.natAbs < 10 ^ precision) : Fits (k * 10 ^ low) :=
  ⟨k, low, hk, hmin, hmax, rfl⟩

/-- Amounts in whole units, all of them together of at most 28 digits, add up without rounding. -/
theorem exactSums_of_units {low : Int} (hmin : minExponent ≤ low) (hmax : low ≤ maxExponent) {amounts : List Decimal}
    (hgrid : ∀ d ∈ amounts, d.onGrid low = true) (hsize : (amounts.map (units low)).sum < 10 ^ precision) :
    ExactSums amounts where
  finite d hd := finite_of_onGrid (hgrid d hd)
  fits chosen hchosen := by
    obtain ⟨k, htotal, hk⟩ := total_onGrid fun d hd => hgrid d (hchosen.subset hd)
    rw [htotal]
    exact fits_units hmin hmax ((hk.trans (units_sublist low hchosen)).trans_lt hsize)

end GoalReconciliation.Decimal

import GoalReconciliation.Binary64.Shortest
import GoalReconciliation.Decimal.Reader
import GoalReconciliation.Proofs.Decimal.Alike
import GoalReconciliation.Proofs.Text.Blanks
import GoalReconciliation.Proofs.Text.Digits
import Mathlib.Algebra.Order.Field.Basic
import Mathlib.Algebra.Order.Field.Power
import Mathlib.Data.Rat.Cast.Order
import Mathlib.Tactic.FieldSimp
import Mathlib.Tactic.Linarith
import Mathlib.Tactic.NormNum
import Mathlib.Tactic.Ring

/-!
# The shortest digits of a double

* `Canonical` : the mantissas and powers of doubles;
* `ten_le_two` : powers of ten below powers of two;
* `onGrid?_spec`, `onGrid?_some` : a point that is found lies in the interval, and on a fine grid there is one;
* `shortest_within` : **the digits of a double are found, and lie among the reals that round to it**;
* `shortest_mono` : **a greater double has no smaller digits**;
* `Spelling`, `digitsText_writes` : **the text of digits at a power of ten writes their number at that power**;
* `Spelling.ofText?`, `ofText?_digitsText` : **such a text is read as the decimal that it writes**.
-/

namespace GoalReconciliation.Binary64

set_option autoImplicit false

/-- The mantissas and powers of positive doubles: of 53 bits, or subnormal. -/
structure Canonical (mantissa : Nat) (power : Int) : Prop where
  pos : 0 < mantissa
  lt : mantissa < 2 ^ 53
  least : -1074 ≤ power
  most : power ≤ 971
  normal : 2 ^ 52 ≤ mantissa ∨ power = -1074

/-! ## Powers -/

theorem ten_le_two_of {a b k : ℤ} {n : ℕ} (hn : n ≠ 0) (h : n * a ≤ k * b)
    (hb : ((10 : ℚ) ^ k) ^ b ≤ ((2 : ℚ) ^ n) ^ b) : (10 : ℚ) ^ a ≤ 2 ^ b := by
  refine le_of_pow_le_pow_left₀ hn (by positivity) ?_
  calc ((10 : ℚ) ^ a) ^ n = 10 ^ (n * a) := by rw [← zpow_natCast, ← zpow_mul, mul_comm]
    _ ≤ 10 ^ (k * b) := zpow_le_zpow_right₀ (by norm_num) h
    _ = ((10 : ℚ) ^ k) ^ b := zpow_mul _ _ _
    _ ≤ ((2 : ℚ) ^ n) ^ b := hb
    _ = ((2 : ℚ) ^ b) ^ n := by rw [← zpow_natCast, zpow_comm, zpow_natCast]

/-- A power of ten is at most a power of two if its exponent is at most three tenths and ten thirty-thirds of the
other one: `10 ^ 3 ≤ 2 ^ 10` and `2 ^ 33 ≤ 10 ^ 10`. -/
theorem ten_le_two {a b : ℤ} (hpos : 10 * a ≤ 3 * b) (hneg : 33 * a ≤ 10 * b) : (10 : ℚ) ^ a ≤ 2 ^ b := by
  rcases le_total 0 b with hb | hb
  · exact ten_le_two_of (n := 10) (by decide) hpos (zpow_le_zpow_left₀ hb (by norm_num) (by norm_num))
  · obtain ⟨c, rfl⟩ : ∃ c, b = -c := ⟨-b, (neg_neg b).symm⟩
    refine ten_le_two_of (n := 33) (by decide) hneg ?_
    rw [zpow_neg, zpow_neg]
    exact inv_anti₀ (by positivity) (zpow_le_zpow_left₀ (by omega) (by norm_num) (by norm_num))

theorem pow_toNat {base : ℚ} (hbase : base ≠ 0) (z : ℤ) : base ^ z.toNat = base ^ z * base ^ (-z).toNat := by
  rw [← zpow_natCast, ← zpow_natCast, ← zpow_add₀ hbase]
  congr 1
  omega

/-! ## A grid -/

section Grid

variable (unit grid : ℤ)

def scaleOf : Nat := 2 ^ unit.toNat * 10 ^ (-grid).toNat

def stepOf : Nat := 10 ^ grid.toNat * 2 ^ (-unit).toNat

variable {unit grid}

theorem scaleOf_eq : (scaleOf unit grid : ℚ) = 2 ^ unit * 10 ^ (-grid) * stepOf unit grid := by
  have hten := pow_toNat (show (10 : ℚ) ≠ 0 by norm_num) (-grid)
  rw [neg_neg] at hten
  rw [scaleOf, stepOf]
  push_cast
  rw [pow_toNat (by norm_num) unit, hten]
  ring

theorem stepOf_pos : 0 < stepOf unit grid := by
  rw [stepOf]
  positivity

theorem scaled_le_iff {n d : Nat} :
    n * scaleOf unit grid ≤ d * stepOf unit grid ↔ (n : ℚ) * 2 ^ unit ≤ d * 10 ^ grid := by
  have hstep : (0 : ℚ) < stepOf unit grid := by exact_mod_cast stepOf_pos
  have hgrid : (0 : ℚ) < 10 ^ grid := zpow_pos (by norm_num) _
  rw [← Nat.cast_le (α := ℚ), Nat.cast_mul, Nat.cast_mul, scaleOf_eq, ← mul_assoc, mul_le_mul_iff_left₀ hstep, zpow_neg,
    ← mul_assoc, ← div_eq_mul_inv, div_le_iff₀ hgrid]

theorem le_scaled_iff {n d : Nat} :
    d * stepOf unit grid ≤ n * scaleOf unit grid ↔ (d : ℚ) * 10 ^ grid ≤ n * 2 ^ unit := by
  have hstep : (0 : ℚ) < stepOf unit grid := by exact_mod_cast stepOf_pos
  have hgrid : (0 : ℚ) < 10 ^ grid := zpow_pos (by norm_num) _
  rw [← Nat.cast_le (α := ℚ), Nat.cast_mul, Nat.cast_mul, scaleOf_eq, ← mul_assoc, mul_le_mul_iff_left₀ hstep, zpow_neg,
    ← mul_assoc, ← div_eq_mul_inv, le_div_iff₀ hgrid]

theorem step_le_scale (h : (10 : ℚ) ^ grid ≤ 2 ^ unit) : stepOf unit grid ≤ scaleOf unit grid := by
  simpa using le_scaled_iff (n := 1) (d := 1) |>.mpr (by simpa using h)

variable {i : Interval}

/-- A point of the grid is in the interval as the search tests it. -/
def Interval.inside (i : Interval) (grid : ℤ) (d : Nat) : Bool :=
  if i.closed then
    i.low * scaleOf i.unit grid ≤ d * stepOf i.unit grid && d * stepOf i.unit grid ≤ i.high * scaleOf i.unit grid
  else i.low * scaleOf i.unit grid < d * stepOf i.unit grid && d * stepOf i.unit grid < i.high * scaleOf i.unit grid

/-- A search on a grid takes one of the two points around the number, if it is positive and in the interval. -/
theorem onGrid?_eq (i : Interval) (grid : ℤ) :
    ∃ (down : Nat) (preferUp : Bool), down = i.value * scaleOf i.unit grid / stepOf i.unit grid ∧
      i.onGrid? grid =
        match decide (0 < down) && i.inside grid down, i.inside grid (down + 1) with
        | true, true => some (if preferUp = true then down + 1 else down)
        | true, false => some down
        | false, true => some (down + 1)
        | false, false => none := by
  have hscale : ∀ n : Nat, n * Natural.raised 2 i.unit.toNat * Natural.raised 10 (-grid).toNat =
      n * scaleOf i.unit grid := fun n => Nat.mul_assoc _ _ _
  unfold Interval.onGrid?
  simp only [hscale]
  exact ⟨_, _, rfl, rfl⟩

theorem inside_spec {i : Interval} {d : Nat} (h : i.inside grid d = true) :
    (i.low : ℚ) * 2 ^ i.unit ≤ d * 10 ^ grid ∧ (d : ℚ) * 10 ^ grid ≤ i.high * 2 ^ i.unit := by
  rw [← scaled_le_iff, ← le_scaled_iff]
  unfold Interval.inside at h
  split at h
  · simpa using h
  · exact (show _ < _ ∧ _ < _ by simpa using h).imp Nat.le_of_lt Nat.le_of_lt

theorem onGrid?_spec {i : Interval} {d : Nat} (h : i.onGrid? grid = some d) : 0 < d ∧ i.inside grid d = true := by
  obtain ⟨down, preferUp, -, hgrid⟩ := onGrid?_eq i grid
  rw [hgrid] at h
  cases hdown : decide (0 < down) && i.inside grid down <;> cases hup : i.inside grid (down + 1) <;>
    simp only [hdown, hup, Option.some.injEq, reduceCtorEq] at h
  · exact h ▸ ⟨Nat.succ_pos down, hup⟩
  · exact h ▸ (by simpa using hdown)
  · rw [Bool.and_eq_true, decide_eq_true_iff] at hdown
    cases preferUp with
    | true => exact h ▸ ⟨Nat.succ_pos down, hup⟩
    | false => exact h ▸ hdown

/-- On a grid that is no coarser than the units of the interval there is a point. -/
theorem onGrid?_some {i : Interval} (hlow : i.low < i.value) (hhigh : i.value < i.high)
    (hfine : (10 : ℚ) ^ grid ≤ 2 ^ i.unit) : ∃ d, i.onGrid? grid = some d := by
  obtain ⟨down, preferUp, hdef, hgrid⟩ := onGrid?_eq i grid
  have hstep := step_le_scale hfine
  have hpos : 0 < stepOf i.unit grid := stepOf_pos
  have hle : down * stepOf i.unit grid ≤ i.value * scaleOf i.unit grid := hdef ▸ Nat.div_mul_le_self _ _
  have hgt : i.value * scaleOf i.unit grid < down * stepOf i.unit grid + stepOf i.unit grid := by
    rw [hdef, ← Nat.succ_mul]
    exact Nat.lt_mul_of_div_lt (Nat.lt_succ_self _) hpos
  have habove : i.low * scaleOf i.unit grid + scaleOf i.unit grid ≤ i.value * scaleOf i.unit grid := by
    rw [← Nat.succ_mul]
    exact Nat.mul_le_mul_right _ hlow
  have hbelow : i.value * scaleOf i.unit grid + scaleOf i.unit grid ≤ i.high * scaleOf i.unit grid := by
    rw [← Nat.succ_mul]
    exact Nat.mul_le_mul_right _ hhigh
  have hinside : i.inside grid down = true := by
    unfold Interval.inside
    split <;> simp <;> omega
  have hdown : 0 < down := by
    rw [Nat.pos_iff_ne_zero]
    rintro rfl
    omega
  rw [hgrid, hinside, decide_eq_true hdown]
  cases i.inside grid (down + 1) <;> exact ⟨_, rfl⟩

end Grid

/-! ## The coarsest grid -/

section Coarsest

variable {i : Interval} {count : Nat} {grid : ℤ}

theorem coarsest_spec {digits : Nat} {g : ℤ} (h : i.coarsest count grid = some (digits, g)) :
    i.onGrid? g = some digits := by
  induction count generalizing grid with
  | zero => cases h
  | succ count ih =>
      rw [Interval.coarsest] at h
      cases hgrid : i.onGrid? grid with
      | none =>
          rw [hgrid] at h
          exact ih h
      | some d =>
          rw [hgrid] at h
          obtain ⟨rfl, rfl⟩ := Prod.mk.inj (Option.some.inj h)
          exact hgrid

/-- The search ends where one of its grids has a point. -/
theorem coarsest_some {k : Nat} (hk : k < count) {d : Nat} (h : i.onGrid? (grid - k) = some d) :
    ∃ out, i.coarsest count grid = some out := by
  induction count generalizing grid k with
  | zero => omega
  | succ count ih =>
      rw [Interval.coarsest]
      cases hgrid : i.onGrid? grid with
      | some d => exact ⟨_, rfl⟩
      | none =>
          cases k with
          | zero =>
              rw [Nat.cast_zero, sub_zero, hgrid] at h
              cases h
          | succ k => exact ih (k := k) (by omega) (by rwa [Nat.cast_succ, add_comm, ← sub_sub] at h)

end Coarsest

/-! ## The digits of a double -/

section Shortest

variable {m m' : Nat} {p p' : ℤ}

theorem high_eq : (interval m p).high = 4 * m + 2 := rfl

theorem low_bounds (hm : 0 < m) : 4 * m - 2 ≤ (interval m p).low ∧ (interval m p).low < 4 * m := by
  change 4 * m - 2 ≤ 4 * m - (if _ then 1 else 2) ∧ 4 * m - (if _ then 1 else 2) < 4 * m
  split <;> omega

def shortestValue (m : Nat) (p : ℤ) : ℚ :=
  (shortest m p).1 * 10 ^ (shortest m p).2

/-- The last grid that is searched is no coarser than the units of the interval. -/
theorem last_grid_fine (h : Canonical m p) :
    (10 : ℚ) ^ (((Nat.log2 m : ℤ) + p) * 30103 / 100000 + 1 - 23) ≤ 2 ^ (p - 2) := by
  have hlog : Nat.log2 m < 53 := (Nat.log2_lt h.pos.ne').mpr h.lt
  have hleast := h.least
  have hmost := h.most
  exact ten_le_two (by omega) (by omega)

/-- **The digits of a double are found, and they lie among the reals that round to it.** -/
theorem shortest_within (h : Canonical m p) :
    0 < (shortest m p).1 ∧ ((interval m p).low : ℚ) * 2 ^ (p - 2) ≤ shortestValue m p ∧
      shortestValue m p ≤ (interval m p).high * 2 ^ (p - 2) := by
  have hhigh : (interval m p).value < (interval m p).high := Nat.lt_add_of_pos_right (by decide)
  obtain ⟨d, hd⟩ := onGrid?_some (i := interval m p) (low_bounds h.pos).2 hhigh (last_grid_fine h)
  obtain ⟨⟨digits, grid⟩, hfound⟩ := coarsest_some (show 23 < 24 by decide) hd
  have hshortest : shortest m p = (digits, grid) := by
    rw [shortest, hfound]
    rfl
  obtain ⟨hdigits, hinside⟩ := onGrid?_spec (coarsest_spec hfound)
  rw [shortestValue, hshortest]
  exact ⟨hdigits, inside_spec hinside⟩

theorem shortestValue_pos (h : Canonical m p) : 0 < shortestValue m p :=
  mul_pos (Nat.cast_pos.mpr (shortest_within h).1) (zpow_pos (by norm_num) _)

theorem shortestValue_le_max (h : Canonical m p) : shortestValue m p ≤ 2 ^ 1024 := by
  have hm := h.lt
  have hp := h.most
  have hhigh : ((interval m p).high : ℚ) ≤ 2 ^ 55 := by
    rw [high_eq]
    exact_mod_cast (by omega : 4 * m + 2 ≤ 2 ^ 55)
  calc shortestValue m p ≤ (interval m p).high * 2 ^ (p - 2) := (shortest_within h).2.2
    _ ≤ 2 ^ 55 * 2 ^ (969 : ℤ) :=
        mul_le_mul hhigh (zpow_le_zpow_right₀ (by norm_num) (by omega)) (by positivity) (by positivity)
    _ = 2 ^ 1024 := by rw [zpow_ofNat, ← pow_add]

/-- The interval of a lesser double ends where that of a greater one begins, or before. -/
theorem high_le_low (h : Canonical m p) (h' : Canonical m' p') (hlt : p < p' ∨ p = p' ∧ m < m') :
    ((interval m p).high : ℚ) * 2 ^ (p - 2) ≤ (interval m' p').low * 2 ^ (p' - 2) := by
  have hlow := low_bounds (p := p') h'.pos
  have hm := h.lt
  rcases hlt with hlt | ⟨rfl, hlt⟩
  · -- the greater one is normal: its interval begins at `2 ^ 54 - 1` or above, as the spacing halves there
    have hnormal : 2 ^ 52 ≤ m' := h'.normal.resolve_right fun hleast => by
      have := h.least
      omega
    have hbegin : 2 ^ 54 - 1 ≤ (interval m' p').low := by
      by_cases hpower : m' = 2 ^ 52
      · have hhalved : (interval m' p').low = 4 * m' - 1 :=
          congrArg (4 * m' - ·) (if_pos ⟨hpower, by have := h.least; omega⟩)
        omega
      · omega
    have hend : (interval m p).high ≤ 2 * (2 ^ 54 - 1) := by
      rw [high_eq]
      omega
    calc ((interval m p).high : ℚ) * 2 ^ (p - 2)
        ≤ (2 * (2 ^ 54 - 1) : ℕ) * 2 ^ (p - 2) := mul_le_mul_of_nonneg_right (by exact_mod_cast hend) (by positivity)
      _ = (2 ^ 54 - 1 : ℕ) * 2 ^ (p - 1) := by
          rw [show p - 1 = p - 2 + 1 by omega, zpow_add_one₀ (by norm_num)]
          push_cast
          ring
      _ ≤ (2 ^ 54 - 1 : ℕ) * 2 ^ (p' - 2) :=
          mul_le_mul_of_nonneg_left (zpow_le_zpow_right₀ (by norm_num) (by omega)) (Nat.cast_nonneg _)
      _ ≤ (interval m' p').low * 2 ^ (p' - 2) := mul_le_mul_of_nonneg_right (by exact_mod_cast hbegin) (by positivity)
  · have hle : (interval m p).high ≤ (interval m' p).low := by
      rw [high_eq]
      omega
    exact mul_le_mul_of_nonneg_right (by exact_mod_cast hle) (by positivity)

/-- **A greater double has no smaller digits.** -/
theorem shortest_mono (h : Canonical m p) (h' : Canonical m' p') (hle : p < p' ∨ p = p' ∧ m ≤ m') :
    shortestValue m p ≤ shortestValue m' p' := by
  by_cases hsame : p = p' ∧ m = m'
  · obtain ⟨rfl, rfl⟩ := hsame
    exact le_refl _
  · have hlt : p < p' ∨ p = p' ∧ m < m' := by omega
    exact (shortest_within h).2.2.trans ((high_le_low h h' hlt).trans (shortest_within h').2.1)

end Shortest

/-! ## The text of a double -/

section Spelling

def Digits (cs : List Char) : Prop :=
  ∀ c ∈ cs, c.isDigit = true

def placesChars (fraction : List Char) : List Char :=
  if fraction = [] then [] else '.' :: fraction

def exponentChars : Option ℤ → List Char
  | none => []
  | some k => 'e' :: (if k < 0 then '-' else '+') :: (Text.padded 2 k.natAbs).toList

/-- The texts of doubles without their sign, with the coefficient and the power of ten that they write. -/
inductive Spelling : List Char → Nat → ℤ → Prop
  | mk (whole fraction : List Char) (exponent : Option ℤ) (hne : whole ≠ []) (hwhole : Digits whole)
      (hfraction : Digits fraction) :
      Spelling (whole ++ (placesChars fraction ++ exponentChars exponent)) (Nat.ofDigitChars 10 (whole ++ fraction) 0)
        (exponent.getD 0 - fraction.length)

variable {cs rest : List Char} {n : Nat} {e : ℤ}

theorem spanDigits_append (h : Digits cs) (hrest : Decimal.spanDigits rest = ([], rest)) :
    Decimal.spanDigits (cs ++ rest) = (cs.map fun c => c.toNat - 48, rest) := by
  induction cs with
  | nil => exact hrest
  | cons c cs ih =>
      obtain ⟨hc, hcs⟩ := List.forall_mem_cons.mp h
      rw [List.cons_append, Decimal.spanDigits, Text.digit?_of_isDigit hc]
      simp only [ih hcs]
      rfl

theorem spanDigits_exponent (exponent : Option ℤ) :
    Decimal.spanDigits (exponentChars exponent) = ([], exponentChars exponent) := by
  cases exponent <;> rfl

theorem exponent?_chars (exponent : Option ℤ) :
    Decimal.exponent? (exponentChars exponent) = some (exponent.getD 0) := by
  cases exponent with
  | none => rfl
  | some k =>
      obtain ⟨c, cs, hcs⟩ := List.exists_cons_of_ne_nil (Text.padded_ne_nil 2 k.natAbs)
      have hspan := spanDigits_append (Text.padded_isDigit 2 k.natAbs) (show Decimal.spanDigits [] = ([], []) from rfl)
      have hvalue := Text.ofDigits_values (Text.padded 2 k.natAbs).toList
      rw [List.append_nil, hcs, List.map_cons] at hspan
      rw [Text.ofDigitChars_padded, hcs, List.map_cons] at hvalue
      rw [exponentChars, Decimal.exponent?, if_pos (Or.inl rfl), hcs]
      by_cases hk : k < 0
      · simp [hk, Decimal.spanSign, hspan, hvalue, abs_of_neg]
      · simp [hk, Decimal.spanSign, hspan, hvalue, abs_of_nonneg (not_lt.mp hk)]

theorem Spelling.finite? (h : Spelling cs n e) (negative : Bool) :
    Decimal.finite? negative cs = some (.finite negative n e) := by
  obtain ⟨whole, fraction, exponent, hne, hwhole, hfraction⟩ := h
  have hsome : (whole.map fun c => c.toNat - 48).isEmpty = false := by simpa using hne
  have hplaces : Decimal.spanDigits (placesChars fraction ++ exponentChars exponent) =
      ([], placesChars fraction ++ exponentChars exponent) := by
    cases fraction with
    | nil => exact spanDigits_exponent exponent
    | cons c fraction => rfl
  have hfractionSpan := spanDigits_append hfraction (spanDigits_exponent exponent)
  unfold Decimal.finite?
  rw [spanDigits_append hwhole hplaces]
  cases fraction with
  | nil =>
      -- the match on the rest takes its second branch, as no exponent begins with a point
      have hpoint : ∀ rest, exponentChars exponent ≠ '.' :: rest := by
        intro rest
        cases exponent <;> simp [exponentChars]
      simp [placesChars, hsome, exponent?_chars, Text.ofDigits_values]
  | cons c fraction =>
      rw [List.cons_append] at hfractionSpan
      simp only [placesChars, reduceCtorEq, if_false, List.cons_append, hfractionSpan, hsome, Bool.false_and,
        Bool.false_eq_true, exponent?_chars, Option.map_some, ← List.map_append, Text.ofDigits_values, List.length_map]

theorem Spelling.head (h : Spelling cs n e) : ∃ c rest, cs = c :: rest ∧ c.isDigit = true := by
  obtain ⟨whole, fraction, exponent, hne, hwhole, hfraction⟩ := h
  obtain ⟨c, rest, rfl⟩ := List.exists_cons_of_ne_nil hne
  exact ⟨c, _, rfl, hwhole c List.mem_cons_self⟩

/-- A character that a reader of decimals takes as it is: neither white space nor an underscore. -/
def Kept (c : Char) : Prop :=
  Text.isBlank c = false ∧ c ≠ '_'

instance (c : Char) : Decidable (Kept c) :=
  inferInstanceAs (Decidable (_ ∧ _))

theorem kept_of_isDigit {c : Char} (h : c.isDigit = true) : Kept c := by
  obtain ⟨hlow, hhigh⟩ := Text.isDigit_iff.mp h
  refine ⟨?_, ?_⟩
  · have hblank : ¬Text.isBlank c = true := by
      simp only [Text.isBlank, Bool.or_eq_true, Bool.and_eq_true, decide_eq_true_eq, beq_iff_eq]
      omega
    simpa using hblank
  · rintro rfl
    exact absurd hhigh (by decide)

theorem kept_sign (negative : Bool) : ∀ c ∈ if negative then ['-'] else [], Kept c := by
  have hminus : Kept '-' := by decide
  cases negative <;> simp [hminus]

theorem Spelling.kept (h : Spelling cs n e) : ∀ c ∈ cs, Kept c := by
  obtain ⟨whole, fraction, exponent, hne, hwhole, hfraction⟩ := h
  have hplaces : ∀ c ∈ placesChars fraction, Kept c := by
    cases fraction with
    | nil => simp [placesChars]
    | cons c fraction => exact List.forall_mem_cons.mpr ⟨by decide, fun c hc => kept_of_isDigit (hfraction c hc)⟩
  have hexponent : ∀ c ∈ exponentChars exponent, Kept c := by
    cases exponent with
    | none => simp [exponentChars]
    | some k =>
        refine List.forall_mem_cons.mpr ⟨by decide, List.forall_mem_cons.mpr ⟨by split <;> decide, fun c hc => ?_⟩⟩
        exact kept_of_isDigit (Text.padded_isDigit 2 k.natAbs c hc)
  exact List.forall_mem_append.mpr
    ⟨fun c hc => kept_of_isDigit (hwhole c hc), List.forall_mem_append.mpr ⟨hplaces, hexponent⟩⟩

theorem toLower_of_isDigit {c : Char} (h : c.isDigit = true) : c.toLower = c := by
  have hhigh := (Text.isDigit_iff.mp h).2
  refine dif_neg ?_
  rintro ⟨hlow, -⟩
  have hletter : 65 ≤ c.toNat := hlow
  omega

theorem spanSign_digit {c : Char} (h : c.isDigit = true) (negative : Bool) (rest : List Char) :
    Decimal.spanSign ((if negative then ['-'] else []) ++ c :: rest) = (negative, c :: rest) := by
  cases negative with
  | true => rfl
  | false =>
      have hminus : c ≠ '-' := by
        rintro rfl
        cases h
      have hplus : c ≠ '+' := by
        rintro rfl
        cases h
      simp [Decimal.spanSign, hminus, hplus]

/-- **The text of a double, with its sign, reads as the decimal that it writes.** -/
theorem Spelling.ofText? (h : Spelling cs n e) (negative : Bool) :
    Decimal.ofText? (String.ofList ((if negative then ['-'] else []) ++ cs)) = some (.finite negative n e) := by
  have hkept := List.forall_mem_append.mpr ⟨kept_sign negative, h.kept⟩
  obtain ⟨c, rest, rfl, hc⟩ := h.head
  have hstrip := Text.strip_framed (w := []) (by simp [Text.Blanks]) (by simp) (fun c hc => (hkept c hc).1) []
  have hfilter : ((if negative then ['-'] else []) ++ c :: rest).filter (· ≠ '_') =
      (if negative then ['-'] else []) ++ c :: rest :=
    List.filter_eq_self.mpr fun c hc => decide_eq_true (hkept c hc).2
  have hletters : (c :: rest).map Char.toLower ≠ "inf".toList ∧ (c :: rest).map Char.toLower ≠ "infinity".toList := by
    have hi : c ≠ 'i' := by
      rintro rfl
      cases hc
    rw [List.map_cons, toLower_of_isDigit hc]
    exact ⟨fun heq => hi (List.cons.inj heq).1, fun heq => hi (List.cons.inj heq).1⟩
  rw [List.append_nil, List.nil_append] at hstrip
  have hend : Text.stripRight [] = [] := rfl
  unfold Decimal.ofText?
  rw [hstrip, hend, List.append_nil, String.toList_ofList, hfilter, spanSign_digit hc]
  simp only [not_or.mpr hletters, if_false, h.finite? negative, Option.orElse]

theorem digits_zeros (count : Nat) : Digits (List.replicate count '0') := by
  intro c hc
  rw [List.eq_of_mem_replicate hc]
  rfl

theorem exponentText_toList (k : ℤ) :
    ("e" ++ (if k < 0 then "-" else "+") ++ (if (toString k.natAbs).length < 2 then "0" else "") ++
      toString k.natAbs).toList = exponentChars (some k) := by
  have hsign : (if k < 0 then "-" else "+").toList = [if k < 0 then '-' else '+'] := by split <;> rfl
  have hpad : (if (toString k.natAbs).length < 2 then "0" else "").toList =
      List.replicate (2 - (toString k.natAbs).length) '0' := by
    have hlength : 0 < (toString k.natAbs).length := by
      simp [Nat.toString_eq_repr, Nat.repr_eq_ofList_toDigits, Nat.length_toDigits_pos]
    generalize (toString k.natAbs).length = length at hlength
    split
    · obtain rfl : length = 1 := by omega
      rfl
    · rw [Nat.sub_eq_zero_of_le (by omega)]
      rfl
  simp only [String.toList_append, hsign, hpad, exponentChars, Text.padded, String.toList_ofList]
  rfl

/-- A text that writes `n` at a power of ten. -/
def Writes (cs : List Char) (n : Nat) (grid : ℤ) : Prop :=
  ∃ c e, Spelling cs c e ∧ (c : ℚ) * 10 ^ e = n * 10 ^ grid

theorem writes (whole fraction : List Char) (exponent : Option ℤ) {grid : ℤ}
    (hcs : cs = whole ++ (placesChars fraction ++ exponentChars exponent)) (hne : whole ≠ [])
    (hdigits : Digits (whole ++ fraction))
    (hvalue : (Nat.ofDigitChars 10 (whole ++ fraction) 0 : ℚ) * 10 ^ (exponent.getD 0 - fraction.length) =
      n * 10 ^ grid) : Writes cs n grid :=
  have ⟨hwhole, hfraction⟩ := List.forall_mem_append.mp hdigits
  hcs ▸ ⟨_, _, .mk whole fraction exponent hne hwhole hfraction, hvalue⟩

/-- **The text of digits at a power of ten writes their number at that power.** -/
theorem digitsText_writes {ds : List Char} (hne : ds ≠ []) (hds : Digits ds) (grid : ℤ) :
    Writes (digitsText (String.ofList ds) grid).toList (Nat.ofDigitChars 10 ds 0) grid := by
  have hpos : 0 < ds.length := List.length_pos_iff.mpr hne
  unfold digitsText
  simp only [String.length_ofList, String.toList_ofList]
  split
  · split
    · -- zeros stand between the point and the digits
      rename_i hsmall
      generalize hz : (-(grid + ds.length)).toNat = zeros
      have hplaces : (0 : ℤ) - (List.replicate zeros '0' ++ ds).length = grid := by
        rw [List.length_append, List.length_replicate]
        omega
      refine writes ['0'] (List.replicate zeros '0' ++ ds) none ?_ (by simp) ?_ ?_
      · simp [placesChars, exponentChars, hne]
      · exact List.forall_mem_append.mpr ⟨digits_zeros 1, List.forall_mem_append.mpr ⟨digits_zeros zeros, hds⟩⟩
      · rw [Option.getD_none, hplaces]
        simp [Nat.ofDigitChars_cons, Nat.ofDigitChars_append]
    · split
      · -- zeros stand between the digits and the point
        rename_i hwhole
        generalize hz : (grid + ds.length).toNat - ds.length = zeros
        obtain rfl : grid = zeros := by omega
        refine writes (ds ++ List.replicate zeros '0') ['0'] none ?_ (by simp [hne]) ?_ ?_
        · simp [placesChars, exponentChars]
        · exact List.forall_mem_append.mpr ⟨List.forall_mem_append.mpr ⟨hds, digits_zeros zeros⟩, digits_zeros 1⟩
        · simp [Nat.ofDigitChars_cons, Nat.ofDigitChars_append]
          field_simp
      · -- the point stands among the digits
        rename_i hwhole
        generalize hz : (grid + ds.length).toNat = point
        have hplaces : (0 : ℤ) - (ds.drop point).length = grid := by
          rw [List.length_drop]
          omega
        refine writes (ds.take point) (ds.drop point) none ?_ (by simp [hne]; omega) ?_ ?_
        · simp [placesChars, exponentChars]
          omega
        · rwa [List.take_append_drop]
        · rw [Option.getD_none, hplaces, List.take_append_drop]
  · -- one digit stands before the point
    obtain ⟨c, rest, rfl⟩ := List.exists_cons_of_ne_nil hne
    refine writes [c] rest (some (grid + (c :: rest).length - 1)) ?_ (by simp) hds ?_
    · rw [← exponentText_toList]
      cases rest <;> simp [placesChars]
    · rw [Option.getD_some, List.length_cons, show grid + (rest.length + 1 : ℕ) - 1 - rest.length = grid by omega]
      rfl

/-- **A number written in digits at a power of ten, with a sign, is read as itself.** -/
theorem ofText?_digitsText (negative : Bool) (n : Nat) (grid : ℤ) :
    ∃ d, Decimal.ofText? ((if negative = true then "-" else "") ++ digitsText (toString n) grid) = some d ∧
      d.Worth (Decimal.turned negative (n * 10 ^ grid)) := by
  have hdigits : Digits (Nat.toDigits 10 n) := fun c hc => Nat.isDigit_of_mem_toDigits (by decide) (by decide) hc
  obtain ⟨coefficient, exponent, hspelling, hvalue⟩ := digitsText_writes Nat.toDigits_ne_nil hdigits grid
  have htext : (if negative = true then "-" else "") ++ digitsText (toString n) grid =
      String.ofList
        ((if negative then ['-'] else []) ++ (digitsText (String.ofList (Nat.toDigits 10 n)) grid).toList) := by
    rw [String.ofList_append, String.ofList_toList, ← Nat.toString_eq_ofList_toDigits]
    cases negative <;> rfl
  rw [Nat.ofDigitChars_ten_toDigits] at hvalue
  rw [htext]
  refine ⟨_, hspelling.ofText? negative, rfl, ?_⟩
  rw [Decimal.value, ← hvalue]
  cases negative
  · rfl
  · rw [Decimal.signed, if_pos rfl, Int.cast_neg, Int.cast_natCast, neg_mul]
    rfl

end Spelling

end GoalReconciliation.Binary64

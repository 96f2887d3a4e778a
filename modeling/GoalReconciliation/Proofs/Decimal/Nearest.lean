import GoalReconciliation.Proofs.Decimal.Alike

/-!
# Where rounding leaves a result

Rounding leads from an exact result to a neighbour that fits the working precision. So it never leads across another
number that fits.

* `Beside` : a number on no other side of any number that fits; `Rounded` : one that fits itself;
* `dropped_sides` : the digits that are left when others are dropped;
* `settle_rounded` : **what an exact result is settled as is such a number**; `settle_returns` : it is settled if its size
  is at most a number that fits;
* `Rounds` : the decimal that an exact result is settled as, in whichever way the exact result is written;
  `Rounds.value_eq`, `rounds_of_fits` : it has one value, which is the exact result itself where that fits.
-/

namespace GoalReconciliation.Decimal

set_option autoImplicit false

/-- A number that lies on no other side than `q` of any number that fits. -/
structure Beside (q r : ℚ) : Prop where
  above : ∀ {x : ℚ}, Fits x → x ≤ q → x ≤ r
  below : ∀ {x : ℚ}, Fits x → q ≤ x → r ≤ x

/-- Such a number that fits itself. -/
structure Rounded (q r : ℚ) : Prop extends Beside q r where
  fits : Fits r

theorem fits_zero : Fits 0 :=
  ⟨0, 0, by decide, by decide, by decide, by simp⟩

section Sides

variable {p q r : ℚ}

theorem Beside.refl (q : ℚ) : Beside q q := ⟨fun _ h => h, fun _ h => h⟩

theorem Beside.trans (h : Beside p q) (h' : Beside q r) : Beside p r where
  above hx hle := h'.above hx (h.above hx hle)
  below hx hle := h'.below hx (h.below hx hle)

theorem Beside.neg (h : Beside q r) : Beside (-q) (-r) where
  above hx hle := le_neg_of_le_neg (h.below hx.neg (le_neg_of_le_neg hle))
  below hx hle := neg_le_of_neg_le (h.above hx.neg (neg_le_of_neg_le hle))

theorem Beside.turned (h : Beside q r) (turn : Bool) : Beside (Decimal.turned turn q) (Decimal.turned turn r) := by
  cases turn with
  | false => exact h
  | true => exact h.neg

theorem Beside.size_le (h : Beside q r) {x : ℚ} (hx : Fits x) (hq : |q| ≤ x) : |r| ≤ x := by
  obtain ⟨hlow, hhigh⟩ := abs_le.mp hq
  exact abs_le.mpr ⟨h.above hx.neg hlow, h.below hx hhigh⟩

/-- The sides of numbers that fit and are not negative tell those of all numbers that fit. -/
theorem beside_of_nonneg (hq : 0 ≤ q) (hr : 0 ≤ r) (habove : ∀ x, Fits x → 0 ≤ x → x ≤ q → x ≤ r)
    (hbelow : ∀ x, Fits x → 0 ≤ x → q ≤ x → r ≤ x) : Beside q r where
  above {x} hx hle := by
    rcases le_total 0 x with hnonneg | hneg
    · exact habove x hx hnonneg hle
    · exact hneg.trans hr
  below {x} hx hle := hbelow x hx (hq.trans hle) hle

theorem rounded_of_fits (h : Fits q) : Rounded q q :=
  { Beside.refl q with fits := h }

theorem Rounded.turned (h : Rounded q r) (turn : Bool) :
    Rounded (Decimal.turned turn q) (Decimal.turned turn r) :=
  { h.toBeside.turned turn with
    fits := by
      cases turn with
      | false => exact h.fits
      | true => exact h.fits.neg }

end Sides

/-! ## Digits dropped -/

/-- Digits are dropped as they are, or the last digit kept is raised where something else than zeros is dropped. -/
theorem dropDigits_cases (n count : Nat) :
    dropDigits n count = n / 10 ^ count ∨ dropDigits n count = n / 10 ^ count + 1 ∧ 0 < n % 10 ^ count := by
  have hpos : 0 < Natural.raised 10 count := Nat.pow_pos (by omega)
  rw [← raised_eq]
  unfold dropDigits
  simp only []
  split
  · rename_i hup
    exact .inr ⟨rfl, by omega⟩
  · exact .inl rfl

theorem le_dropDigits {n count j : Nat} (h : j * 10 ^ count ≤ n) : j ≤ dropDigits n count := by
  have hquotient : j ≤ n / 10 ^ count := (Nat.le_div_iff_mul_le (Nat.pow_pos (by omega))).mpr h
  obtain hkept | ⟨hraised, -⟩ := dropDigits_cases n count
  · rwa [hkept]
  · omega

theorem dropDigits_le_of_le {n count j : Nat} (h : n ≤ j * 10 ^ count) : dropDigits n count ≤ j := by
  have hpos : 0 < 10 ^ count := Nat.pow_pos (by omega)
  have hsplit := Nat.div_add_mod' n (10 ^ count)
  obtain hkept | ⟨hraised, hrest⟩ := dropDigits_cases n count
  · rw [hkept]
    have hle : n / 10 ^ count * 10 ^ count ≤ j * 10 ^ count := by omega
    exact Nat.le_of_mul_le_mul_right hle hpos
  · rw [hraised]
    have hlt : n / 10 ^ count * 10 ^ count < j * 10 ^ count := by omega
    exact Nat.lt_of_mul_lt_mul_right hlt

/-- A number that fits is a multiple of a unit in range, or has fewer than 28 digits above the unit. -/
theorem Fits.multiple_or_small {x : ℚ} (hx : Fits x) (hnonneg : 0 ≤ x) (least : ℤ) :
    (∃ j : ℕ, x = j * 10 ^ least) ∨ minExponent < least ∧ x < 10 ^ (least + precision - 1) := by
  obtain ⟨c, e, hc, hmin, hmax, rfl⟩ := hx
  have hpow : ∀ k : ℤ, (0 : ℚ) < 10 ^ k := fun k => zpow_pos (by norm_num) k
  have hsign : (0 : ℚ) ≤ c := nonneg_of_mul_nonneg_left hnonneg (hpow e)
  obtain ⟨n, rfl⟩ := Int.eq_ofNat_of_zero_le (by exact_mod_cast hsign : (0 : ℤ) ≤ c)
  rw [Int.cast_natCast]
  rcases le_or_gt least e with hle | hgt
  · refine .inl ⟨n * 10 ^ (e - least).toNat, ?_⟩
    rw [Nat.cast_mul, mul_assoc, units_of_place hle]
  · refine .inr ⟨by omega, ?_⟩
    have hdigits : (n : ℚ) < 10 ^ (precision : ℤ) := by
      rw [zpow_natCast]
      exact_mod_cast hc
    calc (n : ℚ) * 10 ^ e < 10 ^ (precision : ℤ) * 10 ^ e := mul_lt_mul_of_pos_right hdigits (hpow e)
      _ = 10 ^ (precision + e) := (zpow_add₀ (by norm_num) _ _).symm
      _ ≤ 10 ^ (least + precision - 1) := zpow_le_zpow_right₀ (by norm_num) (by omega)

section Places

variable {m : Nat} {e least : Int}

theorem dropped_sides (hm : 0 < m) (hleast : least = max ((digitCount m : Int) + e - precision) minExponent)
    (hroom : e < least) {x : ℚ} (hx : Fits x) (hnonneg : 0 ≤ x) :
    (x ≤ m * 10 ^ e → x ≤ dropDigits m (least - e).toNat * 10 ^ least) ∧
      (m * 10 ^ e ≤ x → dropDigits m (least - e).toNat * 10 ^ least ≤ x) := by
  have hpow : ∀ k : ℤ, (0 : ℚ) < 10 ^ k := fun k => zpow_pos (by norm_num) k
  have hunit : ∀ n : ℕ, (n : ℚ) * 10 ^ least = (n * 10 ^ (least - e).toNat : ℕ) * 10 ^ e := fun n => by
    rw [Nat.cast_mul, mul_assoc, units_of_place hroom.le]
  obtain ⟨j, rfl⟩ | ⟨hmin, hsmall⟩ := hx.multiple_or_small hnonneg least
  · constructor
    · intro hle
      rw [hunit] at hle
      have hdigits : j * 10 ^ (least - e).toNat ≤ m := by exact_mod_cast le_of_mul_le_mul_right hle (hpow e)
      exact mul_le_mul_of_nonneg_right (by exact_mod_cast le_dropDigits hdigits) (hpow least).le
    · intro hle
      rw [hunit] at hle
      have hdigits : m ≤ j * 10 ^ (least - e).toNat := by exact_mod_cast le_of_mul_le_mul_right hle (hpow e)
      exact mul_le_mul_of_nonneg_right (by exact_mod_cast dropDigits_le_of_le hdigits) (hpow least).le
  · -- All 28 places above the unit are taken, so that the number is below what is rounded and below the result.
    have hfirst := (digitCount_bounds hm).1
    have hcount := digitCount_pos m
    have hplace : (digitCount m - 1 : ℕ) = (least - e).toNat + (precision - 1) := by
      unfold precision at hleast ⊢
      omega
    rw [hplace, pow_add, mul_comm] at hfirst
    have hdropped : x < dropDigits m (least - e).toNat * 10 ^ least := by
      refine hsmall.trans_le ?_
      rw [show least + precision - 1 = ((precision - 1 : ℕ) : ℤ) + least by unfold precision; omega,
        zpow_add₀ (by norm_num), zpow_natCast]
      refine mul_le_mul_of_nonneg_right ?_ (hpow least).le
      exact_mod_cast le_dropDigits hfirst
    have hexact : x < m * 10 ^ e := by
      refine hsmall.trans_le ?_
      rw [show least + precision - 1 = ((precision - 1 : ℕ) : ℤ) + least by unfold precision; omega,
        zpow_add₀ (by norm_num), zpow_natCast]
      have hscaled := hunit (10 ^ (precision - 1))
      push_cast at hscaled
      rw [hscaled]
      refine mul_le_mul_of_nonneg_right ?_ (hpow e).le
      exact_mod_cast hfirst
    exact ⟨fun _ => hdropped.le, fun hle => absurd hle (not_le.mpr hexact)⟩

/-- A number whose size leaves no place in range for its first digit is greater than every number that fits. -/
theorem Fits.lt_of_place {x : ℚ} (hx : Fits x) {n : ℕ} {place : ℤ} (hn : 10 ^ (precision - 1) ≤ n)
    (hplace : maxExponent < place) : x < n * 10 ^ place := by
  obtain ⟨c, e', hc, -, hmax, rfl⟩ := hx
  have hpow : ∀ k : ℤ, (0 : ℚ) < 10 ^ k := fun k => zpow_pos (by norm_num) k
  have hdigits : (c : ℚ) < 10 ^ (precision : ℤ) := by
    have hle : c < ((10 ^ precision : ℕ) : ℤ) := by omega
    rw [zpow_natCast]
    exact_mod_cast hle
  calc (c : ℚ) * 10 ^ e' < 10 ^ (precision : ℤ) * 10 ^ e' := mul_lt_mul_of_pos_right hdigits (hpow e')
    _ = 10 ^ (precision + e') := (zpow_add₀ (by norm_num) _ _).symm
    _ ≤ 10 ^ (((precision - 1 : ℕ) : ℤ) + place) := zpow_le_zpow_right₀ (by norm_num) (by unfold precision; omega)
    _ = ((10 ^ (precision - 1) : ℕ) : ℚ) * 10 ^ place := by
      rw [zpow_add₀ (by norm_num), zpow_natCast]
      push_cast
      rfl
    _ ≤ n * 10 ^ place := mul_le_mul_of_nonneg_right (by exact_mod_cast hn) (hpow place).le

theorem worth_turned (negative : Bool) (m : Nat) (e : Int) :
    Worth (.finite negative m e) (turned negative (m * 10 ^ e)) := by
  have hsigned := worth_finite negative m e
  rw [← Bool.false_bne negative, ← turned_signed negative false m, ← turned_mul] at hsigned
  rwa [Bool.false_bne] at hsigned

theorem placed_cases (negative : Bool) {digits : Nat} (hmin : minExponent ≤ least) (hmax : least ≤ maxExponent)
    (hdigits : digits ≤ 10 ^ precision) :
    (Fits (digits * 10 ^ least) ∧ ∃ d, placed negative digits least = .ok d ∧
        d.Worth (turned negative (digits * 10 ^ least))) ∨
      placed negative digits least = .error .overflow ∧ ∀ {x : ℚ}, Fits x → x < digits * 10 ^ least := by
  unfold placed
  by_cases hlt : digits < 10 ^ precision
  · rw [if_pos hlt]
    exact .inl ⟨⟨digits, least, by simpa using hlt, hmin, hmax, rfl⟩, _, rfl, worth_turned negative digits least⟩
  · rw [if_neg hlt]
    obtain rfl : digits = 10 ^ precision := by omega
    have hcarry : ((10 ^ precision : ℕ) : ℚ) * 10 ^ least = (10 ^ (precision - 1) : ℕ) * 10 ^ (least + 1) := by
      rw [zpow_add_one₀ (by norm_num)]
      unfold precision
      push_cast
      ring
    rw [hcarry]
    by_cases hover : maxExponent < least + 1
    · exact .inr ⟨if_pos hover, fun hx => hx.lt_of_place le_rfl hover⟩
    · rw [if_neg hover]
      have htenth : 10 ^ precision / 10 = 10 ^ (precision - 1) := by decide
      rw [htenth]
      exact .inl ⟨⟨(10 ^ (precision - 1) : ℕ), least + 1, by decide, by omega, by omega, by simp⟩, _, rfl,
        worth_turned _ _ _⟩

/-- A size is settled as a neighbour that fits, unless it is greater than every number that fits. -/
theorem settle_cases (negative : Bool) (hm : 0 < m) (e : Int) :
    (∃ d r, settle negative m e = .ok d ∧ d.Worth (turned negative r) ∧ Rounded (m * 10 ^ e) r) ∨
      settle negative m e = .error .overflow ∧ ∀ {x : ℚ}, Fits x → x < m * 10 ^ e := by
  have hpow : ∀ k : ℤ, (0 : ℚ) < 10 ^ k := fun k => zpow_pos (by norm_num) k
  have hpos : (0 : ℚ) ≤ m * 10 ^ e := mul_nonneg (Nat.cast_nonneg m) (hpow e).le
  obtain ⟨hfirst, hlast⟩ := digitCount_bounds hm
  have hcount := digitCount_pos m
  by_cases hover : maxExponent < (digitCount m : Int) + e - precision
  · refine .inr ⟨settle_overflow hm hover negative, fun hx => (hx.lt_of_place le_rfl hover).trans_le ?_⟩
    rw [Nat.cast_pow, ← zpow_natCast, Nat.cast_ofNat, ← zpow_add₀ (by norm_num),
      show ((precision - 1 : ℕ) : ℤ) + ((digitCount m : ℤ) + e - precision) = ((digitCount m - 1 : ℕ) : ℤ) + e by
        unfold precision; omega, zpow_add₀ (by norm_num), zpow_natCast]
    exact mul_le_mul_of_nonneg_right (by exact_mod_cast hfirst) (hpow e).le
  obtain ⟨least, hleast⟩ : ∃ least, least = max ((digitCount m : Int) + e - precision) minExponent := ⟨_, rfl⟩
  have hmin : minExponent ≤ least := hleast ▸ le_max_right _ _
  have hmax : least ≤ maxExponent := hleast ▸ max_le (not_lt.mp hover) minExponent_le
  by_cases hroom : e < least
  · have hsides := fun {x : ℚ} => dropped_sides hm hleast hroom (x := x)
    have hdigits : dropDigits m (least - e).toNat ≤ 10 ^ precision := by
      refine dropDigits_le_of_le (hlast.le.trans ?_)
      rw [← pow_add]
      exact Nat.pow_le_pow_right (by omega) (by omega)
    rw [settle_placed hm hleast hover hroom]
    obtain ⟨hfits, d, hd, hworth⟩ | ⟨hlarge, hgreater⟩ := placed_cases negative hmin hmax hdigits
    · have hbeside := beside_of_nonneg hpos (mul_nonneg (Nat.cast_nonneg _) (hpow _).le)
        (fun x hx hnonneg => (hsides hx hnonneg).1) fun x hx hnonneg => (hsides hx hnonneg).2
      exact .inl ⟨d, _, hd, hworth, { hbeside with fits := hfits }⟩
    · refine .inr ⟨hlarge, fun {x} hx => ?_⟩
      by_contra hle
      exact absurd ((hsides hx (hpos.trans (not_lt.mp hle))).2 (not_lt.mp hle)) (not_le.mpr (hgreater hx))
  · have hkept : settle negative m e = .ok (.finite negative m e) := by
      rw [settle, if_neg hm.ne']
      simp only []
      rw [if_neg hover, ← hleast, if_neg hroom]
    have hfits : Fits (m * 10 ^ e) :=
      fits_of_room hm (not_lt.mp hroom) (hleast ▸ le_max_left _ _) hmin hmax
    exact .inl ⟨_, _, hkept, worth_turned negative m e, rounded_of_fits hfits⟩

end Places

/-! ## Exact results -/

section Results

variable {negative : Bool} {m : Nat} {e : Int} {d : Decimal} {q : ℚ}

theorem settle_zero (negative : Bool) (e : Int) : ∃ d, settle negative 0 e = .ok d ∧ d.Worth 0 :=
  ⟨_, if_pos rfl, rfl, by simp [value]⟩

theorem signed_turned (negative : Bool) (m : Nat) (e : Int) :
    (signed negative m : ℚ) * 10 ^ e = turned negative (m * 10 ^ e) :=
  (worth_finite negative m e).2.symm.trans (worth_turned negative m e).2

/-- **What an exact result is settled as lies on no other side of any number that fits.** -/
theorem settle_rounded (h : settle negative m e = .ok d) :
    d.isFinite = true ∧ Rounded (signed negative m * 10 ^ e) d.value := by
  rcases Nat.eq_zero_or_pos m with rfl | hm
  · obtain ⟨d', hd', hfinite, hvalue⟩ := settle_zero negative e
    obtain rfl := Except.ok.inj (h.symm.trans hd')
    refine ⟨hfinite, ?_⟩
    rw [hvalue, signed_zero, Int.cast_zero, zero_mul]
    exact rounded_of_fits fits_zero
  · obtain ⟨d', r, hd', ⟨hfinite, hvalue⟩, hrounded⟩ | ⟨hlarge, -⟩ := settle_cases negative hm e
    · obtain rfl := Except.ok.inj (h.symm.trans hd')
      rw [hvalue, signed_turned]
      exact ⟨hfinite, hrounded.turned negative⟩
    · rw [hlarge] at h
      cases h

/-- An exact result is settled if its size is at most a number that fits. -/
theorem settle_returns {x : ℚ} (hx : Fits x) (h : |(signed negative m : ℚ) * 10 ^ e| ≤ x) :
    ∃ d, settle negative m e = .ok d := by
  rcases Nat.eq_zero_or_pos m with rfl | hm
  · obtain ⟨d, hd, -⟩ := settle_zero negative e
    exact ⟨d, hd⟩
  · obtain ⟨d, -, hd, -⟩ | ⟨-, hgreater⟩ := settle_cases negative hm e
    · exact ⟨d, hd⟩
    · rw [signed_turned, abs_turned, abs_of_nonneg (mul_nonneg (Nat.cast_nonneg m) (zpow_pos (by norm_num) e).le)] at h
      exact absurd (hgreater hx) (not_lt.mpr h)

/-- The decimal that an exact result is settled as, however the result is written. -/
def Rounds (q : ℚ) (d : Decimal) : Prop :=
  Settles (.ok d) q

theorem Rounds.rounded (h : Rounds q d) : d.isFinite = true ∧ Rounded q d.value := by
  obtain ⟨negative, m, e, hsettle, rfl⟩ := h
  exact settle_rounded hsettle.symm

namespace Settles

variable {result : Except Fault Decimal}

theorem rounds (h : Settles result q) (hd : result = .ok d) : Rounds q d := by
  rwa [hd] at h

/-- An exact result is settled alike, however it is written. -/
theorem alike (h : Settles result q) (hd : Rounds q d) : ∃ d', result = .ok d' ∧ d'.Worth d.value := by
  obtain ⟨negative, m, e, rfl, hq⟩ := h
  obtain ⟨negative', m', e', hsettle, hq'⟩ := hd
  have hmirror : Mirrors false (settle negative' m' e') (settle negative m e) := settle_mirror (hq.trans hq'.symm)
  rw [← hsettle] at hmirror
  generalize settle negative m e = result at hmirror ⊢
  cases hmirror with
  | ok h =>
      obtain ⟨hfinite, -⟩ := settle_rounded hsettle.symm
      cases h with
      | worth ha hb => exact ⟨_, rfl, hb.1, hb.2.trans ha.2.symm⟩
      | infinity _ => cases hfinite
      | nan _ _ _ _ _ => cases hfinite

theorem returns {x : ℚ} (h : Settles result q) (hx : Fits x) (hq : |q| ≤ x) : ∃ d, result = .ok d ∧ Rounds q d := by
  obtain ⟨negative, m, e, rfl, rfl⟩ := h
  obtain ⟨d, hd⟩ := settle_returns hx hq
  exact ⟨d, hd, negative, m, e, hd.symm, rfl⟩

end Settles

theorem Rounds.value_eq {d' : Decimal} (h : Rounds q d) (h' : Rounds q d') : d.value = d'.value := by
  obtain ⟨d'', hd'', hworth⟩ := Settles.alike h h'
  obtain rfl := Except.ok.inj hd''
  exact hworth.2

/-- An exact result that fits is settled as itself. -/
theorem rounds_of_fits (hq : Fits q) : ∃ d, Rounds q d ∧ d.Worth q := by
  obtain ⟨k, e, hk, hmin, hmax, rfl⟩ := id hq
  have hsigned : (signed (decide (k < 0)) k.natAbs : ℚ) * 10 ^ e = k * 10 ^ e := by rw [signed_natAbs]
  rw [← hsigned] at hq ⊢
  obtain ⟨d, hd, hworth⟩ := settle_fits hq
  exact ⟨d, ⟨_, _, _, hd.symm, rfl⟩, hworth⟩

end Results

end GoalReconciliation.Decimal

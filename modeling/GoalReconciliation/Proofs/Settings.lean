import GoalReconciliation.Proofs.Binary64.Shortest
import GoalReconciliation.Proofs.Tolerance
import GoalReconciliation.Settings.Policy

/-!
# The tolerance that settings make

The settings are checked as doubles and the tolerance as decimals, so that the two checks agree as far as a double and
the decimal with its digits are compared alike.

* `parts_unpacks` : the parts of a double are those by which doubles are compared;
* `decimalOf_shows` : what a double becomes: a decimal worth its digits, an infinity, or no number;
* `decimalOf_le`, `decimalOf_nonneg` : **doubles in order become decimals in order**, and a number that is not below
  zero stays so;
* `accepted_works` : **accepted settings make a tolerance if and only if its share and its floor are numbers, and it
  answers for all moderate amounts if and only if the share is finite**;
* `accepted_fails` : settings with a share that is no number are accepted.
-/

namespace GoalReconciliation

set_option autoImplicit false

open Float.Model (UnpackedFloat)

/-! ## Doubles as they are compared -/

namespace Binary64

def signOf (negative : Bool) : UnpackedFloat.Sign :=
  if negative then .negative else .positive

/-- The parts of a double, and what it is compared as. -/
inductive Unpacks : Parts → UnpackedFloat → Prop
  | nan : Unpacks .nan .notANumber
  | infinity (negative : Bool) : Unpacks (.infinity negative) (.infinity (signOf negative))
  | zero (negative : Bool) (power : ℤ) : Unpacks (.finite negative 0 power) (.zero (signOf negative))
  | finite (negative : Bool) {mantissa : Nat} {power : ℤ} (h : Canonical mantissa power) :
      Unpacks (.finite negative mantissa power) (.finite (signOf negative) mantissa power h.pos)

theorem unpacks_finite (negative : Bool) {m m' : Nat} {p p' : ℤ} (hm : m' = m) (hp : p' = p) (hpos : 0 < m')
    (h : Canonical m p) : Unpacks (.finite negative m p) (.finite (signOf negative) m' p' hpos) := by
  subst hm hp
  exact .finite negative h

section Bits

variable (b : BitVec 64)

abbrev exponentBits : BitVec 11 :=
  @UnpackedFloat.unpackExponent .binary64 b

abbrev fractionBits : BitVec 52 :=
  @UnpackedFloat.unpackMantissa .binary64 b

theorem exponentBits_toNat : (exponentBits b).toNat = b.toNat / 2 ^ 52 % 2 ^ 11 := by
  simp [exponentBits, UnpackedFloat.unpackExponent, Nat.shiftRight_eq_div_pow]

theorem fractionBits_toNat : (fractionBits b).toNat = b.toNat % 2 ^ 52 := by
  simp [fractionBits, UnpackedFloat.unpackMantissa]

theorem exponentBits_eq_top : exponentBits b = -1#11 ↔ b.toNat / 2 ^ 52 % 2 ^ 11 = 2047 := by
  rw [← exponentBits_toNat, ← BitVec.toNat_inj]
  rfl

theorem exponentBits_eq_zero : exponentBits b = 0#11 ↔ b.toNat / 2 ^ 52 % 2 ^ 11 = 0 := by
  rw [← exponentBits_toNat, ← BitVec.toNat_inj]
  rfl

theorem fractionBits_eq_zero : fractionBits b = 0#52 ↔ b.toNat % 2 ^ 52 = 0 := by
  rw [← fractionBits_toNat, ← BitVec.toNat_inj]
  rfl

theorem mantissa_toNat : (1#1 ++ fractionBits b).toNat = 2 ^ 52 + b.toNat % 2 ^ 52 := by
  rw [BitVec.toNat_append, fractionBits_toNat, ← Nat.shiftLeft_add_eq_or_of_lt (Nat.mod_lt _ (by decide))]
  rfl

theorem sign_unpack :
    UnpackedFloat.Sign.ofBitVec (@UnpackedFloat.unpackSign .binary64 b) = signOf (b.toNat / 2 ^ 63 % 2 == 1) := by
  have hbit : (@UnpackedFloat.unpackSign .binary64 b).toNat = b.toNat / 2 ^ 63 % 2 := by
    change (b.extractLsb 63 63).toNat = b.toNat / 2 ^ 63 % 2
    simp [Nat.shiftRight_eq_div_pow]
  have hzero : @UnpackedFloat.unpackSign .binary64 b = 0#1 ↔ b.toNat / 2 ^ 63 % 2 = 0 := by
    rw [← hbit, ← BitVec.toNat_inj]
    rfl
  unfold UnpackedFloat.Sign.ofBitVec
  by_cases h : b.toNat / 2 ^ 63 % 2 = 0
  · rw [if_pos (hzero.mpr h), h]
    rfl
  · rw [if_neg (mt hzero.mp h), show b.toNat / 2 ^ 63 % 2 = 1 by omega]
    rfl

theorem parts_eq (x : Float) (hb : x.toModel.toBits.toBitVec = b) : parts x =
    if b.toNat / 2 ^ 52 % 2 ^ 11 = 2047 then
      (if b.toNat % 2 ^ 52 = 0 then .infinity (b.toNat / 2 ^ 63 % 2 == 1) else .nan)
    else if b.toNat / 2 ^ 52 % 2 ^ 11 = 0 then .finite (b.toNat / 2 ^ 63 % 2 == 1) (b.toNat % 2 ^ 52) (-1074)
    else .finite (b.toNat / 2 ^ 63 % 2 == 1) (2 ^ 52 + b.toNat % 2 ^ 52) ((b.toNat / 2 ^ 52 % 2 ^ 11 : ℕ) - 1075) := by
  subst hb
  rfl

end Bits

/-- The parts of a double are those by which doubles are compared. -/
theorem parts_unpacks (x : Float) : Unpacks (parts x) x.toModel.unpack := by
  unfold Float.Model.unpack
  generalize hb : x.toModel.toBits.toBitVec = b
  rw [parts_eq b x hb]
  have hfraction : b.toNat % 2 ^ 52 < 2 ^ 52 := Nat.mod_lt _ (by decide)
  have hexponent : b.toNat / 2 ^ 52 % 2 ^ 11 < 2 ^ 11 := Nat.mod_lt _ (by decide)
  unfold UnpackedFloat.unpack
  dsimp only
  rw [sign_unpack]
  generalize (b.toNat / 2 ^ 63 % 2 == 1) = negative
  by_cases htop : b.toNat / 2 ^ 52 % 2 ^ 11 = 2047
  · rw [if_pos htop, if_pos ((exponentBits_eq_top b).mpr htop)]
    by_cases hzero : b.toNat % 2 ^ 52 = 0
    · rw [if_pos hzero, if_pos ((fractionBits_eq_zero b).mpr hzero)]
      exact .infinity negative
    · rw [if_neg hzero, if_neg (mt (fractionBits_eq_zero b).mp hzero)]
      exact .nan
  rw [if_neg htop, if_neg (mt (exponentBits_eq_top b).mp htop)]
  by_cases hbottom : b.toNat / 2 ^ 52 % 2 ^ 11 = 0
  · rw [if_pos hbottom, if_pos ((exponentBits_eq_zero b).mpr hbottom)]
    by_cases hzero : b.toNat % 2 ^ 52 = 0
    · rw [hzero, dif_pos ((fractionBits_eq_zero b).mpr hzero)]
      exact .zero negative _
    · rw [dif_neg (mt (fractionBits_eq_zero b).mp hzero)]
      refine unpacks_finite negative (fractionBits_toNat b) ?_ _ ⟨by omega, by omega, by decide, by decide, .inr rfl⟩
      rw [show (exponentBits b).toNat = 0 from (exponentBits_toNat b).trans hbottom]
      rfl
  · rw [if_neg hbottom, if_neg (mt (exponentBits_eq_zero b).mp hbottom)]
    refine unpacks_finite negative (mantissa_toNat b) ?_ _
      ⟨by omega, by omega, by omega, by omega, .inl (Nat.le_add_right _ _)⟩
    rw [← exponentBits_toNat]
    rfl

variable {x y : Float}

theorem le_iff_unpack : x ≤ y ↔ x.toModel.unpack.le y.toModel.unpack = true := by
  change decide (x.toModel.unpack.le y.toModel.unpack = true) = true ↔ _
  exact decide_eq_true_iff

theorem lt_iff_unpack : x < y ↔ x.toModel.unpack.lt y.toModel.unpack = true := by
  change decide (x.toModel.unpack.lt y.toModel.unpack = true) = true ↔ _
  exact decide_eq_true_iff

theorem zero_unpack : (0.0 : Float).toModel.unpack = .zero .positive :=
  rfl

end Binary64

namespace Settings

open Binary64 (Canonical Unpacks digitsText ofText?_digitsText parts parts_unpacks shortest shortestValue
  shortestValue_pos shortest_mono signOf toText)
open Decimal (turned)

/-! ## The decimal that a double becomes -/

/-- A double as it is compared, and the decimal with its digits. -/
inductive Shows : UnpackedFloat → Decimal → Prop
  | nan : Shows .notANumber (.nan false false 0)
  | infinity (negative : Bool) : Shows (.infinity (signOf negative)) (.infinity negative)
  | zero (negative : Bool) {d : Decimal} (hd : d.Worth 0) : Shows (.zero (signOf negative)) d
  | finite (negative : Bool) {m : Nat} {p : ℤ} (h : Canonical m p) {d : Decimal}
      (hd : d.Worth (turned negative (shortestValue m p))) : Shows (.finite (signOf negative) m p h.pos) d

theorem ofText?_special : Decimal.ofText? "nan" = some (.nan false false 0) ∧
    (∀ negative, Decimal.ofText? (if negative = true then "-inf" else "inf") = some (.infinity negative)) ∧
      ∀ negative, Decimal.ofText? (if negative = true then "-0.0" else "0.0") = some (.finite negative 0 (-1)) := by
  decide +kernel

theorem decimalOf_shows (x : Float) : Shows x.toModel.unpack (decimalOf x) := by
  have hunpacks := parts_unpacks x
  obtain ⟨hnan, hinfinity, hzero⟩ := ofText?_special
  unfold decimalOf toText
  generalize x.toModel.unpack = u at hunpacks
  generalize parts x = p at hunpacks
  cases hunpacks with
  | nan =>
      rw [hnan]
      exact .nan
  | infinity negative =>
      simp only [hinfinity, Option.getD_some]
      exact .infinity negative
  | zero negative power =>
      simp only [hzero, Option.getD_some]
      exact .zero negative ⟨rfl, by simp [Decimal.value]⟩
  | @finite negative m p h =>
      obtain ⟨d, hd, hworth⟩ := ofText?_digitsText negative (shortest m p).1 (shortest m p).2
      obtain ⟨k, rfl⟩ := Nat.exists_eq_succ_of_ne_zero h.pos.ne'
      change Shows _ ((Decimal.ofText? (_ ++ digitsText (toString (shortest _ p).1) (shortest _ p).2)).getD _)
      rw [hd]
      exact .finite negative h hworth

section Order

variable {u v : UnpackedFloat} {d e : Decimal}

/-- Doubles of one sign are compared by their powers, then by their mantissas. -/
theorem shortestValue_le {m m' : Nat} {p p' : ℤ} (hc : Canonical m p) (hc' : Canonical m' p')
    (h : ((compare p p').then (compare m m')).isLE = true) : shortestValue m p ≤ shortestValue m' p' := by
  refine shortest_mono hc hc' ?_
  rcases Ordering.isLE_then_iff_or.mp h with hlt | ⟨heq, hle⟩
  · exact Or.inl (compare_lt_iff_lt.mp hlt)
  · exact Or.inr ⟨compare_eq_iff_eq.mp heq, Nat.isLE_compare.mp hle⟩

theorem finite_le {negative negative' : Bool} {m m' : Nat} {p p' : ℤ} (hc : Canonical m p) (hc' : Canonical m' p')
    (h : (UnpackedFloat.finite (signOf negative) m p hc.pos).le (.finite (signOf negative') m' p' hc'.pos) = true) :
    turned negative (shortestValue m p) ≤ turned negative' (shortestValue m' p') := by
  cases negative with
  | false =>
      cases negative' with
      | false => exact shortestValue_le hc hc' h
      | true => cases h
  | true =>
      cases negative' with
      | false => exact (neg_neg_of_pos (shortestValue_pos hc)).le.trans (shortestValue_pos hc').le
      | true =>
          have hswap : (((compare p p').then (compare m m')).swap).isLE = true := h
          rw [Ordering.swap_then, ← Std.OrientedOrd.eq_swap, ← Std.OrientedOrd.eq_swap] at hswap
          exact neg_le_neg (shortestValue_le hc' hc hswap)

theorem le_of_shows (hu : Shows u d) (hv : Shows v e) (h : u.le v = true) : d.le e = .ok true := by
  cases hu with
  | nan => cases h
  | infinity negative =>
      cases hv with
      | nan => cases negative <;> cases h
      | infinity negative' => cases negative <;> cases negative' <;> first | rfl | cases h
      | zero negative' he | finite negative' hc' he =>
          obtain ⟨_, _, _, rfl, -⟩ := he.parts
          cases negative with
          | true => rfl
          | false => cases h
  | zero negative hd =>
      cases hv with
      | nan => cases h
      | infinity negative' =>
          obtain ⟨_, _, _, rfl, -⟩ := hd.parts
          cases negative' with
          | true => cases h
          | false => rfl
      | zero negative' he => exact Decimal.le_of_worth hd he
      | finite negative' hc' he =>
          cases negative' with
          | true => cases h
          | false => rw [Decimal.le_of_worth hd he, Decimal.turned_false, decide_eq_true (shortestValue_pos hc').le]
  | finite negative hc hd =>
      cases hv with
      | nan => cases negative <;> cases h
      | infinity negative' =>
          obtain ⟨_, _, _, rfl, -⟩ := hd.parts
          cases negative' with
          | true => cases negative <;> cases h
          | false => rfl
      | zero negative' he =>
          cases negative with
          | true =>
              have hneg := neg_neg_of_pos (shortestValue_pos hc)
              rw [Decimal.le_of_worth hd he, Decimal.turned_true, decide_eq_true hneg.le]
          | false => cases h
      | finite negative' hc' he => rw [Decimal.le_of_worth hd he, decide_eq_true (finite_le hc hc' h)]

theorem not_lt_of_shows (hu : Shows u d) (hnumber : u.isNaN = false) (h : u.lt (.zero .positive) = false) :
    d.lt Decimal.zero = .ok false := by
  cases hu with
  | nan => cases hnumber
  | infinity negative =>
      cases negative with
      | true => cases h
      | false => rfl
  | zero negative hd => rw [Decimal.lt_of_worth hd Decimal.worth_zero, decide_eq_false (lt_irrefl _)]
  | finite negative hc hd =>
      cases negative with
      | true => cases h
      | false =>
          rw [Decimal.lt_of_worth hd Decimal.worth_zero, Decimal.turned_false,
            decide_eq_false (shortestValue_pos hc).le.not_gt]

end Order

variable {x y : Float}

/-- **Doubles in order become decimals in order.** -/
theorem decimalOf_le (h : x ≤ y) : (decimalOf x).le (decimalOf y) = .ok true :=
  le_of_shows (decimalOf_shows x) (decimalOf_shows y) (Binary64.le_iff_unpack.mp h)

/-- A number that is not below zero becomes a decimal that is not below zero. -/
theorem decimalOf_nonneg (hnumber : x.isNaN = false) (h : ¬x < 0.0) :
    (decimalOf x).lt Decimal.zero = .ok false := by
  rw [Binary64.lt_iff_unpack, Binary64.zero_unpack, Bool.not_eq_true] at h
  exact not_lt_of_shows (decimalOf_shows x) hnumber h

theorem decimalOf_isNaN (x : Float) : (decimalOf x).isNaN = x.isNaN := by
  change (decimalOf x).isNaN = x.toModel.unpack.isNaN
  have hshows := decimalOf_shows x
  generalize decimalOf x = d at hshows ⊢
  generalize x.toModel.unpack = u at hshows ⊢
  cases hshows with
  | nan | infinity _ => rfl
  | zero _ hd | finite _ _ hd =>
      obtain ⟨_, _, _, rfl, -⟩ := hd.parts
      rfl

theorem decimalOf_isFinite (x : Float) : (decimalOf x).isFinite = x.isFinite := by
  change (decimalOf x).isFinite = x.toModel.unpack.isFinite
  have hshows := decimalOf_shows x
  generalize decimalOf x = d at hshows ⊢
  generalize x.toModel.unpack = u at hshows ⊢
  cases hshows with
  | nan | infinity _ => rfl
  | zero _ hd | finite _ _ hd => exact hd.1

theorem decimalOf_size (x : Float) : |(decimalOf x).value| ≤ 10 ^ 1024 := by
  have hshows := decimalOf_shows x
  generalize decimalOf x = d at hshows ⊢
  generalize x.toModel.unpack = u at hshows
  cases hshows with
  | nan | infinity _ => simp [Decimal.value]
  | zero _ hd => simp [hd.2]
  | finite _ h hd =>
      rw [hd.2, Decimal.abs_turned, abs_of_pos (shortestValue_pos h)]
      exact (Binary64.shortestValue_le_max h).trans (pow_le_pow_left₀ (by norm_num) (by norm_num) 1024)

/-! ## Settings that are accepted -/

variable {s : Settings} {t : Tolerance}

/-- What the checks of the settings say on a tolerance. -/
structure Accepted (s : Settings) : Prop where
  share : ¬s.amountShare < 0.0
  floor : ¬s.amountFloor < 0.0
  dateWindow : ¬s.dateWindow < 0
  lowLimit : s.lowLimit ≤ s.mediumLimit
  mediumLimit : s.mediumLimit ≤ s.highLimit
  splitLimit : ¬s.splitLimit < 2

theorem problemIf_eq_nil {condition : Bool} {message : String} :
    problemIf condition message = [] ↔ condition = false := by
  cases condition <;> simp [problemIf]

theorem accepted_of_check (h : s.check = .ok ()) : s.Accepted := by
  have hempty : (if s.isProduction then s.problems else s.toleranceProblems) = [] := by
    by_contra hsome
    rw [check, if_neg (by simpa using hsome)] at h
    cases h
  have hnone : s.toleranceProblems = [] := by
    split at hempty
    · rw [problems, List.append_eq_nil_iff, List.append_eq_nil_iff] at hempty
      exact hempty.1.1
    · exact hempty
  simp only [toleranceProblems, List.append_eq_nil_iff, problemIf_eq_nil, Bool.or_eq_false_iff, decide_eq_false_iff_not,
    Bool.not_eq_false', Bool.and_eq_true, decide_eq_true_iff] at hnone
  obtain ⟨⟨⟨⟨⟨⟨hshare, hfloor⟩, -⟩, hwindow⟩, hlow, hmedium⟩, hsplit⟩, -⟩ := hnone
  exact ⟨hshare, hfloor, hwindow, hlow, hmedium, hsplit⟩

/-- What a tolerance takes from the settings. -/
structure Makes (s : Settings) (t : Tolerance) : Prop where
  share : t.share = decimalOf s.amountShare
  floor : t.floor = decimalOf s.amountFloor
  dateWindow : t.dateWindow = s.dateWindow
  lowLimit : t.lowLimit = decimalOf s.lowLimit
  mediumLimit : t.mediumLimit = decimalOf s.mediumLimit
  highLimit : t.highLimit = decimalOf s.highLimit
  splitLimit : t.splitLimit = s.splitLimit

theorem tolerance_checked (s : Settings) : ∃ t, s.Makes t ∧ s.tolerance = (do t.check; return t) := by
  unfold tolerance
  refine ⟨_, ?_, rfl⟩
  constructor <;> dsimp only

theorem tolerance_eq_ok (s : Settings) :
    ∃ t, s.Makes t ∧ ∀ {t'}, s.tolerance = .ok t' ↔ t.check = .ok () ∧ t' = t := by
  obtain ⟨t, hmakes, htolerance⟩ := s.tolerance_checked
  refine ⟨t, hmakes, fun {t'} => ?_⟩
  rw [htolerance, Fallible.bind_eq_ok]
  constructor
  · rintro ⟨_, hcheck, hpure⟩
    exact ⟨hcheck, (Except.ok.inj hpure).symm⟩
  · rintro ⟨hcheck, rfl⟩
    exact ⟨(), hcheck, rfl⟩

/-- The rules of accepted settings are those of the tolerance, if its share and its floor are numbers. -/
theorem check_iff (h : s.Accepted) (hmakes : s.Makes t) :
    t.check = .ok () ↔ s.amountShare.isNaN = false ∧ s.amountFloor.isNaN = false := by
  constructor
  · intro hcheck
    rw [← decimalOf_isNaN, ← decimalOf_isNaN, ← hmakes.share, ← hmakes.floor]
    exact Tolerance.numbers_of_check hcheck
  · rintro ⟨hshare, hfloor⟩
    apply Tolerance.check_ok
    · rw [hmakes.share]
      exact decimalOf_nonneg hshare h.share
    · rw [hmakes.floor]
      exact decimalOf_nonneg hfloor h.floor
    · rw [hmakes.dateWindow]
      exact h.dateWindow
    · rw [hmakes.lowLimit, hmakes.mediumLimit]
      exact decimalOf_le h.lowLimit
    · rw [hmakes.mediumLimit, hmakes.highLimit]
      exact decimalOf_le h.mediumLimit
    · rw [hmakes.splitLimit]
      exact h.splitLimit

/-- The severity limits of accepted settings are compared, so that they are numbers. -/
theorem severityOf_ok (h : s.Accepted) (hmakes : s.Makes t) {amount : Decimal} (hamount : amount.Moderate) :
    ∃ severity, t.severityOf amount = .ok severity := by
  obtain ⟨hlow, hmedium⟩ := Decimal.number_of_le (decimalOf_le h.lowLimit)
  have hhigh := (Decimal.number_of_le (decimalOf_le h.mediumLimit)).2
  rw [← hmakes.lowLimit] at hlow
  rw [← hmakes.mediumLimit] at hmedium
  rw [← hmakes.highLimit] at hhigh
  exact Tolerance.severityOf_returns hlow hmedium hhigh hamount

/-- A tolerance that accepted settings make answers for all moderate amounts if its share is finite, and only then. -/
theorem works_iff (h : s.Accepted) (hmakes : s.Makes t) (hshare : s.amountShare.isNaN = false)
    (hfloor : s.amountFloor.isNaN = false) : t.Works ↔ s.amountShare.isFinite = true := by
  rw [← decimalOf_isNaN, ← hmakes.share] at hshare
  rw [← decimalOf_isNaN, ← hmakes.floor] at hfloor
  rw [← decimalOf_isFinite, ← hmakes.share]
  constructor
  · intro hworks
    obtain ⟨d, hd⟩ := hworks.allowance Decimal.moderate_zero
    cases hcase : t.share with
    | finite _ _ _ => rfl
    | nan _ _ _ =>
        rw [hcase] at hshare
        cases hshare
    | infinity negative =>
        rw [Tolerance.allowance_infinite hcase] at hd
        cases hd
  · intro hfinite
    have hsize : |t.share.value| ≤ 10 ^ 1024 := hmakes.share ▸ decimalOf_size _
    exact
      { allowance := fun hreference =>
          (Tolerance.allowance_returns hfinite hsize hfloor hreference.bounded).imp fun _ hallowed => hallowed.1
        amountsMatch := fun hamount hreference =>
          Tolerance.amountsMatch_returns hfinite hsize hfloor hamount.bounded hreference.bounded
        severity := severityOf_ok h hmakes }

end Settings

/-- **Accepted settings make a tolerance if and only if its share and its floor are numbers, and it answers for all
moderate amounts if and only if the share is finite.** Severities are always found. -/
theorem accepted_works (s : Settings) (h : s.check = .ok ()) :
    ((∃ t, s.tolerance = .ok t) ↔ s.amountShare.isNaN = false ∧ s.amountFloor.isNaN = false) ∧
      ∀ t, s.tolerance = .ok t → (t.Works ↔ s.amountShare.isFinite = true) ∧
        ∀ amount : Decimal, amount.Moderate → ∃ severity, t.severityOf amount = .ok severity := by
  have haccepted := Settings.accepted_of_check h
  obtain ⟨t, hmakes, htolerance⟩ := s.tolerance_eq_ok
  have hcheck := Settings.check_iff haccepted hmakes
  refine ⟨⟨fun ⟨t', ht'⟩ => hcheck.mp (htolerance.mp ht').1, fun hnumbers => ?_⟩, fun t' ht' => ?_⟩
  · exact ⟨t, htolerance.mpr ⟨hcheck.mpr hnumbers, rfl⟩⟩
  · obtain ⟨hok, rfl⟩ := htolerance.mp ht'
    obtain ⟨hshare, hfloor⟩ := hcheck.mp hok
    exact ⟨Settings.works_iff haccepted hmakes hshare hfloor, fun amount => Settings.severityOf_ok haccepted hmakes⟩

/-- The standard settings make a tolerance that answers for all moderate amounts. -/
theorem accepted_works_sample :
    ({} : Settings).check = .ok () ∧ ∃ t, ({} : Settings).tolerance = .ok t ∧ t.Works := by
  have hcheck : ({} : Settings).check = .ok () := by decide +kernel
  obtain ⟨hreturns, hworks⟩ := accepted_works {} hcheck
  obtain ⟨t, ht⟩ := hreturns.mpr (by decide +kernel)
  exact ⟨hcheck, t, ht, (hworks t ht).1.mpr (by decide +kernel)⟩

/-- A share that is no number is not below zero, so that the settings are accepted, and it is not compared with zero as
a decimal. -/
theorem accepted_fails : ∃ s, Settings.ofVariables [("RECON_AMOUNT_TOLERANCE_PERCENT", "nan")] = .good s ∧
    s.check = .ok () ∧ s.tolerance = .error (.arithmetic .invalidOperation) := by
  refine ⟨_, rfl, ?_, ?_⟩
  · decide +kernel
  · decide +kernel

end GoalReconciliation

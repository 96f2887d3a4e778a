import GoalReconciliation.Decimal.Arithmetic
import GoalReconciliation.Proofs.Decimal.Exact

/-!
# Operations look at values

A result depends on what its operands are worth and not on how they are written, and opposite operands have opposite
results, also where the results are rounded.

* `Mirror` : two decimals of which one is worth the other, or its opposite;
* `Mirrors` : two computations that fail alike or have such results;
* `settle_mirror` : rounding respects this, and with it
* `add_mirror`, `sub_mirror`, `mul_mirror`, `abs_mirror`, `greater_mirror`, `sum_mirror` : the operations;
* `lt_mirror`, `le_mirror` : and comparisons.
-/

namespace GoalReconciliation.Decimal

open Fallible (bind_eq_ok)

set_option autoImplicit false

/-! ## Digits -/

theorem digitCount_eq {n d : Nat} (hlow : 10 ^ d ≤ n) (hhigh : n < 10 ^ (d + 1)) : digitCount n = d + 1 := by
  have hpos : 0 < n := (Nat.pow_pos (by omega)).trans_le hlow
  obtain ⟨hlow', hhigh'⟩ := digitCount_bounds hpos
  have hcount := digitCount_pos n
  have hle : d < digitCount n := (Nat.pow_lt_pow_iff_right (by omega)).mp (hlow.trans_lt hhigh')
  have hge : digitCount n - 1 < d + 1 := (Nat.pow_lt_pow_iff_right (by omega)).mp (hlow'.trans_lt hhigh)
  omega

theorem digitCount_mul {n : Nat} (hn : 0 < n) (k : Nat) : digitCount (n * 10 ^ k) = digitCount n + k := by
  obtain ⟨hlow, hhigh⟩ := digitCount_bounds hn
  have hcount := digitCount_pos n
  have hpow : 0 < 10 ^ k := Nat.pow_pos (by omega)
  rw [digitCount_eq (d := digitCount n - 1 + k)]
  · omega
  · rw [pow_add]
    exact Nat.mul_le_mul_right _ hlow
  · rw [show digitCount n - 1 + k + 1 = digitCount n + k by omega, pow_add]
    exact Nat.mul_lt_mul_of_pos_right hhigh hpow

/-- Zeros at the end do not influence how the digits before them are rounded. -/
theorem dropDigits_scaled (n count k : Nat) : dropDigits (n * 10 ^ k) (count + k) = dropDigits n count := by
  have hpow : 0 < 10 ^ k := Nat.pow_pos (by omega)
  have hquotient : n * 10 ^ k / 10 ^ (count + k) = n / 10 ^ count := by
    rw [pow_add, Nat.mul_div_mul_right _ _ hpow]
  have hrest : n * 10 ^ k % 10 ^ (count + k) = n % 10 ^ count * 10 ^ k := by
    rw [pow_add, Nat.mul_mod_mul_right]
  have hmore : 10 ^ (count + k) < 2 * (n % 10 ^ count * 10 ^ k) ↔ 10 ^ count < 2 * (n % 10 ^ count) := by
    rw [pow_add, ← mul_assoc, Nat.mul_lt_mul_right hpow]
  have hhalf : 2 * (n % 10 ^ count * 10 ^ k) = 10 ^ (count + k) ↔ 2 * (n % 10 ^ count) = 10 ^ count := by
    rw [pow_add, ← mul_assoc, Nat.mul_left_inj hpow.ne']
  simp only [dropDigits, raised_eq, hquotient, hrest]
  exact if_congr (or_congr hmore (and_congr hhalf Iff.rfl)) rfl rfl

/-! ## Mirrored decimals -/

def turned (turn : Bool) (q : ℚ) : ℚ :=
  if turn then -q else q

/-- One decimal is worth the other, or its opposite. -/
inductive Mirror (turn : Bool) : Decimal → Decimal → Prop
  | worth {a b : Decimal} {q : ℚ} (ha : a.Worth q) (hb : b.Worth (turned turn q)) : Mirror turn a b
  | infinity (negative : Bool) : Mirror turn (.infinity negative) (.infinity (negative != turn))
  | nan (signalling negA negB : Bool) (a b : Nat) : Mirror turn (.nan negA signalling a) (.nan negB signalling b)

/-- Two computations fail alike or have results of which one is worth the other, or its opposite. -/
inductive Mirrors (turn : Bool) : Except Fault Decimal → Except Fault Decimal → Prop
  | ok {a b : Decimal} (h : Mirror turn a b) : Mirrors turn (.ok a) (.ok b)
  | error (fault : Fault) : Mirrors turn (.error fault) (.error fault)

section Turned

variable (turn : Bool) (p q : ℚ)

@[simp] theorem turned_false : turned false q = q := rfl

@[simp] theorem turned_true : turned true q = -q := rfl

theorem turned_add : turned turn (p + q) = turned turn p + turned turn q := by
  cases turn
  · rfl
  · exact neg_add p q

theorem turned_neg : turned turn (-q) = -turned turn q := by
  cases turn <;> rfl

theorem turned_mul : turned turn (p * q) = turned turn p * q := by
  cases turn
  · rfl
  · exact neg_mul_eq_neg_mul p q

theorem abs_turned : |turned turn q| = |q| := by
  cases turn
  · rfl
  · exact abs_neg q

theorem turned_signed (negative : Bool) (coefficient : Nat) :
    turned turn (signed negative coefficient) = signed (negative != turn) coefficient := by
  cases turn <;> cases negative <;> simp [signed]

end Turned

theorem Mirror.refl (d : Decimal) : Mirror false d d := by
  cases d with
  | finite negative coefficient exponent => exact .worth (worth_finite _ _ _) (worth_finite _ _ _)
  | infinity negative =>
      have h : Mirror false (.infinity negative) (.infinity (negative != false)) := .infinity negative
      rwa [Bool.bne_false] at h
  | nan negative signalling payload => exact .nan _ _ _ _ _

namespace Mirrors

variable {turn turn' : Bool} {x y : Except Fault Decimal}

theorem bind (h : Mirrors turn x y) {f g : Decimal → Except Fault Decimal}
    (hnext : ∀ a b, Mirror turn a b → Mirrors turn' (f a) (g b)) : Mirrors turn' (x >>= f) (y >>= g) := by
  cases h with
  | ok h => exact hnext _ _ h
  | error fault => exact .error fault

/-- Computations that look at values have one result. -/
theorem bind_eq (h : Mirrors turn x y) {β : Type} {f g : Decimal → Except Fault β}
    (hnext : ∀ a b, Mirror turn a b → f a = g b) : x >>= f = y >>= g := by
  cases h with
  | ok h => exact hnext _ _ h
  | error fault => rfl

theorem of_ok {a b : Decimal} (h : Mirrors turn x y) (hx : x = .ok a) (hy : y = .ok b) : Mirror turn a b := by
  subst hx hy
  cases h with
  | ok h => exact h

end Mirrors

/-! ## Rounding -/

theorem fits_of_room {m : Nat} {e least : ℤ} (hm : 0 < m) (hle : least ≤ e)
    (hroom : (digitCount m : ℤ) + e - precision ≤ least) (hmin : minExponent ≤ least) (hmax : least ≤ maxExponent) :
    Fits ((m : ℚ) * 10 ^ e) := by
  refine ⟨(m * 10 ^ (e - least).toNat : ℕ), least, ?_, hmin, hmax, ?_⟩
  · rw [Int.natAbs_natCast]
    refine (Nat.mul_lt_mul_of_pos_right (digitCount_bounds hm).2 (Nat.pow_pos (by omega))).trans_le ?_
    rw [← pow_add]
    exact Nat.pow_le_pow_right (by omega) (by omega)
  · have hscaled := scaled_value false m hle
    rw [scaled, raised_eq] at hscaled
    exact hscaled.symm

theorem minExponent_le : minExponent ≤ maxExponent := by
  unfold minExponent maxExponent minAdjusted maxAdjusted precision
  omega

theorem signed_size {turn negA negB : Bool} (hsign : negB = (negA != turn)) {m n : Nat} {e e' : ℤ}
    (h : (n : ℚ) * 10 ^ e' = m * 10 ^ e) :
    (signed negB n : ℚ) * 10 ^ e' = turned turn (signed negA m * 10 ^ e) := by
  rw [turned_mul, turned_signed, ← hsign]
  cases negB with
  | false => exact h
  | true =>
      change ((-(n : ℤ) : ℤ) : ℚ) * 10 ^ e' = ((-(m : ℤ) : ℤ) : ℚ) * 10 ^ e
      push_cast
      rw [neg_mul, neg_mul, h]

theorem mirror_finite {turn negA negB : Bool} (hsign : negB = (negA != turn)) {m n : Nat} {e e' : ℤ}
    (h : (n : ℚ) * 10 ^ e' = m * 10 ^ e) : Mirror turn (.finite negA m e) (.finite negB n e') :=
  .worth (worth_finite negA m e) ⟨rfl, signed_size hsign h⟩

theorem fits_signed (negative : Bool) {m : Nat} {e : ℤ} (h : Fits ((m : ℚ) * 10 ^ e)) :
    Fits (signed negative m * 10 ^ e) := by
  cases negative with
  | false => exact h
  | true => simpa [signed] using h.neg

/-- Rounded digits at their place, where a carry may have made one digit too many. -/
def placed (negative : Bool) (digits : Nat) (least : Int) : Except Fault Decimal :=
  if digits < 10 ^ precision then .ok (.finite negative digits least)
  else if maxExponent < least + 1 then .error .overflow
  else .ok (.finite negative (digits / 10) (least + 1))

theorem placed_mirror {turn negA negB : Bool} (hsign : negB = (negA != turn)) (digits : Nat) (least : Int) :
    Mirrors turn (placed negA digits least) (placed negB digits least) := by
  unfold placed
  split
  · exact .ok (mirror_finite hsign rfl)
  · split
    · exact .error _
    · exact .ok (mirror_finite hsign rfl)

theorem settle_overflow {m : Nat} (hm : 0 < m) {e : Int} (h : maxExponent < (digitCount m : Int) + e - precision)
    (negative : Bool) : settle negative m e = .error .overflow := by
  rw [settle, if_neg hm.ne', if_pos h]

theorem settle_placed {m : Nat} (hm : 0 < m) {e least : Int}
    (hleast : least = max ((digitCount m : Int) + e - precision) minExponent)
    (h : ¬maxExponent < (digitCount m : Int) + e - precision) (hroom : e < least) (negative : Bool) :
    settle negative m e = placed negative (dropDigits m (least - e).toNat) least := by
  subst hleast
  rw [settle, if_neg hm.ne', if_neg h]
  exact if_pos hroom

/-- Zeros at the end make no difference. -/
theorem settle_scaled {turn negA negB : Bool} (hsign : negB = (negA != turn)) {m : Nat} (hm : 0 < m) (e : ℤ) (k : Nat) :
    Mirrors turn (settle negA m e) (settle negB (m * 10 ^ k) (e - k)) := by
  have hm' : 0 < m * 10 ^ k := Nat.mul_pos hm (Nat.pow_pos (by omega))
  have hdigits : (digitCount (m * 10 ^ k) : ℤ) + (e - k) - precision = digitCount m + e - precision := by
    rw [digitCount_mul hm]
    push_cast
    ring
  have hvalue : ((m * 10 ^ k : ℕ) : ℚ) * 10 ^ (e - k) = m * 10 ^ e := by
    rw [zpow_sub₀ (by norm_num), zpow_natCast]
    push_cast
    field_simp
  by_cases hover : maxExponent < (digitCount m : ℤ) + e - precision
  · rw [settle_overflow hm hover, settle_overflow hm' (by rwa [hdigits])]
    exact .error _
  by_cases hroom : e < max ((digitCount m : ℤ) + e - precision) minExponent
  · -- Besides the digits that are dropped of the one, only zeros are dropped of the other.
    generalize hleast : max ((digitCount m : ℤ) + e - precision) minExponent = least at hroom
    have hcount : (least - (e - k)).toNat = (least - e).toNat + k := by omega
    rw [settle_placed hm hleast.symm hover hroom,
      settle_placed hm' (by rw [hdigits, hleast]) (by rwa [hdigits]) (by omega), hcount, dropDigits_scaled]
    exact placed_mirror hsign _ _
  · -- Only zeros are dropped.
    have hfits : Fits ((m : ℚ) * 10 ^ e) :=
      fits_of_room hm (not_lt.mp hroom) (le_max_left _ _) (le_max_right _ _) (max_le (not_lt.mp hover) minExponent_le)
    obtain ⟨a, ha, hworth⟩ := settle_fits (fits_signed negA hfits)
    obtain ⟨b, hb, hworth'⟩ := settle_fits (fits_signed negB (hvalue ▸ hfits))
    rw [ha, hb]
    exact .ok (.worth hworth ⟨hworth'.1, hworth'.2.trans (signed_size hsign hvalue)⟩)

theorem turned_turned (turn : Bool) (q : ℚ) : turned turn (turned turn q) = q := by
  cases turn
  · rfl
  · exact neg_neg q

theorem Mirror.symm {turn : Bool} {a b : Decimal} (h : Mirror turn a b) : Mirror turn b a := by
  cases h with
  | worth ha hb => exact .worth hb ((turned_turned turn _).symm ▸ ha)
  | infinity negative =>
      have hback : negative = ((negative != turn) != turn) := by cases negative <;> cases turn <;> rfl
      conv_rhs => rw [hback]
      exact .infinity _
  | nan signalling negA negB a b => exact .nan _ _ _ _ _

theorem Mirrors.symm {turn : Bool} {x y : Except Fault Decimal} (h : Mirrors turn x y) : Mirrors turn y x := by
  cases h with
  | ok h => exact .ok h.symm
  | error fault => exact .error fault

theorem size_eq {turn negA negB : Bool} {m n : Nat} {e e' : ℤ}
    (h : (signed negB n : ℚ) * 10 ^ e' = turned turn (signed negA m * 10 ^ e)) :
    (n : ℚ) * 10 ^ e' = m * 10 ^ e := by
  have habs := congrArg (fun q : ℚ => |q|) h
  simpa [abs_turned, abs_mul, abs_signed, abs_of_pos (zpow_pos (show (0 : ℚ) < 10 by norm_num) _)] using habs

theorem sign_eq {turn negA negB : Bool} {m n : Nat} (hm : 0 < m) {e e' : ℤ}
    (h : (signed negB n : ℚ) * 10 ^ e' = turned turn (signed negA m * 10 ^ e)) : negB = (negA != turn) := by
  have hsize := size_eq h
  have hpos : (0 : ℚ) < m * 10 ^ e := by positivity
  rw [turned_mul, turned_signed] at h
  by_contra hne
  have hopposite : (signed negB n : ℚ) = -signed (negA != turn) n := by
    rw [← Int.cast_neg, ← signed_not]
    congr 2
    exact Bool.eq_not_of_ne hne
  have hsame : (signed (negA != turn) n : ℚ) * 10 ^ e' = turned false (signed (negA != turn) m * 10 ^ e) :=
    signed_size (Bool.bne_false _).symm hsize
  rw [turned_false] at hsame
  rw [hopposite, neg_mul, hsame] at h
  have hzero : (signed (negA != turn) m : ℚ) * 10 ^ e = 0 := by linarith
  have habs := congrArg (fun q : ℚ => |q|) hzero
  rw [abs_mul, abs_signed, abs_of_pos (zpow_pos (show (0 : ℚ) < 10 by norm_num) _), abs_zero] at habs
  exact hpos.ne' habs

/-- **Rounding looks at the value.** -/
theorem settle_mirror {turn negA negB : Bool} {m n : Nat} {e e' : ℤ}
    (h : (signed negB n : ℚ) * 10 ^ e' = turned turn (signed negA m * 10 ^ e)) :
    Mirrors turn (settle negA m e) (settle negB n e') := by
  have hsize := size_eq h
  have hten : ∀ x : ℤ, (10 : ℚ) ^ x ≠ 0 := fun x => zpow_ne_zero _ (by norm_num)
  by_cases hm : m = 0
  · subst hm
    have hn : n = 0 := by simpa [hten] using hsize
    subst hn
    rw [settle, if_pos rfl, settle, if_pos rfl]
    exact .ok (.worth (q := 0) ⟨rfl, by simp [value]⟩ ⟨rfl, by cases turn <;> simp [value]⟩)
  have hm := Nat.pos_of_ne_zero hm
  have hsign := sign_eq hm h
  have hn : 0 < n := by
    refine Nat.pos_of_ne_zero fun hn => ?_
    subst hn
    simp [hten, hm.ne'] at hsize
  rcases le_total e' e with hle | hle
  · have hscaled := settle_scaled hsign hm e (e - e').toNat
    rwa [← coefficient_eq hsize hle, Int.toNat_of_nonneg (by omega), sub_sub_cancel] at hscaled
  · have hback : negA = (negB != turn) := by
      rw [hsign]
      cases negA <;> cases turn <;> rfl
    have hscaled := settle_scaled hback hn e' (e' - e).toNat
    rw [← coefficient_eq hsize.symm hle, Int.toNat_of_nonneg (by omega), sub_sub_cancel] at hscaled
    exact hscaled.symm

/-! ## Operations -/

section Operations

variable {turn : Bool} {a a' b b' : Decimal}

theorem add_mirror (ha : Mirror turn a a') (hb : Mirror turn b b') : Mirrors turn (a.add b) (a'.add b') := by
  cases ha with
  | @worth _ _ p ha ha' =>
      cases hb with
      | @worth _ _ q hb hb' =>
          obtain ⟨negA, m, e, hadd, hvalue⟩ := add_settles ha hb
          obtain ⟨negB, n, e', hadd', hvalue'⟩ := add_settles ha' hb'
          rw [hadd, hadd']
          refine settle_mirror ?_
          rw [hvalue, hvalue', turned_add]
      | infinity negative =>
          obtain ⟨_, _, _, rfl, -⟩ := ha.parts
          obtain ⟨_, _, _, rfl, -⟩ := ha'.parts
          exact .ok (.infinity negative)
      | nan signalling _ _ _ _ =>
          obtain ⟨_, _, _, rfl, -⟩ := ha.parts
          obtain ⟨_, _, _, rfl, -⟩ := ha'.parts
          cases signalling with
          | false => exact .ok (.nan _ _ _ _ _)
          | true => exact .error _
  | infinity negative =>
      cases hb with
      | worth hb hb' =>
          obtain ⟨_, _, _, rfl, -⟩ := hb.parts
          obtain ⟨_, _, _, rfl, -⟩ := hb'.parts
          exact .ok (.infinity negative)
      | infinity other =>
          change Mirrors turn (if negative = other then _ else _) (if (negative != turn) = (other != turn) then _ else _)
          by_cases h : negative = other
          · subst h
            rw [if_pos rfl, if_pos rfl]
            exact .ok (.infinity negative)
          · have h' : (negative != turn) ≠ (other != turn) := by simpa using h
            rw [if_neg h, if_neg h']
            exact .error _
      | nan signalling _ _ _ _ =>
          cases signalling with
          | false => exact .ok (.nan _ _ _ _ _)
          | true => exact .error _
  | nan signalling _ _ _ _ =>
      cases signalling with
      | true => exact .error _
      | false =>
          cases hb with
          | worth hb hb' =>
              obtain ⟨_, _, _, rfl, -⟩ := hb.parts
              obtain ⟨_, _, _, rfl, -⟩ := hb'.parts
              exact .ok (.nan _ _ _ _ _)
          | infinity _ => exact .ok (.nan _ _ _ _ _)
          | nan signalling _ _ _ _ =>
              cases signalling with
              | false => exact .ok (.nan _ _ _ _ _)
              | true => exact .error _

theorem flip_mirror (h : Mirror turn a a') : Mirror turn a.flip a'.flip := by
  cases h with
  | worth ha ha' => exact .worth (flip_worth ha) ((turned_neg turn _).symm ▸ flip_worth ha')
  | infinity negative =>
      have hflip : (!(negative != turn)) = ((!negative) != turn) := by cases negative <;> cases turn <;> rfl
      rw [flip, flip, hflip]
      exact .infinity _
  | nan _ _ _ _ _ => exact .nan _ _ _ _ _

theorem sub_mirror (ha : Mirror turn a a') (hb : Mirror turn b b') : Mirrors turn (a.sub b) (a'.sub b') :=
  add_mirror ha (flip_mirror hb)

theorem abs_mirror (h : Mirror turn a a') : Mirrors false a.abs a'.abs := by
  cases h with
  | worth ha ha' =>
      obtain ⟨negA, m, e, rfl, rfl⟩ := ha.parts
      obtain ⟨negB, n, e', rfl, hvalue⟩ := ha'.parts
      exact settle_mirror (size_eq hvalue.symm)
  | infinity _ => exact .ok (Mirror.refl _)
  | nan signalling _ _ _ _ =>
      cases signalling with
      | false => exact .ok (.nan _ _ _ _ _)
      | true => exact .error _

theorem sum_mirror {xs ys : List Decimal} (h : List.Forall₂ (Mirror turn) xs ys) :
    Mirrors turn (sum xs) (sum ys) := by
  have hfold : ∀ {s s' : Decimal}, Mirror turn s s' → Mirrors turn (xs.foldlM add s) (ys.foldlM add s') := by
    induction h with
    | nil => exact fun hs => .ok hs
    | cons hx _ ih =>
        intro s s' hs
        rw [List.foldlM_cons, List.foldlM_cons]
        exact (add_mirror hs hx).bind fun _ _ hnext => ih hnext
  refine hfold (.worth worth_zero ?_)
  cases turn with
  | false => exact worth_zero
  | true => simpa using worth_zero

theorem mul_mirror (h : Mirror turn a a') (b : Decimal) : Mirrors turn (a.mul b) (a'.mul b) := by
  cases h with
  | worth ha ha' =>
      obtain ⟨negA, m, e, rfl, rfl⟩ := ha.parts
      obtain ⟨negB, n, e', rfl, hvalue⟩ := ha'.parts
      cases b with
      | finite negative coefficient exponent =>
          refine settle_mirror ?_
          rw [signed_mul, signed_mul, zpow_add₀ (by norm_num), zpow_add₀ (by norm_num), Int.cast_mul, Int.cast_mul,
            mul_mul_mul_comm, ← hvalue, ← turned_mul, mul_mul_mul_comm]
      | infinity negative =>
          have hzero : n = 0 ↔ m = 0 := by
            have hsize := size_eq hvalue.symm
            have hten : ∀ x : ℤ, (10 : ℚ) ^ x ≠ 0 := fun x => zpow_ne_zero _ (by norm_num)
            constructor
            · rintro rfl
              simpa [hten] using hsize.symm
            · rintro rfl
              simpa [hten] using hsize
          change Mirrors turn (if m = 0 then _ else _) (if n = 0 then _ else _)
          by_cases hm : m = 0
          · rw [if_pos hm, if_pos (hzero.mpr hm)]
            exact .error _
          · have hsign := sign_eq (Nat.pos_of_ne_zero hm) hvalue.symm
            have hproduct : (negB != negative) = ((negA != negative) != turn) := by
              rw [hsign]
              cases negA <;> cases negative <;> cases turn <;> rfl
            rw [if_neg hm, if_neg (mt hzero.mp hm), hproduct]
            exact .ok (.infinity _)
      | nan _ signalling _ =>
          cases signalling with
          | false => exact .ok (.nan _ _ _ _ _)
          | true => exact .error _
  | infinity negative =>
      have hproduct : ∀ sign : Bool, ((negative != turn) != sign) = ((negative != sign) != turn) := by
        intro sign
        cases negative <;> cases turn <;> cases sign <;> rfl
      cases b with
      | finite sign coefficient exponent =>
          change Mirrors turn (if coefficient = 0 then _ else _) (if coefficient = 0 then _ else _)
          by_cases hzero : coefficient = 0
          · rw [if_pos hzero, if_pos hzero]
            exact .error _
          · rw [if_neg hzero, if_neg hzero, hproduct]
            exact .ok (.infinity _)
      | infinity sign =>
          change Mirrors turn (.ok (.infinity _)) (.ok (.infinity ((negative != turn) != sign)))
          rw [hproduct]
          exact .ok (.infinity _)
      | nan _ signalling _ =>
          cases signalling with
          | false => exact .ok (.nan _ _ _ _ _)
          | true => exact .error _
  | nan signalling _ _ _ _ =>
      cases signalling with
      | true => exact .error _
      | false =>
          cases b with
          | finite _ _ _ => exact .ok (.nan _ _ _ _ _)
          | infinity _ => exact .ok (.nan _ _ _ _ _)
          | nan _ signalling _ =>
              cases signalling with
              | false => exact .ok (.nan _ _ _ _ _)
              | true => exact .error _

/-! ### Comparisons -/

theorem compare?_mirror (ha : Mirror false a a') (hb : Mirror false b b') : compare? a b = compare? a' b' := by
  cases ha with
  | worth ha ha' =>
      cases hb with
      | worth hb hb' => rw [compare?_of_worth ha hb, compare?_of_worth ha' hb', turned_false, turned_false]
      | infinity negative =>
          obtain ⟨_, _, _, rfl, -⟩ := ha.parts
          obtain ⟨_, _, _, rfl, -⟩ := ha'.parts
          cases negative <;> rfl
      | nan _ _ _ _ _ =>
          obtain ⟨_, _, _, rfl, -⟩ := ha.parts
          obtain ⟨_, _, _, rfl, -⟩ := ha'.parts
          rfl
  | infinity negative =>
      cases hb with
      | worth hb hb' =>
          obtain ⟨_, _, _, rfl, -⟩ := hb.parts
          obtain ⟨_, _, _, rfl, -⟩ := hb'.parts
          cases negative <;> rfl
      | infinity other => cases negative <;> cases other <;> rfl
      | nan _ _ _ _ _ => rfl
  | nan _ _ _ _ _ =>
      cases hb with
      | worth hb hb' => rfl
      | infinity _ => rfl
      | nan _ _ _ _ _ => rfl

theorem lt_mirror (ha : Mirror false a a') (hb : Mirror false b b') : a.lt b = a'.lt b' := by
  rw [lt, lt, order, order, compare?_mirror ha hb]

theorem le_mirror (ha : Mirror false a a') (hb : Mirror false b b') : a.le b = a'.le b' := by
  rw [le, le, order, order, compare?_mirror ha hb]

theorem greater_mirror (h : Mirror false a a') (b : Decimal) : Mirrors false (a.greater b) (a'.greater b) := by
  have hlt := lt_mirror h (Mirror.refl b)
  unfold greater
  rw [hlt]
  cases a'.lt b with
  | error fault => exact .error fault
  | ok isLess =>
      cases isLess with
      | true => exact .ok (Mirror.refl b)
      | false => exact .ok h

/-! ### Amounts that are not rounded -/

/-- A number that rounding leaves as it is; an infinite one, or one that is none, is not rounded at all. -/
def Settled (d : Decimal) : Prop :=
  d.isFinite = true → Fits d.value

theorem zero_add_mirror (ha : a.Settled) (h : zero.add a = .ok b) : Mirror false a b := by
  cases a with
  | finite negative coefficient exponent =>
      have hworth := worth_value (d := .finite negative coefficient exponent) rfl
      obtain ⟨sum, hsum, hvalue⟩ := add_fits worth_zero hworth (by simpa using ha rfl)
      obtain rfl : sum = b := Except.ok.inj (hsum.symm.trans h)
      exact .worth hworth (by simpa using hvalue)
  | infinity negative =>
      obtain rfl := Except.ok.inj h
      exact Mirror.refl _
  | nan negative signalling payload =>
      cases signalling with
      | true => cases h
      | false =>
          obtain rfl := Except.ok.inj h
          exact .nan _ _ _ _ _

theorem mul_sign_mirror (ha : a.Settled) (h : a.mul (ofInt (if turn then -1 else 1)) = .ok b) : Mirror turn a b := by
  cases a with
  | finite negative coefficient exponent =>
      have hworth := worth_value (d := .finite negative coefficient exponent) rfl
      have hturned : value (.finite negative coefficient exponent) * ((if turn then -1 else 1 : ℤ) : ℚ) =
          turned turn (value (.finite negative coefficient exponent)) := by
        cases turn <;> simp
      have hfits : Fits (turned turn (value (.finite negative coefficient exponent))) := by
        cases turn with
        | false => exact ha rfl
        | true => exact (ha rfl).neg
      obtain ⟨product, hproduct, hvalue⟩ := mul_fits hworth (worth_ofInt _) (hturned.symm ▸ hfits)
      obtain rfl : product = b := Except.ok.inj (hproduct.symm.trans h)
      exact .worth hworth (hturned ▸ hvalue)
  | infinity negative =>
      obtain rfl : Decimal.infinity (negative != turn) = b := by
        cases turn <;> exact Except.ok.inj h
      exact .infinity negative
  | nan negative signalling payload =>
      cases signalling with
      | true => cases h
      | false =>
          obtain rfl : settleNaN negative payload = b := by
            cases turn <;> exact Except.ok.inj h
          exact .nan _ _ _ _ _

end Operations

end GoalReconciliation.Decimal

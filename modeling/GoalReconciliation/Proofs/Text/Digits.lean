import GoalReconciliation.Text.Digit
import Mathlib.Algebra.Order.Ring.Nat
import Mathlib.Data.List.Basic
import Mathlib.Data.String.Basic

/-!
# Numbers written in digits

* `asciiDigit?_of_isDigit`, `digit?_of_isDigit` : an ASCII digit is a digit in both senses, of the same value;
* `asciiNat?_of_digits`, `nat?_of_digits` : a number is read from its digits;
* `asciiNat?_of_mem` : no number is read from a text with another character;
* `padded_isDigit`, `length_padded` : a padded number has digits only, and just as many as its width;
* `asciiNat?_padded`, `nat?_padded` : it is read as it was written;
* `padded_append_lt_iff` : **texts that begin with padded numbers are ordered by the numbers first**.
-/

namespace GoalReconciliation.Text

set_option autoImplicit false

/-! ## Digits -/

theorem isDigit_iff {c : Char} : c.isDigit = true ↔ 48 ≤ c.toNat ∧ c.toNat ≤ 57 := by
  rw [Char.isDigit, Bool.and_eq_true, decide_eq_true_iff, decide_eq_true_iff]
  exact Iff.rfl

theorem asciiDigit?_of_isDigit {c : Char} (h : c.isDigit = true) : asciiDigit? c = some (c.toNat - 48) :=
  if_pos (isDigit_iff.mp h)

/-- The ASCII digits are the first ones among those of all scripts. -/
theorem digit?_of_isDigit {c : Char} (h : c.isDigit = true) : digit? c = some (c.toNat - 48) := by
  obtain ⟨hlow, hhigh⟩ := isDigit_iff.mp h
  unfold digit? digitZeros
  rw [List.find?_cons_of_pos (by simp [hlow, hhigh])]
  rfl

variable {cs : List Char}

theorem ofDigits_values (cs : List Char) : ofDigits (cs.map fun c => c.toNat - 48) = Nat.ofDigitChars 10 cs 0 := by
  rw [ofDigits, List.foldl_map, Nat.ofDigitChars_eq_foldl]
  rfl

theorem mapM_of_digits {value? : Char → Option Nat}
    (hvalue : ∀ c : Char, c.isDigit = true → value? c = some (c.toNat - 48)) (hcs : ∀ c ∈ cs, c.isDigit = true) :
    cs.mapM value? = some (cs.map fun c => c.toNat - 48) := by
  induction cs with
  | nil => rfl
  | cons c cs ih =>
      obtain ⟨hc, hcs⟩ := List.forall_mem_cons.mp hcs
      rw [List.mapM_cons, hvalue c hc, ih hcs]
      rfl

theorem asciiNat?_of_digits (hne : cs ≠ []) (hcs : ∀ c ∈ cs, c.isDigit = true) :
    asciiNat? cs = some (Nat.ofDigitChars 10 cs 0) := by
  have hsome : ¬cs.isEmpty = true := by simpa using hne
  rw [asciiNat?, if_neg hsome, mapM_of_digits (fun _ => asciiDigit?_of_isDigit) hcs, Option.map_some, ofDigits_values]

/-- A character that is no digit spoils the number. -/
theorem asciiNat?_of_mem {c : Char} (hmem : c ∈ cs) (hc : asciiDigit? c = none) : asciiNat? cs = none := by
  have hnone : cs.mapM asciiDigit? = none := by
    induction cs with
    | nil => exact absurd hmem List.not_mem_nil
    | cons b cs ih =>
        rw [List.mapM_cons]
        rcases List.mem_cons.mp hmem with rfl | htail
        · rw [hc]
          rfl
        · rw [ih htail]
          cases asciiDigit? b <;> rfl
  rw [asciiNat?, hnone]
  exact ite_self none

theorem nat?_of_digits (hne : cs ≠ []) (hcs : ∀ c ∈ cs, c.isDigit = true) :
    nat? cs = some (Nat.ofDigitChars 10 cs 0) := by
  have hsome : ¬cs.isEmpty = true := by simpa using hne
  rw [nat?, if_neg hsome, mapM_of_digits (fun _ => digit?_of_isDigit) hcs, Option.map_some, ofDigits_values]

/-! ## Padded numbers -/

variable {width n m : Nat}

theorem padded_toList (width n : Nat) :
    (padded width n).toList = List.replicate (width - (Nat.toDigits 10 n).length) '0' ++ Nat.toDigits 10 n := by
  simp [padded, Nat.repr_eq_ofList_toDigits]

theorem padded_isDigit (width n : Nat) : ∀ c ∈ (padded width n).toList, c.isDigit = true := by
  intro c hc
  rw [padded_toList] at hc
  rcases List.mem_append.mp hc with hzero | hdigit
  · rw [List.eq_of_mem_replicate hzero]
    rfl
  · exact Nat.isDigit_of_mem_toDigits (by omega) (by omega) hdigit

theorem padded_ne_nil (width n : Nat) : (padded width n).toList ≠ [] := by
  rw [padded_toList]
  simp

theorem ofDigitChars_padded (width n : Nat) : Nat.ofDigitChars 10 (padded width n).toList 0 = n := by
  rw [padded_toList, Nat.ofDigitChars_append, Nat.ofDigitChars_replicate_zero, Nat.mul_zero,
    Nat.ofDigitChars_ten_toDigits]

theorem length_padded (hwidth : 0 < width) (hn : n < 10 ^ width) : (padded width n).toList.length = width := by
  have hroom : (Nat.toDigits 10 n).length ≤ width := (Nat.length_toDigits_le_iff (by omega) hwidth).mpr hn
  rw [padded_toList, List.length_append, List.length_replicate]
  omega

theorem asciiNat?_padded (width n : Nat) : asciiNat? (padded width n).toList = some n := by
  rw [asciiNat?_of_digits (padded_ne_nil width n) (padded_isDigit width n), ofDigitChars_padded]

theorem nat?_padded (width n : Nat) : nat? (padded width n).toList = some n := by
  rw [nat?_of_digits (padded_ne_nil width n) (padded_isDigit width n), ofDigitChars_padded]

theorem padded_inj : (padded width n).toList = (padded width m).toList ↔ n = m := by
  refine ⟨fun h => ?_, fun h => h ▸ rfl⟩
  rw [← ofDigitChars_padded width n, h, ofDigitChars_padded]

/-! ## The order of texts -/

theorem ofDigitChars_lt {xs ys : List Char} (hlength : xs.length = ys.length) (hxs : ∀ c ∈ xs, c.isDigit = true)
    {a b : Nat} (h : a < b) : Nat.ofDigitChars 10 xs a < Nat.ofDigitChars 10 ys b := by
  induction xs generalizing ys a b with
  | nil =>
      obtain rfl : ys = [] := List.length_eq_zero_iff.mp hlength.symm
      simpa using h
  | cons x xs ih =>
      obtain ⟨y, ys, rfl⟩ := List.exists_cons_of_length_eq_add_one hlength.symm
      obtain ⟨hx, hxs⟩ := List.forall_mem_cons.mp hxs
      have hnine := (isDigit_iff.mp hx).2
      rw [Nat.ofDigitChars_cons, Nat.ofDigitChars_cons]
      refine ih (by simpa using hlength) hxs ?_
      change 10 * a + (x.toNat - 48) < 10 * b + (y.toNat - 48)
      omega

/-- Texts of equally many digits are ordered as the numbers that they write. -/
theorem ofDigitChars_mono {xs ys : List Char} (hlength : xs.length = ys.length) (hxs : ∀ c ∈ xs, c.isDigit = true)
    (h : xs < ys) (a : Nat) : Nat.ofDigitChars 10 xs a < Nat.ofDigitChars 10 ys a := by
  induction xs generalizing ys a with
  | nil =>
      obtain rfl : ys = [] := List.length_eq_zero_iff.mp hlength.symm
      exact absurd h (List.lt_irrefl [])
  | cons x xs ih =>
      obtain ⟨y, ys, rfl⟩ := List.exists_cons_of_length_eq_add_one hlength.symm
      obtain ⟨hx, hxs⟩ := List.forall_mem_cons.mp hxs
      have hrest : xs.length = ys.length := by simpa using hlength
      rw [Nat.ofDigitChars_cons, Nat.ofDigitChars_cons]
      rcases List.cons_lt_cons_iff.mp h with hlt | ⟨rfl, hlt⟩
      · refine ofDigitChars_lt hrest hxs ?_
        have hcode : x.toNat < y.toNat := hlt
        have hleast := (isDigit_iff.mp hx).1
        change 10 * a + (x.toNat - 48) < 10 * a + (y.toNat - 48)
        omega
      · exact ih hrest hxs hlt _

/-- Texts that begin with equally long ones are ordered by these first. -/
theorem append_lt_append_iff {xs ys us vs : List Char} (hlength : xs.length = ys.length) :
    xs ++ us < ys ++ vs ↔ xs < ys ∨ xs = ys ∧ us < vs := by
  induction xs generalizing ys with
  | nil =>
      obtain rfl : ys = [] := List.length_eq_zero_iff.mp hlength.symm
      simp
  | cons x xs ih =>
      obtain ⟨y, ys, rfl⟩ := List.exists_cons_of_length_eq_add_one hlength.symm
      rw [List.cons_append, List.cons_append, List.cons_lt_cons_iff, List.cons_lt_cons_iff, ih (by simpa using hlength),
        List.cons.injEq]
      tauto

theorem padded_lt_iff (hwidth : 0 < width) (hn : n < 10 ^ width) (hm : m < 10 ^ width) :
    (padded width n).toList < (padded width m).toList ↔ n < m := by
  have hmono : ∀ {a b}, a < 10 ^ width → b < 10 ^ width →
      (padded width a).toList < (padded width b).toList → a < b := by
    intro a b ha hb hlt
    have hsame : (padded width a).toList.length = (padded width b).toList.length :=
      (length_padded hwidth ha).trans (length_padded hwidth hb).symm
    simpa only [ofDigitChars_padded] using ofDigitChars_mono hsame (padded_isDigit width a) hlt 0
  refine ⟨hmono hn hm, fun hlt => ?_⟩
  have hnot : ¬(padded width m).toList < (padded width n).toList := fun h => (hmono hm hn h).asymm hlt
  have hne : (padded width n).toList ≠ (padded width m).toList := fun h => hlt.ne (padded_inj.mp h)
  exact (List.le_iff_lt_or_eq.mp (List.not_lt.mp hnot)).resolve_right hne

/-- Texts that begin with numbers of one width are ordered by these numbers first. -/
theorem padded_append_lt_iff (hwidth : 0 < width) (hn : n < 10 ^ width) (hm : m < 10 ^ width) {us vs : List Char} :
    (padded width n).toList ++ us < (padded width m).toList ++ vs ↔ n < m ∨ n = m ∧ us < vs := by
  have hlength : (padded width n).toList.length = (padded width m).toList.length :=
    (length_padded hwidth hn).trans (length_padded hwidth hm).symm
  rw [append_lt_append_iff hlength, padded_lt_iff hwidth hn hm, padded_inj]

end GoalReconciliation.Text

import GoalReconciliation.Calendar.Timestamp
import GoalReconciliation.Proofs.Calendar.Reading
import GoalReconciliation.Proofs.Sorting

/-!
# Instants and their texts

* `Timestamp.IsTime` : a time of day that a clock shows; `Timestamp.instant` : the microseconds from a fixed instant;
* `instant_lt_iff` : with one offset, instants are in order by day and by time of day;
* `fraction_lt_iff` : microseconds are in the order of their texts, although those of a whole second are not written;
* `toText_lt_iff` : **with one offset, texts are in the order of their instants**.
-/

namespace GoalReconciliation.Timestamp

set_option autoImplicit false

open Text (padded padded_append_lt_iff)

structure IsTime (t : Timestamp) : Prop where
  hour : t.hour < 24
  minute : t.minute < 60
  second : t.second < 60
  microsecond : t.microsecond < 10 ^ 6

/-- The microseconds from the midnight before the first day of the calendar, in universal time where the offset from it is
known. -/
def instant (t : Timestamp) : Int :=
  ((((t.date.ordinal * 24 + t.hour) * 60 + t.minute) * 60 + t.second : Int) - t.offset.getD 0) * 10 ^ 6 + t.microsecond

def IsEarlier (t u : Timestamp) : Prop :=
  t.hour < u.hour ∨ t.hour = u.hour ∧ (t.minute < u.minute ∨ t.minute = u.minute ∧
    (t.second < u.second ∨ t.second = u.second ∧ t.microsecond < u.microsecond))

variable {t u : Timestamp}

/-- With one offset, instants are in order by day and by time of day. -/
theorem instant_lt_iff (ht : t.IsTime) (hu : u.IsTime) (hoffset : t.offset = u.offset) :
    t.instant < u.instant ↔ t.date.ordinal < u.date.ordinal ∨ t.date.ordinal = u.date.ordinal ∧ t.IsEarlier u := by
  obtain ⟨hhour, hminute, hsecond, hmicrosecond⟩ := ht
  obtain ⟨hhour', hminute', hsecond', hmicrosecond'⟩ := hu
  unfold instant IsEarlier
  rw [hoffset]
  omega

/-! ## Texts -/

def fraction (microsecond : Nat) : List Char :=
  if microsecond = 0 then [] else '.' :: (padded 6 microsecond).toList

def suffix (offset : Option Int) : List Char :=
  ((offset.map offsetText).getD "").toList

theorem toText_toList (t : Timestamp) : t.toText.toList =
    (padded 4 t.date.year).toList ++ '-' :: ((padded 2 t.date.month).toList ++ '-' :: ((padded 2 t.date.day).toList ++
      'T' :: ((padded 2 t.hour).toList ++ ':' :: ((padded 2 t.minute).toList ++ ':' :: ((padded 2 t.second).toList ++
        (fraction t.microsecond ++ suffix t.offset)))))) := by
  have hfraction : (if t.microsecond = 0 then "" else "." ++ padded 6 t.microsecond).toList = fraction t.microsecond := by
    unfold fraction
    split <;> simp
  simp only [toText, Date.toText, String.toList_append, hfraction]
  simp [suffix]

/-- An offset is not written, or it begins with its sign, which comes before a point. -/
theorem suffix_lt (offset : Option Int) (cs : List Char) : suffix offset < '.' :: cs := by
  cases offset with
  | none => exact List.nil_lt_cons _ _
  | some seconds =>
      have hsign : (if seconds < 0 then "-" else "+").toList = [if seconds < 0 then '-' else '+'] := by
        split <;> rfl
      simp only [suffix, Option.map_some, Option.getD_some, offsetText, String.toList_append, hsign, List.append_assoc,
        List.cons_append, List.nil_append, List.cons_lt_cons_iff]
      left
      split <;> decide

/-- Microseconds are in the order of their texts, the offset behind them being the same. A whole second has none written,
and what follows comes before the point that announces them. -/
theorem fraction_lt_iff {m n : Nat} (hm : m < 10 ^ 6) (hn : n < 10 ^ 6) (offset : Option Int) :
    fraction m ++ suffix offset < fraction n ++ suffix offset ↔ m < n := by
  unfold fraction
  by_cases hzero : m = 0
  · by_cases hzero' : n = 0
    · simp [hzero, hzero']
    · rw [if_pos hzero, if_neg hzero', List.nil_append, List.cons_append]
      exact iff_of_true (suffix_lt offset _) (by omega)
  · by_cases hzero' : n = 0
    · rw [if_neg hzero, if_pos hzero', List.nil_append, List.cons_append]
      exact iff_of_false (List.lt_asymm (suffix_lt offset _)) (by omega)
    · rw [if_neg hzero, if_neg hzero', List.cons_append, List.cons_append, List.cons_lt_cons_iff,
        padded_append_lt_iff (by omega) hm hn]
      simp

/-- **With one offset, texts are in the order of their instants.** -/
theorem toText_lt_iff (ht : t.IsTime) (hu : u.IsTime) (hoffset : t.offset = u.offset) :
    t.toText < u.toText ↔ t.instant < u.instant := by
  have hdate : ∀ d : Date, d.year < 10 ^ 4 ∧ d.month < 10 ^ 2 ∧ d.day < 10 ^ 2 := fun d =>
    ⟨by have := d.isDay.2.1; omega, by have := d.month_bounds.2; omega, by have := d.day_bounds.2; omega⟩
  obtain ⟨hyear, hmonth, hday⟩ := hdate t.date
  obtain ⟨hyear', hmonth', hday'⟩ := hdate u.date
  have htwo : ∀ {n : Nat}, n < 60 → n < 10 ^ 2 := by omega
  have hsep : ∀ (c : Char) (us vs : List Char), c :: us < c :: vs ↔ us < vs := by
    intro c us vs
    simp
  rw [String.lt_iff_toList_lt, toText_toList, toText_toList, ← hoffset, instant_lt_iff ht hu hoffset, Date.ordinal_lt_iff]
  rw [padded_append_lt_iff (by omega) hyear hyear', hsep, padded_append_lt_iff (by omega) hmonth hmonth', hsep,
    padded_append_lt_iff (by omega) hday hday', hsep,
    padded_append_lt_iff (by omega) (htwo (ht.hour.trans (by omega))) (htwo (hu.hour.trans (by omega))), hsep,
    padded_append_lt_iff (by omega) (htwo ht.minute) (htwo hu.minute), hsep,
    padded_append_lt_iff (by omega) (htwo ht.second) (htwo hu.second),
    fraction_lt_iff ht.microsecond hu.microsecond]
  have hsame : t.date.ordinal = u.date.ordinal ↔
      t.date.year = u.date.year ∧ t.date.month = u.date.month ∧ t.date.day = u.date.day := by
    refine ⟨fun h => ?_, fun ⟨hy, hm, hd⟩ => ?_⟩
    · rw [Date.ordinal_injective h]
      exact ⟨rfl, rfl, rfl⟩
    · rw [Date.ordinal, Date.ordinal, hy, hm, hd]
  rw [hsame, ← IsEarlier]
  by_cases hearlier : t.IsEarlier u
  · simp only [hearlier, and_true]
    omega
  · simp only [hearlier, and_false, or_false]

end GoalReconciliation.Timestamp

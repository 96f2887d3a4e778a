import GoalReconciliation.Proofs.Sorting

/-!
# Numbers of days and the weeks of the ISO calendar

The days of a week from Monday to Sunday belong to the year that its Thursday lies in, and are numbered by it.

* `Date.yearOf_eq`, `Date.monthDayOf_eq` : the two searches find the year, and the month and day, of a number;
* `Date.ofOrdinal?_ordinal` : a day is found again by its number;
* `Date.isoYear`, `Date.isoWeek`, `Date.isoWeekday` : the name of a day in the ISO calendar;
* `Date.isoYear_bounds`, `Date.isoWeek_bounds` : it fits in four digits, and two;
* `Date.weekOneMonday_spec` : where the first week of a year starts;
* `Date.ofWeek?_iso` : a day is found by its name.
-/

namespace GoalReconciliation.Date

open Calendar

set_option autoImplicit false

/-! ## The day of a number -/

/-- The search finds the year that a number lies in, if it starts low enough and close enough. -/
theorem yearOf_eq {ordinal target : Nat} (hafter : daysBeforeYear target < ordinal)
    (hupto : ordinal ≤ daysBeforeYear (target + 1)) : ∀ {fuel year : Nat}, year ≤ target → target ≤ year + fuel →
    yearOf ordinal fuel year = target := by
  intro fuel
  induction fuel with
  | zero =>
      intro year hle hclose
      show year = target
      omega
  | succ fuel ih =>
      intro year hle hclose
      unfold yearOf
      split
      · rename_i hstop
        by_contra hne
        have hmono := daysBeforeYear_mono (show year + 1 ≤ target by omega)
        omega
      · rename_i hgo
        have hne : year ≠ target := by
          rintro rfl
          exact hgo hupto
        exact ih (by omega) (by omega)

theorem monthDayOf_eq {year target day : Nat} (hpos : 1 ≤ day) (hday : day ≤ monthLength year target) :
    ∀ {fuel month : Nat}, month ≤ target → target ≤ month + fuel →
    monthDayOf year fuel month (daysBeforeMonth year target - daysBeforeMonth year month + day) = (target, day) := by
  intro fuel
  induction fuel with
  | zero =>
      intro month hle hclose
      obtain rfl : month = target := by omega
      rw [Nat.sub_self, Nat.zero_add]
      rfl
  | succ fuel ih =>
      intro month hle hclose
      have hstep : daysBeforeMonth year (month + 1) = daysBeforeMonth year month + monthLength year month := rfl
      unfold monthDayOf
      rcases Nat.lt_or_ge month target with hlt | hge
      · have hmono := daysBeforeMonth_mono year (show month + 1 ≤ target by omega)
        rw [if_neg (by omega), show daysBeforeMonth year target - daysBeforeMonth year month + day -
          monthLength year month = daysBeforeMonth year target - daysBeforeMonth year (month + 1) + day by omega]
        exact ih (by omega) (by omega)
      · obtain rfl : month = target := by omega
        rw [Nat.sub_self, Nat.zero_add, if_pos hday]

theorem month_bounds (d : Date) : 1 ≤ d.month ∧ d.month ≤ 12 := by
  obtain ⟨-, -, hpos, hday⟩ := d.isDay
  refine ⟨?_, month_le (hpos.trans hday)⟩
  by_contra hzero
  have hnone : monthLength d.year d.month = 0 := by
    rw [show d.month = 0 by omega]
    rfl
  omega

/-- A day is found again by its number. -/
theorem ofOrdinal?_ordinal (d : Date) : ofOrdinal? d.ordinal = some d := by
  obtain ⟨hyear, hlast, hpos, hday⟩ := d.isDay
  obtain ⟨hbefore, hmonth⟩ := d.month_bounds
  obtain ⟨hafter, hupto⟩ := d.ordinal_bounds
  have hstart : (d.ordinal - 1) / 366 + 1 ≤ d.year ∧ d.year ≤ (d.ordinal - 1) / 366 + 1 + 40 := by
    simp only [daysBeforeYear, Nat.add_sub_cancel] at hafter hupto
    omega
  have hfirst : daysBeforeMonth d.year 1 = 0 := rfl
  have hrest : d.ordinal - daysBeforeYear d.year =
      daysBeforeMonth d.year d.month - daysBeforeMonth d.year 1 + d.day := by
    unfold ordinal
    omega
  unfold ofOrdinal?
  rw [if_neg (by omega), yearOf_eq hafter hupto hstart.1 hstart.2]
  simp only [hrest, monthDayOf_eq hpos hday hbefore (show d.month ≤ 1 + 11 by omega)]
  exact dif_pos d.isDay

/-! ## Weeks -/

def thursday (d : Date) : Nat :=
  d.ordinal - weekdayOf d.ordinal + 3

/-- The year that the days of a day's week belong to: the one its Thursday lies in. -/
def isoYear (d : Date) : Nat :=
  if d.thursday ≤ daysBeforeYear d.year then d.year - 1
  else if d.thursday ≤ daysBeforeYear (d.year + 1) then d.year
  else d.year + 1

/-- The number of a day's week: how many Thursdays its year has up to that of the week. -/
def isoWeek (d : Date) : Nat :=
  (d.thursday - daysBeforeYear d.isoYear - 1) / 7 + 1

def isoWeekday (d : Date) : Nat :=
  weekdayOf d.ordinal + 1

theorem yearLength_eq (year : Nat) :
    yearLength year = 365 ∧ isLeap year = false ∨ yearLength year = 366 ∧ isLeap year = true := by
  unfold yearLength
  cases isLeap year <;> simp

/-- The year of a week is in the calendar, and the Thursday of the week lies in it. -/
theorem isoYear_spec (d : Date) : 1 ≤ d.isoYear ∧ d.isoYear ≤ 9999 ∧
    daysBeforeYear d.isoYear < d.thursday ∧ d.thursday ≤ daysBeforeYear (d.isoYear + 1) := by
  obtain ⟨hyear, hlast, -, -⟩ := d.isDay
  obtain ⟨hafter, hupto⟩ := d.ordinal_bounds
  have hthursday : d.thursday = d.ordinal - (d.ordinal + 6) % 7 + 3 := rfl
  have hnext := daysBeforeYear_succ hyear
  have hlength := yearLength_eq d.year
  unfold isoYear
  split
  · rename_i hearly
    have hone : d.year ≠ 1 := by
      intro hone
      rw [hone] at hearly hafter
      have hzero : daysBeforeYear 1 = 0 := rfl
      omega
    have hprevious := daysBeforeYear_succ (show 1 ≤ d.year - 1 by omega)
    have hlength' := yearLength_eq (d.year - 1)
    rw [Nat.sub_add_cancel hyear] at hprevious ⊢
    omega
  · rename_i hnotEarly
    split
    · omega
    · rename_i hlate
      have hend : d.year ≠ 9999 := by
        intro hend
        rw [hend] at hlate hupto
        have htotal : daysBeforeYear (9999 + 1) = 3652059 := rfl
        omega
      have hfollowing := daysBeforeYear_succ (show 1 ≤ d.year + 1 by omega)
      have hlength' := yearLength_eq (d.year + 1)
      omega

theorem isoYear_bounds (d : Date) : 1 ≤ d.isoYear ∧ d.isoYear ≤ 9999 :=
  ⟨d.isoYear_spec.1, d.isoYear_spec.2.1⟩

theorem isoWeekday_bounds (d : Date) : 1 ≤ d.isoWeekday ∧ d.isoWeekday ≤ 7 := by
  unfold isoWeekday weekdayOf
  omega

/-- A year has at most 53 Thursdays, and so many only if it starts with one, or on the day before in a leap year. -/
theorem isoWeek_bounds (d : Date) :
    1 ≤ d.isoWeek ∧ (d.isoWeek ≤ 52 ∨ d.isoWeek = 53 ∧ hasWeek53 d.isoYear = true) := by
  obtain ⟨hyear, -, hafter, hupto⟩ := d.isoYear_spec
  have hthursday : d.thursday = d.ordinal - (d.ordinal + 6) % 7 + 3 := rfl
  have hpos := d.ordinal_bounds.1
  have hnext := daysBeforeYear_succ hyear
  unfold isoWeek hasWeek53 weekdayOf
  simp only [Bool.or_eq_true, Bool.and_eq_true, beq_iff_eq]
  rcases yearLength_eq d.isoYear with ⟨hlength, hleap⟩ | ⟨hlength, hleap⟩
  · simp only [hleap, Bool.false_eq_true, and_false, or_false]
    omega
  · simp only [hleap, and_true]
    omega

/-- The first week of a year starts on the Monday closest to its first of January. -/
theorem weekOneMonday_spec (year : Nat) : weekOneMonday year % 7 = 1 ∧
    weekOneMonday year ≤ daysBeforeYear year + 4 ∧ daysBeforeYear year ≤ weekOneMonday year + 2 := by
  have hmonday : ∀ january, 1 ≤ january → (january - weekdayOf january) % 7 = 1 := by
    intro january hjanuary
    unfold weekdayOf
    omega
  have hfirst := hmonday (daysBeforeYear year + 1) (by omega)
  have hweekday : weekdayOf (daysBeforeYear year + 1) < 7 := Nat.mod_lt _ (by omega)
  unfold weekOneMonday
  dsimp only
  split <;> omega

/-- The days of a week are counted from the Monday of the first week of its year. -/
theorem weekOneMonday_add (d : Date) :
    weekOneMonday d.isoYear + (d.isoWeek - 1) * 7 + (d.isoWeekday - 1) = d.ordinal := by
  obtain ⟨-, -, hafter, -⟩ := d.isoYear_spec
  obtain ⟨hmonday, hlate, hearly⟩ := weekOneMonday_spec d.isoYear
  have hthursday : d.thursday = d.ordinal - (d.ordinal + 6) % 7 + 3 := rfl
  have hpos := d.ordinal_bounds.1
  unfold isoWeek isoWeekday weekdayOf
  omega

/-- A day is found by its year, week and weekday. -/
theorem ofWeek?_iso (d : Date) : ofWeek? d.isoYear d.isoWeek d.isoWeekday = some d := by
  have hyear := d.isoYear_bounds.1
  obtain ⟨hweek, hweeks⟩ := d.isoWeek_bounds
  obtain ⟨hday, hdays⟩ := d.isoWeekday_bounds
  unfold ofWeek?
  rw [if_pos ⟨hyear, hweek, hweeks, hday, hdays⟩, d.weekOneMonday_add]
  exact d.ofOrdinal?_ordinal

/-- The Sunday after the new year of 2021 belongs to the last week of 2020. -/
example : (⟨2021, 1, 3, by decide⟩ : Date).isoYear = 2020 ∧ (⟨2021, 1, 3, by decide⟩ : Date).isoWeek = 53 := by
  decide

end GoalReconciliation.Date

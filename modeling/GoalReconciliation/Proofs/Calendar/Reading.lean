import GoalReconciliation.Calendar.Reader
import GoalReconciliation.Proofs.Calendar.Weeks
import GoalReconciliation.Proofs.Text.Digits
import GoalReconciliation.Text.Basic

/-!
# Days as they are written and read

* `Date.compactText`, `Date.weekText`, `Date.slashText` : a day as `YYYYMMDD`, as `YYYY-Www-D`, and as `DD/MM/YYYY`;
* `Marks` : texts made of the characters of a day, none of which is white space;
* `takeNumber?_padded`, `takePart?_padded` : a reader takes a padded number off, and leaves the rest;
* `ofIso?_toText`, `ofIso?_compactText`, `ofIso?_weekText` : the ISO reader reads a day in its three forms;
* `ofIso?_slashText`, `ofDayMonthYear?_slashText` : it leaves the form with slashes to the other one, which reads it.
-/

namespace GoalReconciliation.Date

open Text Calendar

set_option autoImplicit false

def compactText (d : Date) : String :=
  padded 4 d.year ++ padded 2 d.month ++ padded 2 d.day

def weekText (d : Date) : String :=
  padded 4 d.isoYear ++ "-W" ++ padded 2 d.isoWeek ++ "-" ++ padded 1 d.isoWeekday

def slashText (d : Date) : String :=
  padded 2 d.day ++ "/" ++ padded 2 d.month ++ "/" ++ padded 4 d.year

theorem monthLength_le (year month : Nat) : monthLength year month ≤ 31 := by
  unfold monthLength
  split <;> first | omega | (split <;> omega)

theorem day_bounds (d : Date) : 1 ≤ d.day ∧ d.day ≤ 31 :=
  ⟨d.isDay.2.2.1, d.isDay.2.2.2.trans (monthLength_le d.year d.month)⟩

/-! ## Characters -/

def isMark (c : Char) : Bool :=
  c.isDigit || c == '-' || c == '/' || c == 'W'

theorem isMark_iff {c : Char} : isMark c = true ↔ c.isDigit = true ∨ c = '-' ∨ c = '/' ∨ c = 'W' := by
  simp [isMark, or_assoc]

theorem isMark_range {c : Char} (h : isMark c = true) : 45 ≤ c.toNat ∧ c.toNat ≤ 87 := by
  rcases isMark_iff.mp h with hdigit | rfl | rfl | rfl
  · have hrange := isDigit_iff.mp hdigit
    omega
  all_goals decide

theorem not_isBlank_of_isMark {c : Char} (h : isMark c = true) : isBlank c = false := by
  obtain ⟨hlow, hhigh⟩ := isMark_range h
  unfold isBlank
  simp only [Bool.or_eq_false_iff, Bool.and_eq_false_iff, decide_eq_false_iff_not, beq_eq_false_iff_ne]
  omega

theorem utf8ByteSize_of_ascii {s : String} (h : ∀ c ∈ s.toList, c.toNat ≤ 127) :
    s.utf8ByteSize = s.toList.length := by
  have hsize : ∀ cs : List Char, (∀ c ∈ cs, c.toNat ≤ 127) → (String.ofList cs).utf8ByteSize = cs.length := by
    intro cs
    induction cs with
    | nil => intro _; rfl
    | cons c cs ih =>
        intro hascii
        have hone : c.utf8Size = 1 := Char.utf8Size_eq_one_iff.mpr (hascii c List.mem_cons_self)
        rw [← List.singleton_append, String.ofList_append, String.utf8ByteSize_append,
          ih fun b hb => hascii b (List.mem_cons_of_mem c hb), List.length_append]
        simp [hone]
  rw [← hsize s.toList h, String.ofList_toList]

def Marks (s : String) : Prop :=
  ∀ c ∈ s.toList, isMark c = true

theorem marks_dash : Marks "-" := by simp [Marks, isMark]

theorem marks_slash : Marks "/" := by simp [Marks, isMark]

theorem marks_week : Marks "-W" := by simp [Marks, isMark]

theorem Marks.append {s t : String} (hs : Marks s) (ht : Marks t) : Marks (s ++ t) := by
  unfold Marks
  rw [String.toList_append, List.forall_mem_append]
  exact ⟨hs, ht⟩

theorem marks_padded (width n : Nat) : Marks (padded width n) :=
  fun c hc => isMark_iff.mpr (.inl (padded_isDigit width n c hc))

theorem Marks.utf8ByteSize {s : String} (h : Marks s) : s.utf8ByteSize = s.toList.length :=
  utf8ByteSize_of_ascii fun c hc => (isMark_range (h c hc)).2.trans (by omega)

theorem marks_toText (d : Date) : Marks d.toText :=
  ((((marks_padded 4 _).append marks_dash).append (marks_padded 2 _)).append marks_dash).append (marks_padded 2 _)

theorem marks_compactText (d : Date) : Marks d.compactText :=
  ((marks_padded 4 _).append (marks_padded 2 _)).append (marks_padded 2 _)

theorem marks_weekText (d : Date) : Marks d.weekText :=
  ((((marks_padded 4 _).append marks_week).append (marks_padded 2 _)).append marks_dash).append (marks_padded 1 _)

theorem marks_slashText (d : Date) : Marks d.slashText :=
  ((((marks_padded 2 _).append marks_slash).append (marks_padded 2 _)).append marks_slash).append (marks_padded 4 _)

/-! ## Taking numbers off -/

variable {width n : Nat}

theorem takeNumber?_padded (hwidth : 0 < width) (hn : n < 10 ^ width) (rest : List Char) :
    takeNumber? width ((padded width n).toList ++ rest) = some (n, rest) := by
  have hlength := length_padded hwidth hn
  unfold takeNumber?
  rw [if_neg (by rw [List.length_append]; omega), List.take_left' hlength, List.drop_left' hlength, asciiNat?_padded]
  rfl

theorem takeNumber?_padded_end (hwidth : 0 < width) (hn : n < 10 ^ width) :
    takeNumber? width (padded width n).toList = some (n, []) := by
  have htaken := takeNumber?_padded hwidth hn []
  rwa [List.append_nil] at htaken

theorem head?_padded_ne {c : Char} (hc : c.isDigit = false) (width n : Nat) (rest : List Char) :
    ((padded width n).toList ++ rest).head? ≠ some c := by
  obtain ⟨first, cs, hcs⟩ := List.exists_cons_of_ne_nil (padded_ne_nil width n)
  have hfirst := padded_isDigit width n first (by simp [hcs])
  rw [hcs, List.cons_append, List.head?_cons]
  rintro ⟨⟩
  rw [hfirst] at hc
  exact Bool.noConfusion hc

theorem takePart?_padded {most : Nat} (hpos : 1 ≤ n) (hmost : n ≤ most) (htwo : n < 10 ^ 2) (rest : List Char) :
    takePart? most ((padded 2 n).toList ++ '/' :: rest) = some (n, rest) := by
  have hlength := length_padded (by omega) htwo
  have hvalue := ofDigitChars_padded 2 n
  have hdigits := padded_isDigit 2 n
  obtain ⟨a, b, hab⟩ := List.length_eq_two.mp hlength
  rw [hab] at hvalue hdigits ⊢
  have ha := hdigits a (by simp)
  have hb := hdigits b (by simp)
  have hslash : b ≠ '/' := by
    rintro rfl
    exact absurd hb (by decide)
  have hn : 10 * (a.toNat - 48) + (b.toNat - 48) = n := by
    simpa [Nat.ofDigitChars_cons] using hvalue
  unfold takePart?
  simp only [List.cons_append, List.nil_append, asciiDigit?_of_isDigit ha, asciiDigit?_of_isDigit hb,
    digit?_of_isDigit hb, ite_self, Option.bind_eq_bind, Option.bind_some, hn, hpos, hmost, and_self, if_true,
    Option.map_some]

/-! ## The ISO forms -/

theorem ofParts?_self (d : Date) : ofParts? d.year d.month d.day = some d :=
  dif_pos d.isDay

theorem padded_length (d : Date) : (padded 4 d.year).toList.length = 4 ∧ (padded 2 d.month).toList.length = 2 ∧
    (padded 2 d.day).toList.length = 2 := by
  have hyear := d.isDay.2.1
  have hmonth := d.month_bounds.2
  have hday := d.day_bounds.2
  exact ⟨length_padded (by omega) (by omega), length_padded (by omega) (by omega),
    length_padded (by omega) (by omega)⟩

theorem ofIso?_of_parts (d : Date) {s : String} (dashed : Bool) {dash : List Char}
    (hmarks : Marks s) (hdash : dash = if dashed then ['-'] else [])
    (hs : s.toList = (padded 4 d.year).toList ++ (dash ++ ((padded 2 d.month).toList ++ (dash ++
      (padded 2 d.day).toList)))) : ofIso? s = some d := by
  obtain ⟨hfour, htwo, htwo'⟩ := d.padded_length
  have hyear := d.isDay.2.1
  have hmonth := d.month_bounds.2
  have hday := d.day_bounds.2
  have hlength : s.utf8ByteSize = 8 + 2 * dash.length := by
    rw [hmarks.utf8ByteSize, hs]
    simp only [List.length_append]
    omega
  have hskip : ∀ cs, skipDash? dashed (dash ++ cs) = some cs := by
    intro cs
    cases dashed <;> rw [hdash] <;> rfl
  have hhead : ((dash ++ ((padded 2 d.month).toList ++ (dash ++ (padded 2 d.day).toList))).head? == some '-') =
      dashed := by
    cases dashed
    · simp only [hdash, Bool.false_eq_true, if_false, List.nil_append, beq_eq_false_iff_ne]
      exact head?_padded_ne (by decide) 2 d.month _
    · simp only [hdash, if_true, List.singleton_append, List.head?_cons, beq_self_eq_true]
  have hsize : dash.length = 0 ∨ dash.length = 1 := by
    cases dashed <;> rw [hdash] <;> simp
  unfold ofIso?
  rw [if_neg (by omega), hs, takeNumber?_padded (show 0 < 4 by omega) (show d.year < 10 ^ 4 by omega)]
  simp only [Option.bind_eq_bind, Option.bind_some, hhead, hskip]
  split
  · rename_i hweek
    have hletter := head?_padded_ne (show 'W'.isDigit = false by decide) 2 d.month (dash ++ (padded 2 d.day).toList)
    rw [hweek] at hletter
    exact absurd rfl hletter
  · rw [takeNumber?_padded (show 0 < 2 by omega) (show d.month < 10 ^ 2 by omega)]
    simp only [Option.bind_some, hskip]
    rw [takeNumber?_padded_end (show 0 < 2 by omega) (show d.day < 10 ^ 2 by omega)]
    exact d.ofParts?_self

theorem toText_toList (d : Date) : d.toText.toList =
    (padded 4 d.year).toList ++ (['-'] ++ ((padded 2 d.month).toList ++ (['-'] ++ (padded 2 d.day).toList))) := by
  simp [toText]

theorem length_toText (d : Date) : d.toText.toList.length = 10 := by
  obtain ⟨hfour, htwo, htwo'⟩ := d.padded_length
  simp only [toText_toList, List.length_append, List.length_singleton]
  omega

theorem ofIso?_toText (d : Date) : ofIso? d.toText = some d :=
  ofIso?_of_parts d true d.marks_toText rfl d.toText_toList

theorem compactText_toList (d : Date) : d.compactText.toList =
    (padded 4 d.year).toList ++ ((padded 2 d.month).toList ++ (padded 2 d.day).toList) := by
  simp [compactText]

theorem length_compactText (d : Date) : d.compactText.toList.length = 8 := by
  obtain ⟨hfour, htwo, htwo'⟩ := d.padded_length
  simp only [compactText_toList, List.length_append]
  omega

theorem ofIso?_compactText (d : Date) : ofIso? d.compactText = some d :=
  ofIso?_of_parts d false d.marks_compactText rfl (by simp [compactText])

theorem weekText_toList (d : Date) : d.weekText.toList =
    (padded 4 d.isoYear).toList ++ '-' :: 'W' :: ((padded 2 d.isoWeek).toList ++ '-' ::
      (padded 1 d.isoWeekday).toList) := by
  simp [weekText]

theorem iso_lt (d : Date) : d.isoYear < 10 ^ 4 ∧ d.isoWeek < 10 ^ 2 ∧ d.isoWeekday < 10 ^ 1 := by
  have hyear := d.isoYear_bounds.2
  have hweeks := d.isoWeek_bounds.2
  have hday := d.isoWeekday_bounds.2
  omega

theorem length_weekText (d : Date) : d.weekText.toList.length = 10 := by
  obtain ⟨hyear, hweek, hday⟩ := d.iso_lt
  simp only [weekText_toList, List.length_append, List.length_cons, length_padded (show 0 < 4 by omega) hyear,
    length_padded (show 0 < 2 by omega) hweek, length_padded (show 0 < 1 by omega) hday]

theorem ofIso?_weekText (d : Date) : ofIso? d.weekText = some d := by
  obtain ⟨hyear, hweek, hday⟩ := d.iso_lt
  have hlength := d.marks_weekText.utf8ByteSize.trans d.length_weekText
  unfold ofIso?
  rw [if_neg (by omega), weekText_toList, takeNumber?_padded (show 0 < 4 by omega) hyear]
  simp only [Option.bind_eq_bind, Option.bind_some, List.head?_cons, beq_self_eq_true, skipDash?, if_true, ofIsoWeek?,
    takeNumber?_padded (show 0 < 2 by omega) hweek, List.isEmpty_cons, Bool.false_eq_true, if_false]
  rw [takeNumber?_padded_end (show 0 < 1 by omega) hday]
  exact d.ofWeek?_iso

/-! ## The form with slashes -/

theorem slashText_toList (d : Date) : d.slashText.toList =
    (padded 2 d.day).toList ++ '/' :: ((padded 2 d.month).toList ++ '/' :: (padded 4 d.year).toList) := by
  simp [slashText]

theorem length_slashText (d : Date) : d.slashText.toList.length = 10 := by
  obtain ⟨hfour, htwo, htwo'⟩ := d.padded_length
  simp only [slashText_toList, List.length_append, List.length_cons]
  omega

/-- The slash stands where the ISO forms have a digit of the year. -/
theorem ofIso?_slashText (d : Date) : ofIso? d.slashText = none := by
  have hslash : '/' ∈ d.slashText.toList.take 4 := by
    rw [slashText_toList, List.take_append, d.padded_length.2.2]
    simp
  have hyear : takeNumber? 4 d.slashText.toList = none := by
    unfold takeNumber?
    rw [asciiNat?_of_mem hslash (by decide)]
    exact ite_self none
  unfold ofIso?
  rw [hyear]
  exact ite_self none

theorem ofDayMonthYear?_slashText (d : Date) : ofDayMonthYear? d.slashText = some d := by
  have hmonth := d.month_bounds
  have hday := d.day_bounds
  unfold ofDayMonthYear?
  rw [slashText_toList, takePart?_padded hday.1 hday.2 (by omega)]
  simp only [Option.bind_eq_bind, Option.bind_some]
  rw [takePart?_padded hmonth.1 hmonth.2 (by omega)]
  simp only [Option.bind_some, d.padded_length.1, ne_eq, not_true_eq_false, if_false, nat?_padded]
  exact d.ofParts?_self

end GoalReconciliation.Date

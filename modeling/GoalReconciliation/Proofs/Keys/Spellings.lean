import GoalReconciliation.GroupingKey
import GoalReconciliation.Proofs.Calendar.Reading
import GoalReconciliation.Proofs.Text.Blanks

/-!
# The spellings of a day in a key

A key may be asked for with a day, an instant or a text. A text has white space around it, and behind a form of ten
characters it may go on as it likes.

* `GroupingKey.Spelling` : the ways to give a day;
* `dateText_iso`, `dateText_slash` : what the first ten characters write is read, else the whole text;
* `Spelling.toText_eq` : each way to give a day writes it as `YYYY-MM-DD`;
* `spelling_key` : and makes the key that the day makes; `generate_toText` : what that key is joined from.
-/

namespace GoalReconciliation.GroupingKey

open Text

set_option autoImplicit false

/-- The ways to give a day: the day, an instant of it, or a text of one of four forms with white space around it. Anything
may follow the dashed form and the week form, which fill the ten characters that are looked at. -/
inductive Spelling (d : Date) : GivenDate → Prop where
  | day : Spelling d (.day d)
  | instant (t : Timestamp) (h : t.date = d) : Spelling d (.instant t)
  | dashed (w s w' : String) (hw : Blanks w.toList) (hw' : Blanks w'.toList) :
      Spelling d (.text (w ++ d.toText ++ s ++ w'))
  | compact (w w' : String) (hw : Blanks w.toList) (hw' : Blanks w'.toList) :
      Spelling d (.text (w ++ d.compactText ++ w'))
  | week (w s w' : String) (hw : Blanks w.toList) (hw' : Blanks w'.toList) :
      Spelling d (.text (w ++ d.weekText ++ s ++ w'))
  | slashed (w w' : String) (hw : Blanks w.toList) (hw' : Blanks w'.toList) :
      Spelling d (.text (w ++ d.slashText ++ w'))

variable {d : Date} {w form rest : String}

/-- What is left of a written form in white space. -/
theorem strip_form (hw : Blanks w.toList) (hne : form.toList ≠ []) (hmarks : Date.Marks form)
    (rest : String) : strip (w ++ form ++ rest) = String.ofList (form.toList ++ stripRight rest.toList) := by
  have hsolid : Solid form.toList := fun c hc => Date.not_isBlank_of_isMark (hmarks c hc)
  rw [← strip_framed hw hne hsolid rest.toList]
  congr 1
  rw [← String.toList_inj]
  simp

theorem strip_form_ne (hne : form.toList ≠ []) (cs : List Char) : String.ofList (form.toList ++ cs) ≠ "" := by
  intro hempty
  have hnil := congrArg String.toList hempty
  rw [String.toList_ofList] at hnil
  exact hne (List.append_eq_nil_iff.mp hnil).1

/-- A form that the first ten characters make up is read, whatever follows. -/
theorem dateText_iso (hw : Blanks w.toList) (hmarks : Date.Marks form)
    (hne : form.toList ≠ []) (hread : Date.ofIso? form = some d)
    (htake : (form.toList ++ stripRight rest.toList).take 10 = form.toList) :
    dateText (w ++ form ++ rest) = .ok d.toText := by
  unfold dateText
  rw [strip_form hw hne hmarks rest]
  dsimp only
  rw [if_neg (strip_form_ne hne _), String.toList_ofList, htake, String.ofList_toList, hread]

theorem dateText_slash {w' : String} (hw : Blanks w.toList) (hw' : Blanks w'.toList) :
    dateText (w ++ d.slashText ++ w') = .ok d.toText := by
  have hlength := d.length_slashText
  have hne : d.slashText.toList ≠ [] := List.ne_nil_of_length_pos (by omega)
  unfold dateText
  rw [strip_form hw hne d.marks_slashText w', stripRight_blanks hw', List.append_nil]
  dsimp only
  rw [String.ofList_toList, if_neg (fun h => hne (by rw [h]; rfl)), List.take_of_length_le (by omega),
    String.ofList_toList, d.ofIso?_slashText, d.ofDayMonthYear?_slashText]

/-- Each way to give a day writes it as `YYYY-MM-DD`. -/
theorem Spelling.toText_eq {given : GivenDate} (h : Spelling d given) : given.toText = .ok d.toText := by
  cases h with
  | day => rfl
  | instant t ht =>
      show Except.ok t.date.toText = .ok d.toText
      rw [ht]
  | dashed w s w' hw hw' =>
      have hlength := d.length_toText
      show dateText (w ++ d.toText ++ s ++ w') = .ok d.toText
      rw [String.append_assoc]
      apply dateText_iso hw d.marks_toText (List.ne_nil_of_length_pos (by omega)) d.ofIso?_toText
      exact List.take_left' hlength
  | compact w w' hw hw' =>
      have hlength := d.length_compactText
      show dateText (w ++ d.compactText ++ w') = .ok d.toText
      apply dateText_iso hw d.marks_compactText (List.ne_nil_of_length_pos (by omega)) d.ofIso?_compactText
      rw [stripRight_blanks hw', List.append_nil]
      exact List.take_of_length_le (by omega)
  | week w s w' hw hw' =>
      have hlength := d.length_weekText
      show dateText (w ++ d.weekText ++ s ++ w') = .ok d.toText
      rw [String.append_assoc]
      apply dateText_iso hw d.marks_weekText (List.ne_nil_of_length_pos (by omega)) d.ofIso?_weekText
      exact List.take_left' hlength
  | slashed w w' hw hw' =>
      show dateText (w ++ d.slashText ++ w') = .ok d.toText
      exact dateText_slash hw hw'

theorem dateText_toText (d : Date) : dateText d.toText = .ok d.toText := by
  have hspelling : Spelling d (.text d.toText) := by
    have hempty : Blanks "".toList := by simp [Blanks]
    have hdashed := Spelling.dashed (d := d) "" "" "" hempty hempty
    rwa [String.empty_append, String.append_empty, String.append_empty] at hdashed
  exact hspelling.toText_eq

theorem generate_toText (d : Date) (accountId goalId sourceId channel : String) :
    generate d.toText accountId goalId sourceId channel = joined d.toText accountId goalId sourceId channel := by
  unfold generate
  rw [dateText_toText]
  exact pure_bind (m := Except Problem) d.toText fun date => joined date accountId goalId sourceId channel

/-- However a day is given, it is written as `YYYY-MM-DD`, and the key is the one that the day itself makes. -/
theorem spelling_key {d : Date} {given : GivenDate} (h : Spelling d given)
    (accountId goalId sourceId channel : String) :
    given.toText = .ok d.toText ∧
      generateOn given accountId goalId sourceId channel = generateOn (.day d) accountId goalId sourceId channel := by
  have htext := h.toText_eq
  refine ⟨htext, ?_⟩
  unfold generateOn
  rw [htext]
  rfl

/-- The Sunday after the new year of 2021, by its week in 2020 and with a time behind it. -/
theorem spelling_key_sunday :
    (GivenDate.text " 2020-W53-7T23:59\n").toText = .ok "2021-01-03" ∧
      generateOn (.text " 2020-W53-7T23:59\n") "256-774" "G1" "TX1" "BANK" = .ok "2021-01-03-256-774-G1-TX1-BANK" := by
  have hspelling : Spelling ⟨2021, 1, 3, by decide⟩ (.text " 2020-W53-7T23:59\n") :=
    Spelling.week " " "T23:59" "\n" (by simp [Blanks, isBlank]) (by simp [Blanks, isBlank])
  exact spelling_key hspelling "256-774" "G1" "TX1" "BANK"

end GoalReconciliation.GroupingKey

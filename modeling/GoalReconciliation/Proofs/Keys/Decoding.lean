import GoalReconciliation.GroupingKey
import GoalReconciliation.Proofs.Calendar.Reading
import GoalReconciliation.Proofs.Fallible
import Mathlib.Data.List.Infix

/-!
# Keys and their parts

A key is its fields between dashes, so the fields can be told apart only as far as they hold no dashes themselves. The
parts of a key are read from both ends, and the account is what remains in the middle.

* `splitDashes_intercalate` : the parts of a key are the parts of its fields, one field after the other;
* `parts_solid_iff` : a text without empty parts is one whose dashes stand apart, inside the text;
* `parse?_joined_iff` : a key is read if none of its parts is empty, from the end;
* `decodes_iff` : the fields come back just when the goal, the source id and the channel have no dash, and those of the
  account stand apart.
-/

namespace GoalReconciliation.GroupingKey

open Fallible (bind_eq_ok)
open Text

set_option autoImplicit false

/-! ## Parts between dashes -/

variable {cs : List Char}

theorem splitDashes_eq (cs : List Char) : splitDashes cs = cs.splitOn '-' := by
  induction cs with
  | nil => rfl
  | cons c cs ih =>
      rw [splitDashes, ih, List.splitOn_cons_eq_if_modifyHead]
      simp only [beq_iff_eq]
      split
      · rfl
      · cases hparts : cs.splitOn '-' with
        | nil => exact absurd hparts (List.splitOn_ne_nil '-' cs)
        | cons part parts => rfl

theorem splitDashes_ne_nil (cs : List Char) : splitDashes cs ≠ [] := by
  rw [splitDashes_eq]
  exact List.splitOn_ne_nil '-' cs

theorem splitDashes_append_cons (before behind : List Char) :
    splitDashes (before ++ '-' :: behind) = splitDashes before ++ splitDashes behind := by
  simp only [splitDashes_eq, List.splitOn_append_cons_self]

theorem splitDashes_of_not_mem (h : '-' ∉ cs) : splitDashes cs = [cs] := by
  rw [splitDashes_eq, List.splitOn_eq_singleton h]

theorem splitDashes_cons_of_ne {c : Char} (hc : c ≠ '-') (cs : List Char) :
    ∃ part parts, splitDashes cs = part :: parts ∧ splitDashes (c :: cs) = (c :: part) :: parts := by
  obtain ⟨part, parts, hparts⟩ := List.exists_cons_of_ne_nil (splitDashes_ne_nil cs)
  refine ⟨part, parts, hparts, ?_⟩
  rw [splitDashes, if_neg hc, hparts]

theorem splitDashes_dash (cs : List Char) : splitDashes ('-' :: cs) = [] :: splitDashes cs :=
  if_pos rfl

theorem not_mem_of_mem_splitDashes {part : List Char} (h : part ∈ splitDashes cs) : '-' ∉ part := by
  induction cs generalizing part with
  | nil =>
      rw [List.mem_singleton.mp h]
      exact List.not_mem_nil
  | cons c cs ih =>
      by_cases hc : c = '-'
      · rw [hc, splitDashes_dash] at h
        rcases List.mem_cons.mp h with rfl | hrest
        · exact List.not_mem_nil
        · exact ih hrest
      · obtain ⟨first, parts, hparts, hcons⟩ := splitDashes_cons_of_ne hc cs
        rw [hcons] at h
        rcases List.mem_cons.mp h with rfl | hrest
        · have hfirst : '-' ∉ first := ih (by rw [hparts]; exact List.mem_cons_self)
          simp [hfirst, Ne.symm hc]
        · exact ih (by rw [hparts]; exact List.mem_cons_of_mem _ hrest)

theorem splitDashes_intercalate {texts : List String} (hne : texts ≠ []) :
    splitDashes ("-".intercalate texts).toList = texts.flatMap fun text => splitDashes text.toList := by
  induction texts with
  | nil => exact absurd rfl hne
  | cons text texts ih =>
      rw [List.flatMap_cons]
      rcases List.eq_nil_or_concat texts with rfl | ⟨init, last, hlast⟩
      · simp
      · have hrest : texts ≠ [] := by
          rw [hlast]
          simp
        rw [String.intercalate_cons_of_ne_nil hrest, ← ih hrest, ← splitDashes_append_cons]
        simp

/-! ## Dashes apart -/

/-- No dash leads or trails, and no two of them follow one another. -/
def DashesApart (cs : List Char) : Prop :=
  cs.head? ≠ some '-' ∧ cs.getLast? ≠ some '-' ∧ ¬['-', '-'] <:+: cs

instance (cs : List Char) : Decidable (DashesApart cs) :=
  inferInstanceAs (Decidable (_ ∧ _))

/-- The first part is not empty if the text starts with a character that is no dash. -/
theorem parts_solid_cases (cs : List Char) : (∀ part ∈ splitDashes cs, part ≠ []) ↔
    (cs ≠ [] ∧ cs.head? ≠ some '-') ∧ ∀ part ∈ (splitDashes cs).tail, part ≠ [] := by
  cases cs with
  | nil => simp [splitDashes]
  | cons c cs =>
      by_cases hc : c = '-'
      · rw [hc, splitDashes_dash]
        simp
      · obtain ⟨part, parts, -, hcons⟩ := splitDashes_cons_of_ne hc cs
        rw [hcons]
        simp [hc]

/-- Behind the first part none is empty if no dash trails and no two follow one another. -/
theorem tail_parts_solid_iff (cs : List Char) :
    (∀ part ∈ (splitDashes cs).tail, part ≠ []) ↔ cs.getLast? ≠ some '-' ∧ ¬['-', '-'] <:+: cs := by
  induction cs with
  | nil => simp [splitDashes]
  | cons c cs ih =>
      rw [List.infix_cons_iff, List.cons_prefix_cons]
      by_cases hc : c = '-'
      · -- The text before this dash is empty, so that behind it there has to be a character that is no dash.
        rw [hc, splitDashes_dash, List.tail_cons, parts_solid_cases, ih]
        cases cs with
        | nil => simp
        | cons b cs =>
            rw [List.cons_prefix_cons, List.getLast?_cons_cons]
            simp [eq_comm, and_left_comm]
      · obtain ⟨part, parts, hparts, hcons⟩ := splitDashes_cons_of_ne hc cs
        rw [hparts, List.tail_cons] at ih
        rw [hcons, List.tail_cons, ih]
        cases cs with
        | nil => simp [hc]
        | cons b cs => simp [Ne.symm hc, List.getLast?_cons_cons]

/-- A text has no empty part just when its dashes stand apart. -/
theorem parts_solid_iff (hne : cs ≠ []) : (∀ part ∈ splitDashes cs, part ≠ []) ↔ DashesApart cs := by
  rw [parts_solid_cases, tail_parts_solid_iff]
  unfold DashesApart
  simp [hne]

/-! ## Keys -/

theorem splitDashes_toText (d : Date) :
    splitDashes d.toText.toList = [(padded 4 d.year).toList, (padded 2 d.month).toList, (padded 2 d.day).toList] := by
  have hsolid : ∀ width n, '-' ∉ (padded width n).toList := fun width n h =>
    absurd (padded_isDigit width n _ h) (by decide)
  rw [Date.toText_toList, List.singleton_append, splitDashes_append_cons, List.singleton_append,
    splitDashes_append_cons, splitDashes_of_not_mem (hsolid _ _), splitDashes_of_not_mem (hsolid _ _),
    splitDashes_of_not_mem (hsolid _ _)]
  rfl

theorem isNumber_of_digits {count : Nat} (hlength : cs.length = count) (hcs : ∀ c ∈ cs, c.isDigit = true) :
    isNumber count cs = true := by
  unfold isNumber
  rw [Bool.and_eq_true, beq_iff_eq, List.all_eq_true]
  refine ⟨hlength, ?_⟩
  intro c hc
  rw [digit?_of_isDigit (hcs c hc)]
  rfl

def fieldParts (fields : List String) : List (List Char) :=
  fields.flatMap fun field => splitDashes field.toList

theorem length_le_fieldParts (fields : List String) : fields.length ≤ (fieldParts fields).length := by
  induction fields with
  | nil => exact Nat.zero_le _
  | cons field fields ih =>
      have hpos := List.length_pos_iff.mpr (splitDashes_ne_nil field.toList)
      unfold fieldParts at ih ⊢
      rw [List.flatMap_cons, List.length_append, List.length_cons]
      omega

/-- A key of a day and four or more fields is read if none of its parts is empty, from the end. -/
theorem parse?_joined_iff {d : Date} {fields : List String} (hfour : 4 ≤ fields.length) {key : GroupingKey} :
    parse? ("-".intercalate (d.toText :: fields)) = some key ↔
      (∀ part ∈ fieldParts fields, part ≠ []) ∧ ofReversed? d (fieldParts fields).reverse = some key := by
  have hparts : splitDashes ("-".intercalate (d.toText :: fields)).toList = (padded 4 d.year).toList ::
      (padded 2 d.month).toList :: (padded 2 d.day).toList :: fieldParts fields := by
    rw [splitDashes_intercalate (List.cons_ne_nil _ _), List.flatMap_cons, splitDashes_toText]
    rfl
  have hkey : isKey ("-".intercalate (d.toText :: fields)) = true ↔ ∀ part ∈ fieldParts fields, part ≠ [] := by
    have hlength := hfour.trans (length_le_fieldParts fields)
    obtain ⟨hyear, hmonth, hday⟩ := d.padded_length
    unfold isKey
    rw [hparts]
    simp [isKeyParts, isNumber_of_digits hyear (padded_isDigit 4 _), isNumber_of_digits hmonth (padded_isDigit 2 _),
      isNumber_of_digits hday (padded_isDigit 2 _), hlength]
  unfold parse?
  split
  · rename_i hform
    rw [hparts]
    simp only [nat?_padded, Option.bind_eq_bind, Option.bind_some, d.ofParts?_self]
    exact (and_iff_right (hkey.mp hform)).symm
  · rename_i hform
    refine iff_of_false (by simp) ?_
    rintro ⟨hsolid, -⟩
    exact hform (hkey.mpr hsolid)

/-! ## Fields that come back -/

variable {d : Date} {account goal source channel : String}

theorem part_ok {name written : String} (h : strip written ≠ "") : part name written = .ok (strip written) :=
  if_neg h

theorem joined_ok {date : String} (haccount : strip account ≠ "") (hgoal : strip goal ≠ "")
    (hsource : strip source ≠ "") (hchannel : strip channel ≠ "") :
    joined date account goal source channel =
      .ok ("-".intercalate [date, strip account, strip goal, strip source, strip channel]) := by
  unfold joined
  rw [part_ok haccount, part_ok hgoal, part_ok hsource, part_ok hchannel]
  rfl

/-- Four fields make a key only if none of them is blank. -/
theorem exists_joined_iff {date : String} : (∃ key, joined date account goal source channel = .ok key) ↔
    strip account ≠ "" ∧ strip goal ≠ "" ∧ strip source ≠ "" ∧ strip channel ≠ "" := by
  have hpart : ∀ {name written text : String}, part name written = .ok text → strip written ≠ "" := by
    intro name written text h hblank
    unfold part at h
    dsimp only at h
    rw [if_pos hblank] at h
    cases h
  constructor
  · rintro ⟨key, h⟩
    obtain ⟨a, haccount, h⟩ := bind_eq_ok.mp h
    obtain ⟨g, hgoal, h⟩ := bind_eq_ok.mp h
    obtain ⟨s, hsource, h⟩ := bind_eq_ok.mp h
    obtain ⟨c, hchannel, -⟩ := bind_eq_ok.mp h
    exact ⟨hpart haccount, hpart hgoal, hpart hsource, hpart hchannel⟩
  · rintro ⟨haccount, hgoal, hsource, hchannel⟩
    exact ⟨_, joined_ok haccount hgoal hsource hchannel⟩

/-- The last three parts of a key that is read are its goal, its source id and its channel. -/
theorem ofReversed?_eq_some {parts : List (List Char)} {key : GroupingKey} (h : ofReversed? d parts = some key) :
    ∃ front, parts = key.channel.toList :: key.sourceId.toList :: key.goalId.toList :: front := by
  unfold ofReversed? at h
  split at h
  · obtain rfl := Option.some.inj h
    simp
  · exact absurd h (by simp)

/-- Fields come back from their parts if the last three of them have no dash. -/
theorem ofReversed?_fieldParts (hgoal : '-' ∉ goal.toList) (hsource : '-' ∉ source.toList)
    (hchannel : '-' ∉ channel.toList) :
    ofReversed? d (fieldParts [account, goal, source, channel]).reverse =
      some ⟨d, account, goal, source, channel⟩ := by
  have haccount : "-".intercalate ((splitDashes account.toList).map String.ofList) = account := by
    rw [← String.toList_inj, String.toList_intercalate, List.map_map, splitDashes_eq]
    have hid : String.toList ∘ String.ofList = id := funext fun _ => String.toList_ofList
    rw [hid, List.map_id]
    exact List.intercalate_splitOn '-'
  simp [fieldParts, ofReversed?, splitDashes_of_not_mem hgoal, splitDashes_of_not_mem hsource,
    splitDashes_of_not_mem hchannel, haccount]

/-- The parts of the fields are not empty if the dashes of the account stand apart and the others have none. -/
theorem fieldParts_solid_iff (haccount : account ≠ "") (hgoal : goal ≠ "" ∧ '-' ∉ goal.toList)
    (hsource : source ≠ "" ∧ '-' ∉ source.toList) (hchannel : channel ≠ "" ∧ '-' ∉ channel.toList) :
    (∀ part ∈ fieldParts [account, goal, source, channel], part ≠ []) ↔ DashesApart account.toList := by
  rw [← parts_solid_iff (by simpa using haccount)]
  simp [fieldParts, splitDashes_of_not_mem hgoal.2, splitDashes_of_not_mem hsource.2,
    splitDashes_of_not_mem hchannel.2, hgoal.1, hsource.1, hchannel.1, or_imp, forall_and]

/-- A key gives back the fields that it was made of just when the goal, the source id and the channel have no dash and
those of the account stand apart. -/
theorem decodes_iff {d : Date} {account goal source channel : String} (haccount : strip account ≠ "")
    (hgoal : strip goal ≠ "") (hsource : strip source ≠ "") (hchannel : strip channel ≠ "") :
    ∃ key, generateOn (.day d) account goal source channel = .ok key ∧
      (parse? key = some ⟨d, strip account, strip goal, strip source, strip channel⟩ ↔
        '-' ∉ (strip goal).toList ∧ '-' ∉ (strip source).toList ∧ '-' ∉ (strip channel).toList ∧
          DashesApart (strip account).toList) := by
  have hkey : generateOn (.day d) account goal source channel = joined d.toText account goal source channel :=
    pure_bind (m := Except Problem) d.toText fun date => joined date account goal source channel
  rw [hkey, joined_ok haccount hgoal hsource hchannel]
  refine ⟨_, rfl, ?_⟩
  rw [parse?_joined_iff (show 4 ≤ [strip account, strip goal, strip source, strip channel].length from Nat.le_refl 4)]
  constructor
  · rintro ⟨hsolid, hread⟩
    obtain ⟨front, hfront⟩ := ofReversed?_eq_some hread
    have hdashless : ∀ part ∈ (fieldParts [strip account, strip goal, strip source, strip channel]).reverse,
        '-' ∉ part := by
      intro part hpart
      obtain ⟨field, -, hfield⟩ := List.mem_flatMap.mp (List.mem_reverse.mp hpart)
      exact not_mem_of_mem_splitDashes hfield
    rw [hfront] at hdashless
    simp only [List.forall_mem_cons] at hdashless
    obtain ⟨hchannel', hsource', hgoal', -⟩ := hdashless
    refine ⟨hgoal', hsource', hchannel', ?_⟩
    exact (fieldParts_solid_iff haccount ⟨hgoal, hgoal'⟩ ⟨hsource, hsource'⟩ ⟨hchannel, hchannel'⟩).mp hsolid
  · rintro ⟨hgoal', hsource', hchannel', hapart⟩
    refine ⟨?_, ofReversed?_fieldParts hgoal' hsource' hchannel'⟩
    exact (fieldParts_solid_iff haccount ⟨hgoal, hgoal'⟩ ⟨hsource, hsource'⟩ ⟨hchannel, hchannel'⟩).mpr hapart

/-- An account with dashes comes back from a key; a doubled dash in it spoils the key. -/
theorem decodes_iff_account :
    (∃ key, generateOn (.day ⟨2024, 3, 1, by decide⟩) " 256-774" "G1" "TX1" "BANK" = .ok key ∧
      parse? key = some ⟨⟨2024, 3, 1, by decide⟩, "256-774", "G1", "TX1", "BANK"⟩) ∧
    ∃ key, generateOn (.day ⟨2024, 3, 1, by decide⟩) "256--774" "G1" "TX1" "BANK" = .ok key ∧
      parse? key ≠ some ⟨⟨2024, 3, 1, by decide⟩, "256--774", "G1", "TX1", "BANK"⟩ := by
  constructor
  · obtain ⟨key, hkey, hiff⟩ := @decodes_iff ⟨2024, 3, 1, by decide⟩ " 256-774" "G1" "TX1" "BANK" (by decide)
      (by decide) (by decide) (by decide)
    exact ⟨key, hkey, hiff.mpr (by decide)⟩
  · obtain ⟨key, hkey, hiff⟩ := @decodes_iff ⟨2024, 3, 1, by decide⟩ "256--774" "G1" "TX1" "BANK" (by decide)
      (by decide) (by decide) (by decide)
    exact ⟨key, hkey, fun hread => absurd (hiff.mp hread) (by decide)⟩

end GoalReconciliation.GroupingKey

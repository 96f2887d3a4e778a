import GoalReconciliation.Text.Basic
import Mathlib.Data.List.TakeWhile

/-!
# White space around a text

* `stripLeft_blanks_append`, `stripRight_blanks` : white space at an end is dropped;
* `stripRight_solid_append` : what stands before a character that is kept is kept;
* `strip_framed` : a text without white space inside is kept whole, and what stands before it is gone.
-/

namespace GoalReconciliation.Text

set_option autoImplicit false

def Blanks (cs : List Char) : Prop :=
  ∀ c ∈ cs, isBlank c = true

def Solid (cs : List Char) : Prop :=
  ∀ c ∈ cs, isBlank c = false

variable {w cs rest : List Char}

theorem stripLeft_blanks_append (hw : Blanks w) (cs : List Char) : stripLeft (w ++ cs) = stripLeft cs :=
  List.dropWhile_append_of_pos hw

theorem dropWhile_solid (hcs : Solid cs) : cs.dropWhile isBlank = cs := by
  cases cs with
  | nil => rfl
  | cons c cs =>
      have hc : isBlank c = false := hcs c List.mem_cons_self
      rw [List.dropWhile_cons_of_neg (by simp [hc])]

theorem stripRight_blanks (hw : Blanks w) : stripRight w = [] := by
  unfold stripRight
  rw [List.reverse_eq_nil_iff, List.dropWhile_eq_nil_iff]
  intro c hc
  exact hw c (List.mem_reverse.mp hc)

theorem stripRight_solid_append (hcs : Solid cs) (rest : List Char) :
    stripRight (cs ++ rest) = cs ++ stripRight rest := by
  have hkept : cs.reverse.dropWhile isBlank = cs.reverse :=
    dropWhile_solid fun c hc => hcs c (List.mem_reverse.mp hc)
  unfold stripRight
  rw [List.reverse_append, List.dropWhile_append, hkept]
  split
  · rename_i hempty
    rw [List.isEmpty_iff.mp hempty]
    simp
  · rw [List.reverse_append, List.reverse_reverse]

/-- White space before a solid text is dropped, and the text is kept. -/
theorem strip_framed (hw : Blanks w) (hne : cs ≠ []) (hcs : Solid cs) (rest : List Char) :
    strip (String.ofList (w ++ (cs ++ rest))) = String.ofList (cs ++ stripRight rest) := by
  have hleft : stripLeft (cs ++ rest) = cs ++ rest := by
    obtain ⟨c, tail, rfl⟩ := List.exists_cons_of_ne_nil hne
    have hc : isBlank c = false := hcs c List.mem_cons_self
    unfold stripLeft
    rw [List.cons_append, List.dropWhile_cons_of_neg (by simp [hc])]
  unfold strip
  rw [String.toList_ofList, stripLeft_blanks_append hw, hleft, stripRight_solid_append hcs]

end GoalReconciliation.Text

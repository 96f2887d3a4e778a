import Mathlib.Data.List.Forall2
import Mathlib.Data.List.Perm.Basic

/-!
# Related lists

Lists whose items are related one by one.

* `forall₂_sublist`, `forall₂_subperm`, `exists_of_mem` : what is chosen on one side has a counterpart on the other;
* `map_eq` : items that agree in some respect, listed in that respect;
* `map_subperm` : what is chosen in some respect;
* `forall₂_mergeSort` : related lists in orders that agree.
-/

namespace GoalReconciliation.Related

set_option autoImplicit false

variable {α β γ : Type} {R : α → β → Prop} {xs : List α} {ys : List β}

/-- What is chosen on one side of two related lists has a counterpart on the other. -/
theorem forall₂_sublist (h : List.Forall₂ R xs ys) {picked : List β} (hpicked : picked.Sublist ys) :
    ∃ chosen : List α, chosen.Sublist xs ∧ List.Forall₂ R chosen picked := by
  induction h generalizing picked with
  | nil =>
      obtain rfl := List.sublist_nil.mp hpicked
      exact ⟨[], List.Sublist.slnil, List.Forall₂.nil⟩
  | cons hxy _ ih =>
      cases hpicked with
      | cons _ hpicked =>
          obtain ⟨chosen, hchosen, hrelated⟩ := ih hpicked
          exact ⟨chosen, hchosen.cons _, hrelated⟩
      | cons_cons _ hpicked =>
          obtain ⟨chosen, hchosen, hrelated⟩ := ih hpicked
          exact ⟨_, hchosen.cons_cons _, List.Forall₂.cons hxy hrelated⟩

theorem exists_of_mem (h : List.Forall₂ R xs ys) {y : β} (hy : y ∈ ys) : ∃ x ∈ xs, R x y := by
  obtain ⟨chosen, hchosen, hrelated⟩ := forall₂_sublist h (List.singleton_sublist.mpr hy)
  obtain ⟨x, rest, hxy, -, rfl⟩ := List.forall₂_cons_right_iff.mp hrelated
  exact ⟨x, hchosen.subset List.mem_cons_self, hxy⟩

theorem forall₂_subperm (h : List.Forall₂ R xs ys) {picked : List β} (hpicked : picked.Subperm ys) :
    ∃ chosen : List α, chosen.Subperm xs ∧ List.Forall₂ R chosen picked := by
  obtain ⟨same, hperm, hsame⟩ := hpicked
  obtain ⟨chosen, hchosen, hrelated⟩ := forall₂_sublist h hsame
  obtain ⟨others, hothers, hchosen'⟩ := List.perm_comp_forall₂ hperm.symm hrelated.flip
  exact ⟨others, hchosen'.subperm.trans hchosen.subperm, hothers.flip⟩

theorem map_subperm (f : α → β) {xs ys : List α} (h : xs.Subperm ys) : (xs.map f).Subperm (ys.map f) := by
  obtain ⟨same, hperm, hsame⟩ := h
  exact ⟨same.map f, hperm.map f, hsame.map f⟩

theorem map_eq {f : α → γ} {g : β → γ} (h : List.Forall₂ (fun x y => g y = f x) xs ys) : ys.map g = xs.map f := by
  induction h with
  | nil => rfl
  | cons hxy _ ih => rw [List.map_cons, List.map_cons, hxy, ih]

theorem exists_pairs (h : List.Forall₂ R xs ys) :
    ∃ pairs : List (α × β), pairs.map Prod.fst = xs ∧ pairs.map Prod.snd = ys ∧ ∀ p ∈ pairs, R p.1 p.2 := by
  obtain ⟨hlength, hpairs⟩ := List.forall₂_iff_zip.mp h
  exact ⟨xs.zip ys, List.map_fst_zip (Nat.le_of_eq hlength), List.map_snd_zip (Nat.le_of_eq hlength.symm),
    fun p hp => hpairs hp⟩

theorem forall₂_mergeSort {le : α → α → Bool} {le' : β → β → Bool} (h : List.Forall₂ R xs ys)
    (hle : ∀ {x y x' y'}, R x y → R x' y' → le x x' = le' y y') :
    List.Forall₂ R (xs.mergeSort le) (ys.mergeSort le') := by
  obtain ⟨pairs, rfl, rfl, hpairs⟩ := exists_pairs h
  have hfst : (pairs.mergeSort fun p q => le p.1 q.1).map Prod.fst = (pairs.map Prod.fst).mergeSort le :=
    List.map_mergeSort fun _ _ _ _ => rfl
  have hsnd : (pairs.mergeSort fun p q => le p.1 q.1).map Prod.snd = (pairs.map Prod.snd).mergeSort le' :=
    List.map_mergeSort fun p hp q hq => hle (hpairs p hp) (hpairs q hq)
  rw [← hfst, ← hsnd, List.forall₂_map_left_iff, List.forall₂_map_right_iff, List.forall₂_same]
  exact fun p hp => hpairs p (List.mem_mergeSort.mp hp)

end GoalReconciliation.Related

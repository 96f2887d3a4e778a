import GoalReconciliation.Assoc
import Mathlib.Data.List.Nodup
import Mathlib.Data.List.Perm.Basic

/-!
# Items looked up by name

Lists whose items have distinct names, such as the records and the groups of a run.

* `find?_eq_some_iff`, `last?_eq_some_iff` : looking up a name gives the one item of that name;
* `found_names`, `looked_names` : items are found again by their names, and what is found has these names;
* `map_eq_of_names` : two lists of the same names that agree name by name;
* `picked_names` : items looked up by names have these names;
* `split_perm` : some of the names, and those of the other items, are all of the names.
-/

namespace GoalReconciliation.Lookup

set_option autoImplicit false

open Assoc (last?)

variable {α : Type} {name : α → String} {items : List α}

theorem eq_of_name (hitems : (items.map name).Nodup) {a b : α} (ha : a ∈ items) (hb : b ∈ items)
    (h : name a = name b) : a = b :=
  List.inj_on_of_nodup_map hitems ha hb h

theorem eq_of_names (hitems : (items.map name).Nodup) {xs ys : List α} (hxs : xs ⊆ items) (hys : ys ⊆ items)
    (h : xs.map name = ys.map name) : xs = ys := by
  induction xs generalizing ys with
  | nil => exact (List.map_eq_nil_iff.mp h.symm).symm
  | cons x xs ih =>
      obtain ⟨y, ys, rfl⟩ := List.exists_cons_of_ne_nil (l := ys) (by rintro rfl; cases h)
      obtain ⟨hx, hxs⟩ := List.cons_subset.mp hxs
      obtain ⟨hy, hys⟩ := List.cons_subset.mp hys
      obtain ⟨hname, hnames⟩ := List.cons.inj h
      rw [eq_of_name hitems hx hy hname, ih hxs hys hnames]

theorem find?_eq_some_iff (hitems : (items.map name).Nodup) {n : String} {a : α} :
    items.find? (fun x => decide (name x = n)) = some a ↔ a ∈ items ∧ name a = n := by
  constructor
  · intro h
    exact ⟨List.mem_of_find?_eq_some h, by simpa using List.find?_some h⟩
  · rintro ⟨ha, rfl⟩
    cases hfind : items.find? (fun x => decide (name x = name a)) with
    | none => simpa using List.find?_eq_none.mp hfind a ha
    | some b =>
        have hb : name b = name a := by simpa using List.find?_some hfind
        rw [eq_of_name hitems (List.mem_of_find?_eq_some hfind) ha hb]

/-- Items are found again by their names. -/
theorem found_names (hitems : (items.map name).Nodup) {xs : List α} (hxs : xs ⊆ items) :
    (xs.map name).filterMap (fun n => items.find? fun x => decide (name x = n)) = xs := by
  induction xs with
  | nil => rfl
  | cons x xs ih =>
      obtain ⟨hx, hxs⟩ := List.cons_subset.mp hxs
      have hfind : items.find? (fun y => decide (name y = name x)) = some x :=
        (find?_eq_some_iff hitems).mpr ⟨hx, rfl⟩
      rw [List.map_cons, List.filterMap_cons, hfind, ih hxs]

theorem looked_names (items : List α) (names : List String) :
    ((names.filterMap fun n => items.find? fun x => decide (name x = n)).map name).Sublist names := by
  induction names with
  | nil => exact List.Sublist.slnil
  | cons n rest ih =>
      cases hfind : items.find? (fun x => decide (name x = n)) with
      | none =>
          rw [List.filterMap_cons, hfind]
          exact ih.cons _
      | some a =>
          have hname : name a = n := by simpa using List.find?_some hfind
          rw [List.filterMap_cons, hfind]
          exact hname ▸ ih.cons_cons (name a)

/-- Two lists of the same distinct names agree in what their items of each name agree in. -/
theorem map_eq_of_names {β : Type} {f : α → β} {others : List α} (hitems : (items.map name).Nodup)
    (hnames : others.map name = items.map name)
    (h : ∀ a ∈ items, ∃ b, others.find? (fun x => decide (name x = name a)) = some b ∧ f b = f a) :
    others.map f = items.map f := by
  refine List.ext_getElem (by simpa using congrArg List.length hnames) fun i hi hi' => ?_
  rw [List.length_map] at hi hi'
  have hname := List.getElem_of_eq hnames (i := i) (by rwa [List.length_map])
  rw [List.getElem_map, List.getElem_map] at hname
  obtain ⟨b, hfind, hb⟩ := h items[i] (List.getElem_mem hi')
  obtain ⟨hmem, hname'⟩ := (find?_eq_some_iff (hnames ▸ hitems)).mp hfind
  have hsame := eq_of_name (hnames ▸ hitems) (List.getElem_mem hi) hmem (hname.trans hname'.symm)
  rw [List.getElem_map, List.getElem_map, hsame, hb]

theorem last?_eq_some_iff (hitems : (items.map name).Nodup) {n : String} {a : α} :
    last? name items n = some a ↔ a ∈ items ∧ name a = n := by
  have hreverse : (items.reverse.map name).Nodup := by
    rw [List.map_reverse]
    exact List.nodup_reverse.mpr hitems
  rw [last?, find?_eq_some_iff hreverse, List.mem_reverse]

theorem picked_subset (name : α → String) (items : List α) (names : List String) :
    names.filterMap (last? name items) ⊆ items := by
  intro a ha
  obtain ⟨n, -, hfind⟩ := List.mem_filterMap.mp ha
  exact List.mem_reverse.mp (List.mem_of_find?_eq_some hfind)

theorem picked_names (hitems : (items.map name).Nodup) {names : List String} (hnames : names ⊆ items.map name) :
    (names.filterMap (last? name items)).map name = names := by
  induction names with
  | nil => rfl
  | cons n names ih =>
      obtain ⟨hn, hrest⟩ := List.cons_subset.mp hnames
      obtain ⟨a, ha, rfl⟩ := List.mem_map.mp hn
      rw [List.filterMap_cons_some ((last?_eq_some_iff hitems).mpr ⟨ha, rfl⟩), List.map_cons, ih hrest]

/-- Some of the names, and those of the other items, are all of the names. -/
theorem split_perm (hitems : (items.map name).Nodup) {taken : List String} (htaken : taken.Nodup)
    (hof : ∀ n ∈ taken, n ∈ items.map name) {free : α → Bool}
    (hfree : ∀ a ∈ items, free a = true ↔ name a ∉ taken) :
    (taken ++ (items.filter free).map name).Perm (items.map name) := by
  refine (List.perm_ext_iff_of_nodup ?_ hitems).mpr fun n => ?_
  · refine htaken.append (hitems.sublist (List.filter_sublist.map name)) ?_
    intro n hn hn'
    obtain ⟨a, ha, rfl⟩ := List.mem_map.mp hn'
    obtain ⟨ha, hf⟩ := List.mem_filter.mp ha
    exact (hfree a ha).mp hf hn
  · rw [List.mem_append]
    constructor
    · rintro (hn | hn)
      · exact hof n hn
      · exact (List.filter_sublist.map name).subset hn
    · intro hn
      by_cases h : n ∈ taken
      · exact Or.inl h
      · obtain ⟨a, ha, rfl⟩ := List.mem_map.mp hn
        exact Or.inr (List.mem_map_of_mem (List.mem_filter.mpr ⟨ha, (hfree a ha).mpr h⟩))

end GoalReconciliation.Lookup

import Mathlib.Data.List.Forall2
import Mathlib.Logic.Relation

/-!
# Computations that can fail

What a successful run of a computation in `Except` tells about its parts:

* `bind_eq_ok`, `mapM_eq_ok`, `error_of_toBool` : the parts that succeeded, and the failure of one that did not;
* `exists_bind_ok`, `exists_mapM_ok` : a result, where the parts have one; `mapM_error` : a failure, where one has it;
* `map_map_congr`, `bind_map_congr`, `mapM_congr`, `mapM_map_eq` : computations whose results agree in some respect;
  `filterMapM_eq` : one of whose results some are kept;
* `Yields` : every result has a property, whatever the parts gave;
* `Alike` : two computations that fail alike, or give related results;
* `findM?_eq_some`, `findM?_eq_none` : what a search found, and what it has passed over; `filterM_cases` : what a filter
  has kept, or why it has failed; `findM?_map`, `filterM_map` : a search among changed items;
* `foldlM_turn` : the turn of one item of a fold, between the steps before it and those after it;
* `foldlM_steps` : a fold as a sequence of steps, each one made for an item.
-/

namespace GoalReconciliation.Fallible

set_option autoImplicit false

variable {ε α β : Type}

theorem bind_eq_ok {x : Except ε α} {f : α → Except ε β} {b : β} :
    x >>= f = .ok b ↔ ∃ a, x = .ok a ∧ f a = .ok b := by
  cases x <;> simp [bind, Except.bind]

theorem bind_eq_error {x : Except ε α} {f : α → Except ε β} {failure : ε} :
    x >>= f = .error failure ↔ x = .error failure ∨ ∃ a, x = .ok a ∧ f a = .error failure := by
  cases x <;> simp [bind, Except.bind]

theorem exists_bind_ok {x : Except ε α} {f : α → Except ε β} {a : α} (hx : x = .ok a) (hf : ∃ b, f a = .ok b) :
    ∃ b, x >>= f = .ok b := by
  subst hx
  exact hf

theorem map_eq_ok {x : Except ε α} {f : α → β} {b : β} :
    x.map f = .ok b ↔ ∃ a, x = .ok a ∧ f a = b := by
  cases x <;> simp [Except.map]

theorem error_of_toBool {x : Except ε α} (h : x.toBool = false) : ∃ failure, x = .error failure := by
  cases x with
  | error failure => exact ⟨failure, rfl⟩
  | ok a => cases h

/-- Two computations whose results agree in some respect, continued alike in it. -/
theorem map_map_congr {γ δ : Type} {x y : Except ε α} {f : α → γ} (h : x.map f = y.map f) {g g' : α → β} {k : β → δ}
    (hnext : ∀ a b, f a = f b → k (g a) = k (g' b)) : (x.map g).map k = (y.map g').map k := by
  cases x with
  | error failure =>
      cases y with
      | error failure' =>
          obtain rfl := Except.error.inj h
          rfl
      | ok b => cases h
  | ok a =>
      cases y with
      | error failure' => cases h
      | ok b => exact congrArg Except.ok (hnext a b (Except.ok.inj h))

theorem bind_map_congr {γ δ : Type} {x y : Except ε α} {f : α → γ} (h : x.map f = y.map f) {g g' : α → Except ε β}
    {k : β → δ} (hnext : ∀ a b, f a = f b → (g a).map k = (g' b).map k) : (x >>= g).map k = (y >>= g').map k := by
  cases x with
  | error failure =>
      cases y with
      | error failure' =>
          obtain rfl := Except.error.inj h
          rfl
      | ok b => cases h
  | ok a =>
      cases y with
      | error failure' => cases h
      | ok b => exact hnext a b (Except.ok.inj h)

@[simp] theorem pure_eq_ok {a b : α} : (pure a : Except ε α) = .ok b ↔ a = b := by
  simp [pure, Except.pure]

theorem mapM_eq_ok {f : α → Except ε β} {xs : List α} {ys : List β} :
    xs.mapM f = .ok ys ↔ List.Forall₂ (fun x y => f x = .ok y) xs ys := by
  induction xs generalizing ys with
  | nil => simp [pure, Except.pure, eq_comm]
  | cons x xs ih =>
      rw [List.mapM_cons, bind_eq_ok, List.forall₂_cons_left_iff]
      constructor
      · rintro ⟨y, hy, h⟩
        obtain ⟨zs, hzs, h⟩ := bind_eq_ok.mp h
        exact ⟨y, zs, hy, ih.mp hzs, (pure_eq_ok.mp h).symm⟩
      · rintro ⟨y, zs, hy, hzs, rfl⟩
        exact ⟨y, hy, bind_eq_ok.mpr ⟨zs, ih.mpr hzs, rfl⟩⟩

theorem mapM_mem {f : α → Except ε β} {xs : List α} {ys : List β} (h : xs.mapM f = .ok ys) {y : β} (hy : y ∈ ys) :
    ∃ x ∈ xs, f x = .ok y := by
  obtain ⟨i, hi, rfl⟩ := List.getElem_of_mem hy
  obtain ⟨hlength, heach⟩ := List.forall₂_iff_get.mp (mapM_eq_ok.mp h)
  exact ⟨xs[i], List.getElem_mem _, heach i (hlength ▸ hi) hi⟩

theorem mapM_item {f : α → Except ε β} {xs : List α} {ys : List β} (h : xs.mapM f = .ok ys) {x : α} (hx : x ∈ xs) :
    ∃ y ∈ ys, f x = .ok y := by
  obtain ⟨i, hi, rfl⟩ := List.getElem_of_mem hx
  obtain ⟨hlength, heach⟩ := List.forall₂_iff_get.mp (mapM_eq_ok.mp h)
  exact ⟨ys[i], List.getElem_mem _, heach i hi (hlength ▸ hi)⟩

theorem exists_mapM_ok {f : α → Except ε β} {xs : List α} (h : ∀ x ∈ xs, ∃ y, f x = .ok y) :
    ∃ ys, xs.mapM f = .ok ys := by
  induction xs with
  | nil => exact ⟨[], rfl⟩
  | cons x xs ih =>
      obtain ⟨⟨y, hy⟩, hxs⟩ := List.forall_mem_cons.mp h
      obtain ⟨ys, hys⟩ := ih hxs
      exact ⟨y :: ys, mapM_eq_ok.mpr (.cons hy (mapM_eq_ok.mp hys))⟩

/-- A computation on items fails as one of them does. -/
theorem mapM_error {f : α → Except ε β} {xs : List α} {failure : ε} (h : xs.mapM f = .error failure) :
    ∃ x ∈ xs, f x = .error failure := by
  induction xs with
  | nil => cases h
  | cons x xs ih =>
      rw [List.mapM_cons] at h
      rcases bind_eq_error.mp h with hx | ⟨y, -, h⟩
      · exact ⟨x, List.mem_cons_self, hx⟩
      · rcases bind_eq_error.mp h with hxs | ⟨ys, -, h⟩
        · obtain ⟨other, hother, hfails⟩ := ih hxs
          exact ⟨other, List.mem_cons_of_mem x hother, hfails⟩
        · cases h

theorem forM_ok {f : α → Except ε Unit} {xs : List α} (h : ∀ x ∈ xs, f x = .ok ()) : xs.forM f = .ok () := by
  induction xs with
  | nil => rfl
  | cons x xs ih =>
      obtain ⟨hx, hxs⟩ := List.forall_mem_cons.mp h
      change (f x >>= fun _ => xs.forM f) = .ok ()
      rw [hx]
      exact ih hxs

theorem mapM_map_eq {f : α → Except ε β} {g : α → α} {k : β → β} (h : ∀ x, f (g x) = (f x).map k) (xs : List α) :
    (xs.map g).mapM f = (xs.mapM f).map (List.map k) := by
  induction xs with
  | nil => rfl
  | cons x xs ih =>
      rw [List.map_cons, List.mapM_cons, List.mapM_cons, h, ih]
      cases f x with
      | error failure => rfl
      | ok y =>
          cases xs.mapM f with
          | error failure => rfl
          | ok ys => rfl

theorem mapM_congr {f g : α → Except ε β} {xs : List α} (h : ∀ x ∈ xs, f x = g x) : xs.mapM f = xs.mapM g := by
  induction xs with
  | nil => rfl
  | cons x xs ih =>
      obtain ⟨hx, hxs⟩ := List.forall_mem_cons.mp h
      rw [List.mapM_cons, List.mapM_cons, hx, ih hxs]

theorem filterMapM_eq (f : α → Except ε (Option β)) (xs : List α) :
    xs.filterMapM f = (xs.mapM f).map (List.filterMap id) := by
  induction xs with
  | nil => rfl
  | cons x xs ih =>
      rw [List.filterMapM_cons, List.mapM_cons, ih]
      cases f x with
      | error failure => rfl
      | ok kept =>
          cases xs.mapM f with
          | error failure => cases kept <;> rfl
          | ok ys => cases kept <;> rfl

/-! ## Results -/

def Yields (P : β → Prop) (x : Except ε β) : Prop :=
  ∀ b, x = .ok b → P b

section Yields

variable {P : β → Prop}

theorem Yields.pure {b : β} (h : P b) : Yields P (Pure.pure b : Except ε β) := by
  intro b' hb
  exact pure_eq_ok.mp hb ▸ h

theorem Yields.bind {x : Except ε α} {f : α → Except ε β} (h : ∀ a, Yields P (f a)) : Yields P (x >>= f) := by
  intro b hb
  obtain ⟨a, -, ha⟩ := bind_eq_ok.mp hb
  exact h a b ha

theorem Yields.ite {c : Prop} [Decidable c] {x y : Except ε β} (hx : Yields P x) (hy : Yields P y) :
    Yields P (if c then x else y) := by
  split
  · exact hx
  · exact hy

end Yields

/-! ## Two computations -/

/-- Two computations that fail alike, or give related results. -/
inductive Alike (R : α → β → Prop) : Except ε α → Except ε β → Prop
  | ok {a : α} {b : β} (h : R a b) : Alike R (.ok a) (.ok b)
  | error (failure : ε) : Alike R (.error failure) (.error failure)

namespace Alike

variable {γ : Type} {R : α → β → Prop} {x : Except ε α} {y : Except ε β}

theorem refl {R : α → α → Prop} (h : ∀ a, R a a) (x : Except ε α) : Alike R x x := by
  cases x with
  | ok a => exact .ok (h a)
  | error failure => exact .error failure

theorem refl_of_eq {x y : Except ε α} (h : x = y) : Alike Eq x y :=
  h ▸ refl (fun _ => rfl) x

theorem eq {x y : Except ε α} (h : Alike Eq x y) : x = y := by
  cases h with
  | ok h => exact congrArg Except.ok h
  | error failure => rfl

theorem of_map {f : α → β} (h : y = x.map f) : Alike (fun a b => x = .ok a ∧ b = f a) x y := by
  subst h
  cases x with
  | ok a => exact .ok ⟨rfl, rfl⟩
  | error failure => exact .error failure

theorem of_eq {x y : Except ε α} (h : y = x) : Alike (fun a b => x = .ok a ∧ b = a) x y :=
  of_map (f := id) (by rw [h]; cases x <;> rfl)

theorem mono {S : α → β → Prop} (h : Alike R x y) (hRS : ∀ a b, R a b → S a b) : Alike S x y := by
  cases h with
  | ok h => exact .ok (hRS _ _ h)
  | error failure => exact .error failure

theorem swap (h : Alike R x y) : Alike (fun b a => R a b) y x := by
  cases h with
  | ok h => exact .ok h
  | error failure => exact .error failure

theorem exists_ok {a : α} (h : Alike R (.ok a : Except ε α) y) : ∃ b, y = .ok b ∧ R a b := by
  cases h with
  | ok h => exact ⟨_, rfl, h⟩

theorem attest (h : Alike R x y) : Alike (fun a b => R a b ∧ x = .ok a ∧ y = .ok b) x y := by
  cases h with
  | ok h => exact .ok ⟨h, rfl, rfl⟩
  | error failure => exact .error failure

theorem and_then {S : α → γ → Prop} (h : Alike R x y) {f : β → γ} (hRS : ∀ a b, R a b → S a (f b)) :
    Alike S x (do return f (← y)) := by
  cases h with
  | ok h => exact .ok (hRS _ _ h)
  | error failure => exact .error failure

theorem bind_eq (h : Alike R x y) {f : α → Except ε γ} {g : β → Except ε γ} (hfg : ∀ a b, R a b → f a = g b) :
    x >>= f = y >>= g := by
  cases h with
  | ok h => exact hfg _ _ h
  | error failure => rfl

end Alike

/-! ## Searches -/

theorem findM?_eq_some {p : α → Except ε Bool} {xs : List α} {a : α} (h : xs.findM? p = .ok (some a)) :
    a ∈ xs ∧ p a = .ok true := by
  induction xs with
  | nil => simp [List.findM?] at h
  | cons x xs ih =>
      obtain ⟨found, hx, h⟩ := bind_eq_ok.mp h
      cases found with
      | true =>
          obtain rfl : x = a := by simpa using h
          exact ⟨List.mem_cons_self, hx⟩
      | false =>
          obtain ⟨hmem, ha⟩ := ih h
          exact ⟨List.mem_cons_of_mem _ hmem, ha⟩

theorem findM?_eq_none {p : α → Except ε Bool} {xs : List α} (h : xs.findM? p = .ok none) :
    ∀ a ∈ xs, p a = .ok false := by
  induction xs with
  | nil => simp
  | cons x xs ih =>
      obtain ⟨found, hx, h⟩ := bind_eq_ok.mp h
      cases found with
      | true => simp at h
      | false => exact List.forall_mem_cons.mpr ⟨hx, ih h⟩

theorem findM?_map (f : α → β) (p : β → Except ε Bool) (xs : List α) :
    (xs.map f).findM? p = (xs.findM? fun x => p (f x)).map (Option.map f) := by
  induction xs with
  | nil => rfl
  | cons x xs ih =>
      rw [List.map_cons, List.findM?, List.findM?]
      cases p (f x) with
      | error failure => rfl
      | ok found =>
          cases found with
          | true => rfl
          | false => exact ih

theorem filterM_map {f : α → β} {p : β → Except ε Bool} {q : α → Except ε Bool} (h : ∀ x, p (f x) = q x)
    (xs : List α) : (xs.map f).filterM p = (xs.filterM q).map (List.map f) := by
  have haux : ∀ kept : List α, (xs.map f).filterAuxM p (kept.map f) = (xs.filterAuxM q kept).map (List.map f) := by
    induction xs with
    | nil => exact fun kept => rfl
    | cons x xs ih =>
        intro kept
        rw [List.map_cons, List.filterAuxM, List.filterAuxM, h]
        cases q x with
        | error failure => rfl
        | ok found =>
            cases found with
            | true => exact ih (x :: kept)
            | false => exact ih kept
  unfold List.filterM
  rw [show ([] : List β) = ([] : List α).map f from rfl, haux]
  cases xs.filterAuxM q [] with
  | error failure => rfl
  | ok kept => exact congrArg Except.ok (List.map_reverse ..).symm

/-- A filter answers for all items and keeps those that pass, or it fails as one of them does. -/
theorem filterM_cases (p : α → Except ε Bool) (xs : List α) :
    (∃ kept, xs.filterM p = .ok kept ∧ (∀ x ∈ xs, ∃ answer, p x = .ok answer) ∧
        ∀ x, x ∈ kept ↔ x ∈ xs ∧ p x = .ok true) ∨
      ∃ x ∈ xs, ∃ failure, p x = .error failure ∧ xs.filterM p = .error failure := by
  have haux : ∀ kept : List α,
      (∃ all, xs.filterAuxM p kept = .ok all ∧ (∀ x ∈ xs, ∃ answer, p x = .ok answer) ∧
          ∀ x, x ∈ all ↔ x ∈ kept ∨ x ∈ xs ∧ p x = .ok true) ∨
        ∃ x ∈ xs, ∃ failure, p x = .error failure ∧ xs.filterAuxM p kept = .error failure := by
    induction xs with
    | nil => exact fun kept => .inl ⟨kept, rfl, by simp, by simp⟩
    | cons x xs ih =>
        intro kept
        rw [List.filterAuxM]
        cases hx : p x with
        | error failure => exact .inr ⟨x, List.mem_cons_self, failure, hx, rfl⟩
        | ok passes =>
            rcases ih (cond passes (x :: kept) kept) with ⟨all, hall, hanswers, hmem⟩ | ⟨y, hy, failure, hfailure, hall⟩
            · refine .inl ⟨all, hall, List.forall_mem_cons.mpr ⟨⟨passes, hx⟩, hanswers⟩, fun y => ?_⟩
              cases passes <;> grind
            · exact .inr ⟨y, List.mem_cons_of_mem x hy, failure, hfailure, hall⟩
  unfold List.filterM
  rcases haux [] with ⟨all, hall, hanswers, hmem⟩ | ⟨x, hx, failure, hfailure, hall⟩
  · exact .inl ⟨all.reverse, by rw [hall]; rfl, hanswers, fun x => by simp [hmem]⟩
  · exact .inr ⟨x, hx, failure, hfailure, by rw [hall]; rfl⟩

/-! ## Folds -/

section Folds

open Relation (ReflTransGen)

variable {f : β → α → Except ε β}

def Turn (f : β → α → Except ε β) (xs : List α) (b b' : β) : Prop :=
  ∃ a ∈ xs, f b a = .ok b'

theorem turns_mono {xs ys : List α} (hsub : xs ⊆ ys) {b b' : β} (h : ReflTransGen (Turn f xs) b b') :
    ReflTransGen (Turn f ys) b b' := by
  refine h.lift id fun _ _ => ?_
  rintro ⟨a, ha, h⟩
  exact ⟨a, hsub ha, h⟩

theorem foldlM_steps {xs : List α} {b b' : β} (h : xs.foldlM f b = .ok b') : ReflTransGen (Turn f xs) b b' := by
  induction xs generalizing b with
  | nil =>
      obtain rfl : b = b' := by simpa using h
      exact .refl
  | cons x xs ih =>
      rw [List.foldlM_cons, bind_eq_ok] at h
      obtain ⟨c, hc, h⟩ := h
      exact (turns_mono (List.subset_cons_self x xs) (ih h)).head ⟨x, List.mem_cons_self, hc⟩

/-- The turn of an item, with the steps before it and those after it. -/
theorem foldlM_turn {xs : List α} {b b' : β} (h : xs.foldlM f b = .ok b') {a : α} (ha : a ∈ xs) :
    ∃ c c', ReflTransGen (Turn f xs) b c ∧ f c a = .ok c' ∧ ReflTransGen (Turn f xs) c' b' := by
  obtain ⟨before, after, rfl⟩ := List.append_of_mem ha
  rw [List.foldlM_append, bind_eq_ok] at h
  obtain ⟨c, hbefore, h⟩ := h
  rw [List.foldlM_cons, bind_eq_ok] at h
  obtain ⟨c', hturn, hafter⟩ := h
  refine ⟨c, c', turns_mono ?_ (foldlM_steps hbefore), hturn, turns_mono ?_ (foldlM_steps hafter)⟩
  · exact List.subset_append_left _ _
  · exact fun _ hx => List.mem_append_right _ (List.mem_cons_of_mem a hx)

end Folds

end GoalReconciliation.Fallible

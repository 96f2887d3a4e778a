import GoalReconciliation.Assoc
import GoalReconciliation.Natural
import Mathlib.Data.List.Induction
import Mathlib.Data.List.Nodup
import Mathlib.Data.List.Perm.Basic

/-!
# Gathered items

* `nodup_distinct`, `mem_distinct`, `distinct_inOrder` : the distinct items are those of the list, each once, in the order
  of their first occurrences;
* `get?_put`, `mem_put`, `nodup_put` : reading after writing, what is written, and keys stay distinct;
* `get?_map`, `put_map` : reading and writing where all values have changed;
* `isSome_get?`, `get?_filter_ne` : which keys are there, and reading where other keys are left out;
* `get?_tally`, `total_tally` : a tally counts each key, and counts all of them;
* `get?_tagged`, `put_tagged_of_mem` : reading and writing in pairs made of distinct keys; `filter_key`, `get?_of_mem` :
  the pair of a key, `get?_chosen` : reading where keys need not have a value;
* `gather_eq` : gathering gives each key, in first-seen order, the items of that key in list order;
* `gather_map` : gathering looks at the keys of the items;
* `gather_perm` : gathering keeps each item once.
-/

namespace GoalReconciliation.Assoc

set_option autoImplicit false

variable {κ ν : Type} [DecidableEq κ]

/-! ## Distinct items -/

theorem distinct_concat (ks : List κ) (k : κ) :
    distinct (ks ++ [k]) = if k ∈ distinct ks then distinct ks else distinct ks ++ [k] := by
  unfold distinct
  rw [List.foldl_append]
  rfl

@[simp] theorem mem_distinct {ks : List κ} {k : κ} : k ∈ distinct ks ↔ k ∈ ks := by
  induction ks using List.reverseRecOn with
  | nil => simp [distinct]
  | append_singleton ks a ih =>
      rw [distinct_concat, List.mem_append, List.mem_singleton, ← ih]
      split
      · rename_i ha
        constructor
        · exact Or.inl
        · rintro (h | rfl)
          · exact h
          · exact ha
      · rw [List.mem_append, List.mem_singleton]

theorem nodup_distinct (ks : List κ) : (distinct ks).Nodup := by
  induction ks using List.reverseRecOn with
  | nil => exact List.nodup_nil
  | append_singleton ks a ih =>
      rw [distinct_concat]
      split
      · exact ih
      · rename_i ha
        rw [← List.concat_eq_append]
        exact ih.concat ha

theorem distinct_of_nodup {ks : List κ} (h : ks.Nodup) : distinct ks = ks := by
  induction ks using List.reverseRecOn with
  | nil => rfl
  | append_singleton ks k ih =>
      obtain ⟨hks, -, hdisjoint⟩ := List.nodup_append.mp h
      have hk : k ∉ ks := fun hmem => hdisjoint k hmem k (List.mem_singleton_self k) rfl
      rw [distinct_concat, ih hks, if_neg hk]

/-- The distinct items stand in the order of their first occurrences. -/
theorem distinct_inOrder (ks : List κ) : (distinct ks).Pairwise fun a b => ks.idxOf a < ks.idxOf b := by
  induction ks using List.reverseRecOn with
  | nil => exact .nil
  | append_singleton ks k ih =>
      have hsame : ∀ {a}, a ∈ distinct ks → (ks ++ [k]).idxOf a = ks.idxOf a := fun {a} ha => by
        rw [List.idxOf_append, if_pos (mem_distinct.mp ha)]
      have hbefore : (distinct ks).Pairwise fun a b => (ks ++ [k]).idxOf a < (ks ++ [k]).idxOf b :=
        ih.imp_of_mem fun ha hb hlt => by rwa [hsame ha, hsame hb]
      rw [distinct_concat]
      split
      · exact hbefore
      · rename_i hk
        refine List.pairwise_append.mpr ⟨hbefore, List.pairwise_singleton _ _, ?_⟩
        intro a ha b hb
        have hfirst := List.idxOf_lt_length_of_mem (mem_distinct.mp ha)
        rw [List.mem_singleton.mp hb, hsame ha, List.idxOf_append, if_neg fun h => hk (mem_distinct.mpr h)]
        omega

/-! ## Reading after writing -/

theorem get?_put (key k : κ) (v : ν) (pairs : List (κ × ν)) :
    get? k (put key v pairs) = if key = k then some v else get? k pairs := by
  induction pairs with
  | nil => by_cases h : key = k <;> simp [get?, put, h]
  | cons pair rest ih =>
      unfold get? at ih ⊢
      unfold put
      by_cases hpair : pair.1 = key
      · by_cases h : key = k
        · simp [hpair, h]
        · simp [hpair, h]
      · rw [if_neg hpair, List.find?_cons, List.find?_cons]
        by_cases h : pair.1 = k
        · have hne : key ≠ k := fun e => hpair (h.trans e.symm)
          simp [h, hne]
        · simpa [h] using ih

theorem mem_put {key : κ} {value : ν} {pairs : List (κ × ν)} {pair : κ × ν} (h : pair ∈ put key value pairs) :
    pair = (key, value) ∨ pair ∈ pairs := by
  induction pairs with
  | nil => exact .inl (List.mem_singleton.mp h)
  | cons first rest ih =>
      unfold put at h
      split at h
      · exact (List.mem_cons.mp h).imp id (List.mem_cons_of_mem _)
      · rcases List.mem_cons.mp h with rfl | h
        · exact .inr List.mem_cons_self
        · exact (ih h).imp id (List.mem_cons_of_mem _)

theorem mem_of_get? {key : κ} {value : ν} {pairs : List (κ × ν)} (h : get? key pairs = some value) :
    ∃ pair ∈ pairs, pair.2 = value := by
  obtain ⟨pair, hfind, rfl⟩ := Option.map_eq_some_iff.mp h
  exact ⟨pair, List.mem_of_find?_eq_some hfind, rfl⟩

theorem isSome_get? {key : κ} {pairs : List (κ × ν)} : (get? key pairs).isSome = true ↔ key ∈ pairs.map Prod.fst := by
  simp [get?, List.find?_isSome]

theorem get?_map {μ : Type} (f : ν → μ) (key : κ) (pairs : List (κ × ν)) :
    get? key (pairs.map fun pair => (pair.1, f pair.2)) = (get? key pairs).map f := by
  rw [get?, List.find?_map, Option.map_map, get?, Option.map_map]
  rfl

theorem put_map {μ : Type} (f : ν → μ) (key : κ) (value : ν) (pairs : List (κ × ν)) :
    put key (f value) (pairs.map fun pair => (pair.1, f pair.2)) =
      (put key value pairs).map fun pair => (pair.1, f pair.2) := by
  induction pairs with
  | nil => rfl
  | cons pair rest ih =>
      rw [List.map_cons, put, put, ih]
      split <;> rfl

theorem get?_filter_ne (key k : κ) (pairs : List (κ × ν)) :
    get? k (pairs.filter fun pair => decide (pair.1 ≠ key)) = if key = k then none else get? k pairs := by
  unfold get?
  rw [List.find?_filter]
  by_cases h : key = k
  · subst h
    simp
  · rw [if_neg h]
    congr 2
    funext pair
    by_cases hpair : pair.1 = k
    · have hne : ¬k = key := fun e => h e.symm
      simp [hpair, hne]
    · simp [hpair]

theorem nodup_put {key : κ} {value : ν} {pairs : List (κ × ν)} (h : (pairs.map Prod.fst).Nodup) :
    ((put key value pairs).map Prod.fst).Nodup := by
  induction pairs with
  | nil => simp [put]
  | cons pair rest ih =>
      obtain ⟨hnew, hrest⟩ := List.nodup_cons.mp h
      unfold put
      split
      · rename_i hkey
        exact List.nodup_cons.mpr ⟨hkey ▸ hnew, hrest⟩
      · rename_i hkey
        refine List.nodup_cons.mpr ⟨fun hmem => ?_, ih hrest⟩
        obtain ⟨other, hother, hsame⟩ := List.mem_map.mp hmem
        rcases mem_put hother with rfl | hother
        · exact hkey hsame.symm
        · exact hnew (hsame ▸ List.mem_map_of_mem hother)

theorem tally_concat (keys : List κ) (k : κ) : tally (keys ++ [k]) = bump k (tally keys) := by
  rw [tally, List.foldl_append]
  rfl

/-- A tally counts the occurrences of each key. -/
theorem get?_tally (keys : List κ) (k : κ) : (get? k (tally keys)).getD 0 = keys.count k := by
  induction keys using List.reverseRecOn with
  | nil => rfl
  | append_singleton keys a ih =>
      rw [tally_concat, bump, get?_put, List.count_append]
      by_cases h : a = k
      · subst h
        rw [if_pos rfl, List.count_singleton_self, ← ih, Option.getD_some]
      · rw [if_neg h, ih, List.count_singleton, if_neg (by simpa using h), Nat.add_zero]

theorem total_put (key : κ) (n : Nat) (pairs : List (κ × Nat)) :
    Natural.total ((put key n pairs).map Prod.snd) + (get? key pairs).getD 0 =
      Natural.total (pairs.map Prod.snd) + n := by
  induction pairs with
  | nil => simp [put, get?, Natural.total]
  | cons pair rest ih =>
      unfold put
      by_cases h : pair.1 = key
      · simp only [h, if_true, List.map_cons, Natural.total, get?, List.find?_cons, decide_true, Option.map_some,
          Option.getD_some]
        omega
      · have hget : get? key (pair :: rest) = get? key rest := by
          unfold get?
          rw [List.find?_cons_of_neg (by simpa using h)]
        rw [if_neg h, hget, List.map_cons, List.map_cons, Natural.total, Natural.total]
        omega

/-- A tally counts every key. -/
theorem total_tally (keys : List κ) : Natural.total ((tally keys).map Prod.snd) = keys.length := by
  induction keys using List.reverseRecOn with
  | nil => rfl
  | append_singleton keys a ih =>
      have htotal := total_put a ((get? a (tally keys)).getD 0 + 1) (tally keys)
      rw [tally_concat, bump, List.length_append, List.length_singleton, ← ih]
      omega

/-! ## Pairs made of distinct keys -/

theorem get?_tagged (value : κ → ν) (ks : List κ) (k : κ) :
    get? k (ks.map fun k => (k, value k)) = if k ∈ ks then some (value k) else none := by
  induction ks with
  | nil => rfl
  | cons a ks ih =>
      unfold get? at ih ⊢
      by_cases h : a = k
      · subst h
        simp
      · have hne : k ≠ a := fun e => h e.symm
        simpa [h, hne] using ih

theorem put_tagged_of_notMem (value : κ → ν) {ks : List κ} {k : κ} (hk : k ∉ ks) (v : ν) :
    put k v (ks.map fun k => (k, value k)) = (ks.map fun k => (k, value k)) ++ [(k, v)] := by
  induction ks with
  | nil => rfl
  | cons a ks ih =>
      have hne : a ≠ k := fun e => hk (e ▸ List.mem_cons_self)
      rw [List.map_cons, put, if_neg hne, ih fun h => hk (List.mem_cons_of_mem _ h), List.cons_append]

theorem put_tagged_of_mem (value : κ → ν) {ks : List κ} (hks : ks.Nodup) {k : κ} (hk : k ∈ ks) (v : ν) :
    put k v (ks.map fun k => (k, value k)) = ks.map fun a => (a, if a = k then v else value a) := by
  induction ks with
  | nil => cases hk
  | cons a ks ih =>
      obtain ⟨ha, hks⟩ := List.nodup_cons.mp hks
      by_cases h : a = k
      · subst h
        rw [List.map_cons, put, if_pos rfl, List.map_cons, if_pos rfl]
        congr 1
        refine List.map_congr_left fun b hb => ?_
        rw [if_neg (by rintro rfl; exact ha hb)]
      · have hk' : k ∈ ks := (List.mem_cons.mp hk).resolve_left fun e => h e.symm
        rw [List.map_cons, put, if_neg h, ih hks hk', List.map_cons, if_neg h]

theorem filter_key {pairs : List (κ × ν)} (h : (pairs.map Prod.fst).Nodup) (k : κ) :
    pairs.filter (fun pair => decide (pair.1 = k)) = ((get? k pairs).map fun v => (k, v)).toList := by
  induction pairs with
  | nil => rfl
  | cons pair rest ih =>
      obtain ⟨hnew, hrest⟩ := List.nodup_cons.mp h
      unfold get? at ih ⊢
      by_cases hk : pair.1 = k
      · subst hk
        have hnone : rest.filter (fun other => decide (other.1 = pair.1)) = [] :=
          List.filter_eq_nil_iff.mpr fun other hother => by
            simpa using fun e : other.1 = pair.1 => hnew (e ▸ List.mem_map_of_mem hother)
        rw [List.filter_cons_of_pos (by simp), hnone, List.find?_cons_of_pos (by simp)]
        rfl
      · rw [List.filter_cons_of_neg (by simpa using hk), List.find?_cons_of_neg (by simpa using hk), ih hrest]

theorem get?_of_mem {pairs : List (κ × ν)} (h : (pairs.map Prod.fst).Nodup) {pair : κ × ν} (hpair : pair ∈ pairs) :
    get? pair.1 pairs = some pair.2 := by
  have hmem : pair ∈ pairs.filter fun other => decide (other.1 = pair.1) :=
    List.mem_filter.mpr ⟨hpair, decide_eq_true rfl⟩
  rw [filter_key h, Option.mem_toList, Option.map_eq_some_iff] at hmem
  obtain ⟨value, hvalue, hsame⟩ := hmem
  rw [hvalue, ← hsame]

/-- Reading in pairs made of distinct keys that need not have a value. -/
theorem get?_chosen (value : κ → Option ν) (ks : List κ) (k : κ) :
    get? k (ks.filterMap fun k => (value k).map fun v => (k, v)) = if k ∈ ks then value k else none := by
  induction ks with
  | nil => rfl
  | cons a ks ih =>
      unfold get? at ih ⊢
      cases hvalue : value a with
      | none =>
          rw [List.filterMap_cons_none (by rw [hvalue]; rfl), ih]
          by_cases h : k = a
          · subst h
            simp [hvalue]
          · simp [h]
      | some v =>
          rw [List.filterMap_cons_some (by rw [hvalue]; rfl)]
          by_cases h : a = k
          · subst h
            simp [hvalue]
          · have hne : k ≠ a := fun e => h e.symm
            rw [List.find?_cons_of_neg (by simpa using h), ih]
            simp [hne]

omit [DecidableEq κ] in
theorem chosen_keys (value : κ → Option ν) (ks : List κ) :
    ((ks.filterMap fun k => (value k).map fun v => (k, v)).map Prod.fst).Sublist ks := by
  induction ks with
  | nil => exact .slnil
  | cons a ks ih =>
      cases hvalue : value a with
      | none =>
          rw [List.filterMap_cons_none (by rw [hvalue]; rfl)]
          exact ih.cons a
      | some v =>
          rw [List.filterMap_cons_some (by rw [hvalue]; rfl)]
          exact ih.cons_cons a

/-! ## Gathering -/

theorem gather_concat (f : ν → κ) (items : List ν) (x : ν) :
    gather f (items ++ [x]) = put (f x) ((get? (f x) (gather f items)).getD [] ++ [x]) (gather f items) := by
  simp [gather, List.foldl_append]

/-- Each key, in first-seen order, with the items of that key in list order. -/
theorem gather_eq (f : ν → κ) (items : List ν) :
    gather f items = (distinct (items.map f)).map fun k => (k, items.filter fun x => decide (f x = k)) := by
  induction items using List.reverseRecOn with
  | nil => rfl
  | append_singleton items x ih =>
      rw [gather_concat, ih, get?_tagged, List.map_append, List.map_singleton, distinct_concat]
      by_cases hx : f x ∈ distinct (items.map f)
      · rw [if_pos hx, if_pos hx, Option.getD_some, put_tagged_of_mem _ (nodup_distinct _) hx]
        refine List.map_congr_left fun k _ => ?_
        by_cases hk : k = f x
        · subst hk
          simp
        · have hne : f x ≠ k := fun e => hk e.symm
          simp [hk, hne]
      · -- A new key: none of the items so far has it.
        have hnew : ∀ y ∈ items, f y ≠ f x := by
          intro y hy e
          exact hx (mem_distinct.mpr (List.mem_map.mpr ⟨y, hy, e⟩))
        rw [if_neg hx, if_neg hx, Option.getD_none, put_tagged_of_notMem _ hx, List.map_append]
        congr 1
        · refine List.map_congr_left fun k hk => ?_
          have hne : f x ≠ k := fun e => hx (e ▸ hk)
          simp [hne]
        · have hnone : items.filter (fun y => decide (f y = f x)) = [] :=
            List.filter_eq_nil_iff.mpr fun y hy => by simpa using hnew y hy
          simp [hnone]

theorem gather_keys (f : ν → κ) (items : List ν) : (gather f items).map Prod.fst = distinct (items.map f) := by
  rw [gather_eq, List.map_map]
  exact List.map_id _

theorem gather_keys_nodup (f : ν → κ) (items : List ν) : ((gather f items).map Prod.fst).Nodup := by
  rw [gather_keys]
  exact nodup_distinct _

theorem mem_gather {f : ν → κ} {items : List ν} {k : κ} {members : List ν} :
    (k, members) ∈ gather f items ↔ k ∈ items.map f ∧ members = items.filter fun x => decide (f x = k) := by
  rw [gather_eq, List.mem_map]
  constructor
  · rintro ⟨k', hk', e⟩
    obtain ⟨rfl, rfl⟩ := Prod.mk.inj e
    exact ⟨mem_distinct.mp hk', rfl⟩
  · rintro ⟨hk, rfl⟩
    exact ⟨k, mem_distinct.mpr hk, rfl⟩

/-- The items of some distinct keys, key by key. -/
theorem flatMap_filter_perm (f : ν → κ) (items : List ν) {ks : List κ} (hks : ks.Nodup) :
    (ks.flatMap fun k => items.filter fun x => decide (f x = k)).Perm (items.filter fun x => decide (f x ∈ ks)) := by
  induction ks with
  | nil => simp
  | cons k ks ih =>
      obtain ⟨hk, hks⟩ := List.nodup_cons.mp hks
      have hsplit := List.filter_append_perm (fun x => decide (f x = k)) (items.filter fun x => decide (f x ∈ k :: ks))
      have hfirst : (items.filter fun x => decide (f x ∈ k :: ks)).filter (fun x => decide (f x = k)) =
          items.filter fun x => decide (f x = k) := by
        rw [List.filter_filter]
        refine List.filter_congr fun x _ => ?_
        by_cases h : f x = k <;> simp [h]
      have hrest : (items.filter fun x => decide (f x ∈ k :: ks)).filter (fun x => !decide (f x = k)) =
          items.filter fun x => decide (f x ∈ ks) := by
        rw [List.filter_filter]
        refine List.filter_congr fun x _ => ?_
        by_cases h : f x = k <;> simp [h, hk]
      rw [hfirst, hrest] at hsplit
      rw [List.flatMap_cons]
      exact ((ih hks).append_left _).trans hsplit

/-- Items that keep their keys are gathered as they were. -/
theorem gather_map {f : ν → κ} {g : ν → ν} (h : ∀ x, f (g x) = f x) (items : List ν) :
    gather f (items.map g) = (gather f items).map fun pair => (pair.1, pair.2.map g) := by
  have hkeys : f ∘ g = f := funext h
  have hmembers : ∀ k : κ, (items.map g).filter (fun x => decide (f x = k)) =
      (items.filter fun x => decide (f x = k)).map g := by
    intro k
    rw [List.filter_map]
    congr 2
    exact funext fun x => by simp [h]
  rw [gather_eq, gather_eq, List.map_map, List.map_map, hkeys]
  exact List.map_congr_left fun k _ => congrArg (Prod.mk k) (hmembers k)

/-- Gathering keeps each item once. -/
theorem gather_perm (f : ν → κ) (items : List ν) : ((gather f items).flatMap Prod.snd).Perm items := by
  rw [gather_eq, List.flatMap_map]
  refine (flatMap_filter_perm f items (nodup_distinct _)).trans ?_
  rw [List.filter_eq_self.mpr fun x hx => decide_eq_true (mem_distinct.mpr (List.mem_map_of_mem hx))]

end GoalReconciliation.Assoc

import GoalReconciliation.Matching.Combination
import GoalReconciliation.Proofs.Decimal.Exact
import GoalReconciliation.Proofs.Lookup
import GoalReconciliation.Proofs.Related

/-!
# The search for a combination

* `exists_mask` : every choice of items is the subset of some mask, so trying all masks tries all choices;
* `greedy_found`, `firstSubset_found`, `firstSubset_exhausted` : what the two stages of the search answer;
* `find_parts` : a search for a negative target is one for the opposite amounts;
* `find_names` : what is found are names of the items, two or more of them and each once;
* `find_sound`, `find_exhausted`, `find_complete` : where the amounts add up without rounding, what is found solves the
  problem, and if nothing is found, no choice of the items searched does.
-/

namespace GoalReconciliation.Combination

open Decimal (Fits ExactSums total)
open Fallible (bind_eq_ok pure_eq_ok mapM_eq_ok)
open Related (exists_of_mem forall₂_mergeSort forall₂_sublist forall₂_subperm map_eq map_subperm)

set_option autoImplicit false

/-! ## Masks -/

theorem subset_cons (x : Item) (items : List Item) (mask : Nat) :
    subset (x :: items) mask = (if mask.testBit 0 then [x] else []) ++ subset items (mask / 2) := by
  have htail : (fun p : Item × Nat => mask.testBit p.2) ∘ Prod.map id (· + 1) =
      fun p => (mask / 2).testBit p.2 := by
    funext p
    exact Nat.testBit_succ mask p.2
  change (((x :: items).zipIdx).filter fun p => mask.testBit p.2).map Prod.fst = _ ++
    ((items.zipIdx).filter fun p => (mask / 2).testBit p.2).map Prod.fst
  rw [List.zipIdx_cons', List.filter_cons, List.filter_map, htail, apply_ite (List.map Prod.fst), List.map_cons,
    List.map_map]
  by_cases h : mask.testBit 0
  · simp [h, Function.comp_def]
  · simp [h, Function.comp_def]

theorem subset_sublist (items : List Item) (mask : Nat) : (subset items mask).Sublist items := by
  induction items generalizing mask with
  | nil => exact List.Sublist.slnil
  | cons x items ih =>
      rw [subset_cons]
      split
      · exact (ih _).cons_cons x
      · exact (ih _).cons x

/-- Every choice of items is the subset of some mask. -/
theorem exists_mask {chosen items : List Item} (h : chosen.Sublist items) :
    ∃ mask < 2 ^ items.length, subset items mask = chosen := by
  induction h with
  | slnil => exact ⟨0, by decide, rfl⟩
  | cons x _ ih =>
      obtain ⟨mask, hlt, hmask⟩ := ih
      refine ⟨2 * mask, by rw [List.length_cons, pow_succ]; omega, ?_⟩
      rw [subset_cons, Nat.mul_div_cancel_left mask (by decide), hmask]
      simp
  | cons_cons x _ ih =>
      obtain ⟨mask, hlt, hmask⟩ := ih
      refine ⟨2 * mask + 1, by rw [List.length_cons, pow_succ]; omega, ?_⟩
      rw [subset_cons, show (2 * mask + 1) / 2 = mask by omega, hmask]
      simp

/-! ## The two stages -/

theorem near_iff {sum target bound : Decimal} {p q : ℚ} (hsum : sum.Worth p) (htarget : target.Worth q)
    (hfits : Fits (p - q)) {answer : Bool} (h : near sum target bound = .ok answer) :
    answer = true ↔ bound.Bounds (p - q) := by
  obtain ⟨distance, hdistance, hworth⟩ := Decimal.sub_fits hsum htarget hfits
  obtain ⟨size, hsize, habs⟩ := Decimal.abs_fits hworth hfits
  obtain ⟨difference, hsub, h⟩ := bind_eq_ok.mp h
  obtain rfl : distance = difference := Except.ok.inj (hdistance.symm.trans hsub)
  obtain ⟨magnitude, hmagnitude, h⟩ := bind_eq_ok.mp h
  obtain rfl : size = magnitude := Except.ok.inj (hsize.symm.trans hmagnitude)
  exact Decimal.le_iff_bounds habs h

/-- Items whose sum, as decimals add up, the comparison with the target calls near or not. -/
def Judged (target bound : Decimal) (answer : Bool) (picked : List Item) : Prop :=
  ∃ sum, Decimal.sum (picked.map Prod.snd) = .ok sum ∧ near sum target bound = .ok answer

/-- What the greedy stage finds goes on from what it has chosen already. -/
theorem greedy_found {target bound ceiling : Decimal} {items : List Item} {chosen ids : List String}
    {running : Decimal} (h : greedy target bound ceiling items chosen running = .ok (some ids)) :
    ∃ picked : List Item, picked.Sublist items ∧ ids = chosen ++ picked.map Prod.fst ∧ 2 ≤ ids.length ∧
      ∃ sum, (picked.map Prod.snd).foldlM Decimal.add running = .ok sum ∧ near sum target bound = .ok true := by
  induction items generalizing chosen running with
  | nil => cases h
  | cons item items ih =>
      obtain ⟨name, amount⟩ := item
      obtain ⟨next, hnext, h⟩ := bind_eq_ok.mp h
      obtain ⟨fits, -, h⟩ := bind_eq_ok.mp h
      cases fits with
      | false =>
          obtain ⟨picked, hsub, hids, hlength, hsum⟩ := ih h
          exact ⟨picked, hsub.cons _, hids, hlength, hsum⟩
      | true =>
          simp only [if_true] at h
          obtain ⟨isNear, hnear, h⟩ := bind_eq_ok.mp h
          split at h
          · rename_i hstop
            rw [Bool.and_eq_true, decide_eq_true_iff] at hstop
            obtain ⟨rfl, hlength⟩ := hstop
            obtain rfl : chosen ++ [name] = ids := by simpa using h
            refine ⟨[(name, amount)], by simp, rfl, hlength, next, ?_, hnear⟩
            simp [hnext, bind, Except.bind]
          · obtain ⟨picked, hsub, hids, hlength, sum, hsum, hjudged⟩ := ih h
            refine ⟨(name, amount) :: picked, hsub.cons_cons _, by simp [hids], hlength, sum, ?_, hjudged⟩
            rw [List.map_cons, List.foldlM_cons, bind_eq_ok]
            exact ⟨next, hnext, hsum⟩

theorem firstSubset_found {items : List Item} {target bound : Decimal} {count mask : Nat} {ids : List String}
    (h : firstSubset items target bound count mask = .ok ids) (hids : ids ≠ []) :
    ∃ picked : List Item, picked.Sublist items ∧ ids = picked.map Prod.fst ∧ 2 ≤ picked.length ∧
      Judged target bound true picked := by
  induction count generalizing mask with
  | zero => exact absurd (Except.ok.inj h).symm hids
  | succ count ih =>
      rw [firstSubset] at h
      split at h
      · exact ih h
      · rename_i hlength
        obtain ⟨sum, hsum, h⟩ := bind_eq_ok.mp h
        obtain ⟨isNear, hnear, h⟩ := bind_eq_ok.mp h
        cases isNear with
        | false => exact ih h
        | true =>
            exact ⟨subset items mask, subset_sublist _ _, (Except.ok.inj h).symm, by omega, sum, hsum, hnear⟩

/-- If nothing is found, every mask that was tried picks fewer than two items or items that are not near. -/
theorem firstSubset_exhausted {items : List Item} {target bound : Decimal} {count mask : Nat}
    (h : firstSubset items target bound count mask = .ok []) {tried : Nat} (hfrom : mask ≤ tried)
    (hto : tried < mask + count) (hlength : 2 ≤ (subset items tried).length) :
    Judged target bound false (subset items tried) := by
  induction count generalizing mask with
  | zero => omega
  | succ count ih =>
      have hnext : firstSubset items target bound count (mask + 1) = .ok [] →
          mask ≠ tried → Judged target bound false (subset items tried) :=
        fun h hne => ih h (by omega) (by omega)
      rw [firstSubset] at h
      split at h
      · rename_i hshort
        exact hnext h (by rintro rfl; omega)
      · rename_i hlong
        obtain ⟨sum, hsum, h⟩ := bind_eq_ok.mp h
        obtain ⟨isNear, hnear, h⟩ := bind_eq_ok.mp h
        cases isNear with
        | false =>
            by_cases hmask : mask = tried
            · subst hmask
              exact ⟨sum, hsum, hnear⟩
            · exact hnext h hmask
        | true =>
            have hempty : (subset items mask).map Prod.fst = [] := Except.ok.inj h
            rw [List.map_eq_nil_iff] at hempty
            simp [hempty] at hlong

/-! ## The search -/

def Answered (target bound : Decimal) (limit : Int) (ordered : List Item) (ids : List String) : Prop :=
  ∃ ceiling,
    greedy target bound ceiling ordered [] Decimal.zero = .ok (some ids) ∨
      greedy target bound ceiling ordered [] Decimal.zero = .ok none ∧
        firstSubset (Slice.upTo limit ordered) target bound (2 ^ (Slice.upTo limit ordered).length - 1) 1 = .ok ids

theorem answered_found {target bound : Decimal} {limit : Int} {ordered : List Item} {ids : List String}
    (h : Answered target bound limit ordered ids) (hids : ids ≠ []) :
    ∃ picked : List Item, picked.Sublist ordered ∧ ids = picked.map Prod.fst ∧ 2 ≤ picked.length ∧
      Judged target bound true picked := by
  obtain ⟨ceiling, hgreedy | ⟨-, hsubset⟩⟩ := h
  · obtain ⟨picked, hsub, hpicked, hlength, hjudged⟩ := greedy_found hgreedy
    rw [List.nil_append] at hpicked
    exact ⟨picked, hsub, hpicked, by simpa [hpicked] using hlength, hjudged⟩
  · obtain ⟨picked, hsub, hfound⟩ := firstSubset_found hsubset hids
    exact ⟨picked, hsub.trans (List.take_sublist _ _), hfound⟩

theorem answered_exhausted {target bound : Decimal} {limit : Int} {ordered : List Item}
    (h : Answered target bound limit ordered []) {chosen : List Item}
    (hsub : chosen.Sublist (Slice.upTo limit ordered)) (hlength : 2 ≤ chosen.length) :
    Judged target bound false chosen := by
  obtain ⟨ceiling, hgreedy | ⟨-, hsubset⟩⟩ := h
  · obtain ⟨picked, -, -, hpicked, -⟩ := greedy_found hgreedy
    simp at hpicked
  · obtain ⟨mask, hlt, rfl⟩ := exists_mask hsub
    have hmask : mask ≠ 0 := by
      rintro rfl
      simp [subset] at hlength
    exact firstSubset_exhausted hsubset (by omega) (by omega) hlength

/-- A search for a negative target is one for the opposite amounts. -/
theorem find_parts {items : List Item} {target bound : Decimal} {limit : Int} {ids : List String}
    (hitems : 2 ≤ items.length) (h : find items target bound limit = .ok ids) :
    ∃ (sign : Int) (aim : Decimal) (turned ordered : List Item), (sign = 1 ∨ sign = -1) ∧
      target.lt Decimal.zero = .ok (decide (sign = -1)) ∧ target.mul (Decimal.ofInt sign) = .ok aim ∧
      List.Forall₂ (fun x y => y.1 = x.1 ∧ x.2.mul (Decimal.ofInt sign) = .ok y.2) items turned ∧
      descending turned = .ok ordered ∧ Answered aim bound limit ordered ids := by
  rw [find, if_neg (by omega)] at h
  obtain ⟨negative, hnegative, h⟩ := bind_eq_ok.mp h
  obtain ⟨aim, haim, h⟩ := bind_eq_ok.mp h
  obtain ⟨turned, hturned, h⟩ := bind_eq_ok.mp h
  obtain ⟨ordered, hordered, h⟩ := bind_eq_ok.mp h
  obtain ⟨ceiling, -, h⟩ := bind_eq_ok.mp h
  obtain ⟨found, hgreedy, h⟩ := bind_eq_ok.mp h
  refine ⟨if negative then -1 else 1, aim, turned, ordered, by cases negative <;> simp, ?_, haim, ?_, hordered, ceiling,
    ?_⟩
  · cases negative <;> exact hnegative
  · refine (mapM_eq_ok.mp hturned).imp fun x y hxy => ?_
    obtain ⟨amount, hamount, hy⟩ := bind_eq_ok.mp hxy
    obtain rfl := pure_eq_ok.mp hy
    exact ⟨rfl, hamount⟩
  · cases found with
    | some chosen =>
        obtain rfl : chosen = ids := pure_eq_ok.mp h
        exact Or.inl hgreedy
    | none => exact Or.inr ⟨hgreedy, h⟩

theorem descending_perm {items ordered : List Item} (h : descending items = .ok ordered) : ordered.Perm items := by
  unfold descending at h
  split at h
  · cases h
  · obtain rfl := Except.ok.inj h
    exact List.mergeSort_perm _ _

theorem find_names {items : List Item} {target bound : Decimal} {limit : Int} {ids : List String}
    (h : find items target bound limit = .ok ids) (hids : ids ≠ []) :
    ids.Subperm (items.map Prod.fst) ∧ 2 ≤ ids.length := by
  by_cases hitems : 2 ≤ items.length
  · obtain ⟨sign, aim, turned, ordered, -, -, -, hturned, hordered, hanswer⟩ := find_parts hitems h
    obtain ⟨picked, hsub, rfl, hlength, -⟩ := answered_found hanswer hids
    rw [← map_eq (hturned.imp fun _ _ hxy => hxy.1)]
    exact ⟨map_subperm _ (hsub.subperm.trans (descending_perm hordered).subperm), by simpa using hlength⟩
  · rw [find, if_pos (by omega)] at h
    exact absurd (Except.ok.inj h).symm hids

section Named

variable {α : Type} {name : α → String} {amount : α → Decimal} {items : List α}

/-- What is picked by the names that were found: two or more of the items, with these names. -/
theorem find_picked (hitems : (items.map name).Nodup) {target bound : Decimal} {limit : Int} {ids : List String}
    (h : find (items.map fun a => (name a, amount a)) target bound limit = .ok ids) (hids : ids ≠ []) :
    (ids.filterMap (Assoc.last? name items)).map name = ids ∧ ids.Nodup ∧
      2 ≤ (ids.filterMap (Assoc.last? name items)).length := by
  obtain ⟨hnames, hmany⟩ := find_names h hids
  rw [List.map_map] at hnames
  have hpicked := Lookup.picked_names hitems hnames.subset
  refine ⟨hpicked, ?_, ?_⟩
  · obtain ⟨same, hperm, hsame⟩ := hnames
    exact hperm.nodup_iff.mp (hitems.sublist hsame)
  · rwa [← List.length_map (f := name), hpicked]

end Named

/-! ## Amounts that add up without rounding -/

/-- Items whose amounts add up without rounding, and whose sums have exact distances from the target. -/
structure Exact (items : List Item) (target : Decimal) : Prop where
  sums : ExactSums (items.map Prod.snd)
  target_finite : target.isFinite = true
  distances : ∀ chosen : List Decimal, chosen.Sublist (items.map Prod.snd) → Fits (total chosen - target.value)

section ExactItems

variable {items : List Item} {target : Decimal}

theorem Exact.fits_target (h : Exact items target) : Fits target.value := by
  simpa using (h.distances [] (List.nil_sublist _)).neg

theorem Exact.fits_distance (h : Exact items target) {chosen : List Item} (hsub : chosen.Subperm items) :
    Fits (total (chosen.map Prod.snd) - target.value) := by
  obtain ⟨same, hperm, hsame⟩ := hsub
  rw [← Decimal.total_perm (hperm.map Prod.snd)]
  exact h.distances _ (hsame.map Prod.snd)

/-- Two or more items whose exact sum lies within the bound of the target. -/
def Solves (target bound : Decimal) (picked : List Item) : Prop :=
  2 ≤ picked.length ∧ bound.Bounds (total (picked.map Prod.snd) - target.value)

/-- Two lists of items with the same names, where the amounts of one are worth `sign` times those of the other. -/
def Turned (sign : Int) : List Item → List Item → Prop :=
  List.Forall₂ fun x y => y.1 = x.1 ∧ y.2.Worth (sign * x.2.value)

variable {sign : Int}

theorem fits_turned (hsign : sign = 1 ∨ sign = -1) {q : ℚ} (h : Fits q) : Fits (sign * q) := by
  rcases hsign with rfl | rfl
  · simpa using h
  · simpa using h.neg

theorem mul_turned (hsign : sign = 1 ∨ sign = -1) {d d' : Decimal} (hd : d.isFinite = true)
    (hfits : Fits d.value) (h : d.mul (Decimal.ofInt sign) = .ok d') : d'.Worth (sign * d.value) := by
  have hproduct := fits_turned hsign hfits
  rw [mul_comm] at hproduct
  obtain ⟨product, hmul, hworth⟩ := Decimal.mul_fits (Decimal.worth_value hd) (Decimal.worth_ofInt sign) hproduct
  obtain rfl : product = d' := Except.ok.inj (hmul.symm.trans h)
  rwa [mul_comm]

theorem Exact.turned (h : Exact items target) (hsign : sign = 1 ∨ sign = -1) {turned : List Item}
    (hturned : List.Forall₂ (fun x y => y.1 = x.1 ∧ x.2.mul (Decimal.ofInt sign) = .ok y.2) items turned) :
    Turned sign items turned := by
  refine ((List.forall₂_and_left items turned).mpr ⟨fun x hx => hx, hturned⟩).imp fun x y hxy => ?_
  obtain ⟨hx, hname, hmul⟩ := hxy
  have hamount := List.mem_map_of_mem (f := Prod.snd) hx
  exact ⟨hname, mul_turned hsign (h.sums.finite _ hamount) (h.sums.fits_value hamount) hmul⟩

theorem Turned.total_eq {chosen picked : List Item} (h : Turned sign chosen picked) :
    total (picked.map Prod.snd) = sign * total (chosen.map Prod.snd) := by
  induction h with
  | nil => simp
  | cons hxy _ ih => rw [List.map_cons, List.map_cons, Decimal.total_cons, Decimal.total_cons, ih, hxy.2.2, mul_add]

theorem Turned.sums {turned : List Item} (h : Turned sign items turned) (hsign : sign = 1 ∨ sign = -1)
    (hsums : ExactSums (items.map Prod.snd)) : ExactSums (turned.map Prod.snd) where
  finite := by
    intro d hd
    obtain ⟨y, hy, rfl⟩ := List.mem_map.mp hd
    obtain ⟨x, -, hxy⟩ := exists_of_mem h hy
    exact hxy.2.1
  fits := by
    intro amounts hamounts
    obtain ⟨picked, hpicked, rfl⟩ := List.sublist_map_iff.mp hamounts
    obtain ⟨chosen, hchosen, hturned⟩ := forall₂_sublist h hpicked
    rw [Turned.total_eq hturned]
    exact fits_turned hsign (hsums.fits _ (hchosen.map Prod.snd))

/-- How the turned form of some items is judged tells how far their exact sum is from the target. -/
theorem Exact.judged_iff (h : Exact items target) (hsign : sign = 1 ∨ sign = -1) {aim bound : Decimal}
    (haim : aim.Worth (sign * target.value)) {chosen picked : List Item} (hchosen : chosen.Subperm items)
    (hturned : Turned sign chosen picked) {answer : Bool} (hjudged : Judged aim bound answer picked) :
    answer = true ↔ bound.Bounds (total (chosen.map Prod.snd) - target.value) := by
  obtain ⟨sum, hsum, hnear⟩ := hjudged
  obtain ⟨exact, hexact, hworth⟩ :=
    Decimal.sum_exact (hturned.sums hsign (h.sums.subperm (map_subperm Prod.snd hchosen)))
  obtain rfl : exact = sum := Except.ok.inj (hexact.symm.trans hsum)
  have hdistance : total (picked.map Prod.snd) - sign * target.value =
      sign * (total (chosen.map Prod.snd) - target.value) := by
    rw [hturned.total_eq, mul_sub]
  rw [near_iff hworth haim (hdistance ▸ fits_turned hsign (h.fits_distance hchosen)) hnear, hdistance]
  rcases hsign with rfl | rfl
  · rw [Int.cast_one, one_mul]
  · rw [Int.cast_neg, Int.cast_one, neg_one_mul, Decimal.bounds_neg]

end ExactItems

/-- **What is found solves the problem**: two or more of the items, each taken once, whose exact sum lies within the
bound of the target. -/
theorem find_sound {items : List Item} {target bound : Decimal} {limit : Int} {ids : List String}
    (hexact : Exact items target) (h : find items target bound limit = .ok ids) (hids : ids ≠ []) :
    ∃ picked : List Item, picked.Subperm items ∧ picked.map Prod.fst = ids ∧ Solves target bound picked := by
  by_cases hitems : 2 ≤ items.length
  · obtain ⟨sign, aim, turned, ordered, hsign, -, haim, hturned, hordered, hanswer⟩ := find_parts hitems h
    obtain ⟨picked, hsub, rfl, hlength, hjudged⟩ := answered_found hanswer hids
    have haim := mul_turned hsign hexact.target_finite hexact.fits_target haim
    obtain ⟨chosen, hchosen, hpicked⟩ :=
      forall₂_subperm (hexact.turned hsign hturned) (hsub.subperm.trans (descending_perm hordered).subperm)
    refine ⟨chosen, hchosen, (map_eq (hpicked.imp fun _ _ hxy => hxy.1)).symm, ?_, ?_⟩
    · rwa [hpicked.length_eq]
    · exact (hexact.judged_iff hsign haim hchosen hpicked hjudged).mp rfl
  · rw [find, if_pos (by omega)] at h
    exact absurd (Except.ok.inj h).symm hids

/-! ## What was searched -/

def side (target : Decimal) : ℤ :=
  if target.value < 0 then -1 else 1

/-- The items by their exact amounts, in the target's direction the farthest first and equal ones as they came. -/
def ranked (target : Decimal) (items : List Item) : List Item :=
  items.mergeSort fun a b => decide (side target * b.2.value ≤ side target * a.2.value)

theorem ranked_perm (target : Decimal) (items : List Item) : (ranked target items).Perm items :=
  List.mergeSort_perm _ _

theorem side_cases (target : Decimal) : side target = 1 ∨ side target = -1 := by
  unfold side
  split
  · exact Or.inr rfl
  · exact Or.inl rfl

theorem upTo_of_length_le {α : Type} {limit : Int} {xs : List α} (h : (xs.length : Int) ≤ limit) :
    Slice.upTo limit xs = xs := by
  refine List.take_of_length_le ?_
  rw [Slice.position, if_neg (by omega)]
  omega

/-- The turned items are sorted as the exact amounts rank them. -/
theorem Turned.ranked {items turned ordered : List Item} {target : Decimal}
    (h : Turned (side target) items turned) (hordered : descending turned = .ok ordered) :
    Turned (side target) (ranked target items) ordered := by
  unfold descending at hordered
  split at hordered
  · cases hordered
  · obtain rfl := Except.ok.inj hordered
    refine forall₂_mergeSort h fun {x y x' y'} hy hy' => ?_
    rw [Decimal.compare?_of_worth hy.2 hy'.2, Bool.eq_iff_iff, decide_eq_true_iff, bne_iff_ne, ne_eq,
      Option.some.injEq, compare_lt_iff_lt, not_lt]

/-- **If nothing is found, no choice of the items that the limit keeps solves the problem.** -/
theorem find_exhausted {items : List Item} {target bound : Decimal} {limit : Int} (hexact : Exact items target)
    (h : find items target bound limit = .ok []) {chosen : List Item}
    (hchosen : chosen.Subperm (Slice.upTo limit (ranked target items))) : ¬Solves target bound chosen := by
  rintro ⟨hlength, hbounds⟩
  have hof : chosen.Subperm items :=
    hchosen.trans ((List.take_sublist _ _).subperm.trans (ranked_perm target items).subperm)
  obtain ⟨sign, aim, turned, ordered, hsign, hnegative, haim, hturned, hordered, hanswer⟩ :=
    find_parts (hlength.trans hof.length_le) h
  have hside : sign = side target := by
    rw [Decimal.lt_of_worth (Decimal.worth_value hexact.target_finite) Decimal.worth_zero, Except.ok.injEq,
      decide_eq_decide] at hnegative
    rcases hsign with rfl | rfl
    · exact (if_neg fun hlt => absurd (hnegative.mp hlt) (by decide)).symm
    · exact (if_pos (hnegative.mpr rfl)).symm
  subst hside
  have haim := mul_turned hsign hexact.target_finite hexact.fits_target haim
  have hranked := (hexact.turned hsign hturned).ranked hordered
  have hsearched : Turned (side target) (Slice.upTo limit (ranked target items)) (Slice.upTo limit ordered) := by
    rw [Slice.upTo, Slice.upTo, hranked.length_eq]
    exact List.forall₂_take _ hranked
  -- The turned form of the choice is among the ordered items, up to the order in which it is taken.
  obtain ⟨picked, hpicked, hturn⟩ := forall₂_subperm hsearched.flip hchosen
  have hlong : 2 ≤ picked.length := by rwa [hturn.length_eq]
  obtain ⟨tried, htried, hsub⟩ := hpicked
  rw [← htried.length_eq] at hlong
  have hjudged := answered_exhausted hanswer hsub hlong
  obtain ⟨same, hturn, hsame⟩ := List.perm_comp_forall₂ htried hturn
  have hiff := hexact.judged_iff hsign haim (hsame.subperm.trans hof) hturn.flip hjudged
  rw [Decimal.total_perm (hsame.map Prod.snd)] at hiff
  exact Bool.false_ne_true (hiff.mpr hbounds)

/-- If nothing is found among no more items than the limit, no choice of the items solves the problem. -/
theorem find_complete {items : List Item} {target bound : Decimal} {limit : Int} (hexact : Exact items target)
    (h : find items target bound limit = .ok []) (hlimit : (items.length : Int) ≤ limit) {chosen : List Item}
    (hchosen : chosen.Subperm items) : ¬Solves target bound chosen := by
  have hranked := ranked_perm target items
  refine find_exhausted hexact h ?_
  rw [upTo_of_length_le (by rwa [hranked.length_eq])]
  exact hchosen.trans hranked.symm.subperm

section Named

variable {α : Type} {name : α → String} {amount : α → Decimal} {items : List α} {target bound : Decimal} {limit : Int}

/-- What is picked by the names that were found sums to the target, within the bound. -/
theorem find_picked_solves (hitems : (items.map name).Nodup)
    (hexact : Exact (items.map fun a => (name a, amount a)) target) {picked : List α} (hof : picked ⊆ items)
    (h : find (items.map fun a => (name a, amount a)) target bound limit = .ok (picked.map name))
    (hmany : 2 ≤ picked.length) : bound.Bounds (total (picked.map amount) - target.value) := by
  have hids : picked.map name ≠ [] := by
    rw [ne_eq, List.map_eq_nil_iff]
    rintro rfl
    simp at hmany
  obtain ⟨found, hfound, hnames, -, hbounds⟩ := find_sound hexact h hids
  have hdistinct : ((items.map fun a => (name a, amount a)).map Prod.fst).Nodup := by rwa [List.map_map]
  have hsame : found = picked.map fun a => (name a, amount a) := by
    refine Lookup.eq_of_names hdistinct hfound.subset (List.map_subset _ hof) ?_
    rw [hnames, List.map_map]
    rfl
  rw [hsame, List.map_map] at hbounds
  exact hbounds

/-- If nothing was found among no more items than the limit, no two or more of them sum to the target, within the
bound. -/
theorem find_none_solves (hexact : Exact (items.map fun a => (name a, amount a)) target)
    (h : find (items.map fun a => (name a, amount a)) target bound limit = .ok [])
    (hlimit : (items.length : Int) ≤ limit) {chosen : List α} (hchosen : chosen.Subperm items)
    (hmany : 2 ≤ chosen.length) : ¬bound.Bounds (total (chosen.map amount) - target.value) := by
  intro hbounds
  refine find_complete hexact h (by rwa [List.length_map]) (map_subperm _ hchosen) ⟨by rwa [List.length_map], ?_⟩
  rw [List.map_map]
  exact hbounds

end Named

end GoalReconciliation.Combination

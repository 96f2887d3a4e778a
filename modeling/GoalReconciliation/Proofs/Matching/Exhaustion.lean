import GoalReconciliation.Proofs.Decimal.Nearest
import GoalReconciliation.Proofs.Matching.Exactness

/-!
# What a search for a combination answers

* `Comparable` : amounts and a target that a search adds up and compares without rounding, and a tolerance;
  `comparable_of_units` : those in whole units are such, as long as their sizes add up to at most 28 digits;
* `Within` : what a stage of the search needs of the items before it; `greedy_returns`, `firstSubset_returns`,
  `find_returns` : each stage answers, and so does the search;
* `find_exhaustive` : **the search answers, what it finds is a combination, and it finds one as soon as there is one
  among the items that the limit keeps**.
-/

namespace GoalReconciliation.Combination

set_option autoImplicit false

open Decimal (Fits ExactSums total)
open Fallible (bind_eq_ok exists_bind_ok exists_mapM_ok mapM_eq_ok)
open Related (forall₂_subperm)

/-- Amounts and a target that are added up and compared without rounding, and a tolerance that is not too large to be
added to the target. -/
structure Comparable (items : List Item) (target tolerance : Decimal) : Prop extends Exact items target where
  tolerance_finite : tolerance.isFinite = true
  ceiling : ∃ bound, Fits bound ∧ |(|target.value| + tolerance.value)| ≤ bound

/-! ## Every stage answers -/

theorem near_returns {sum target tolerance : Decimal} {p q : ℚ} (hsum : sum.Worth p) (htarget : target.Worth q)
    (htolerance : tolerance.isFinite = true) (hfits : Fits (p - q)) :
    ∃ answer, near sum target tolerance = .ok answer := by
  obtain ⟨distance, hdistance, hworth⟩ := Decimal.sub_fits hsum htarget hfits
  obtain ⟨size, hsize, habs⟩ := Decimal.abs_fits hworth hfits
  exact exists_bind_ok hdistance
    (exists_bind_ok hsize ⟨_, Decimal.le_of_worth habs (Decimal.worth_value htolerance)⟩)

/-- Items whose sums go on from `start` and are compared with `aim` without rounding. -/
structure Within (start aim : ℚ) (items : List Item) : Prop where
  finite : ∀ x ∈ items, x.2.isFinite = true
  sums : ∀ chosen : List Item, chosen.Sublist items → Fits (start + total (chosen.map Prod.snd))
  distances : ∀ chosen : List Item, chosen.Sublist items → Fits (start + total (chosen.map Prod.snd) - aim)

section Within

variable {start aim : ℚ} {x : Item} {items : List Item}

theorem Within.skipped (h : Within start aim (x :: items)) : Within start aim items where
  finite y hy := h.finite y (List.mem_cons_of_mem x hy)
  sums chosen hchosen := h.sums chosen (hchosen.cons x)
  distances chosen hchosen := h.distances chosen (hchosen.cons x)

theorem Within.taken (h : Within start aim (x :: items)) : Within (start + x.2.value) aim items where
  finite y hy := h.finite y (List.mem_cons_of_mem x hy)
  sums chosen hchosen := by
    simpa [add_assoc] using h.sums (x :: chosen) (hchosen.cons_cons x)
  distances chosen hchosen := by
    simpa [add_assoc] using h.distances (x :: chosen) (hchosen.cons_cons x)

theorem Within.sublist {chosen : List Item} (h : Within start aim items) (hchosen : chosen.Sublist items) :
    Within start aim chosen where
  finite y hy := h.finite y (hchosen.subset hy)
  sums picked hpicked := h.sums picked (hpicked.trans hchosen)
  distances picked hpicked := h.distances picked (hpicked.trans hchosen)

theorem Within.exactSums (h : Within 0 aim items) : ExactSums (items.map Prod.snd) where
  finite d hd := by
    obtain ⟨y, hy, rfl⟩ := List.mem_map.mp hd
    exact h.finite y hy
  fits amounts hamounts := by
    obtain ⟨chosen, hchosen, rfl⟩ := List.sublist_map_iff.mp hamounts
    simpa using h.sums chosen hchosen

variable {target tolerance : Decimal}

theorem greedy_returns {ceiling : Decimal} (htarget : target.Worth aim) (htolerance : tolerance.isFinite = true)
    (hceiling : ceiling.isFinite = true) (h : Within start aim items) {chosen : List String} {running : Decimal}
    (hrunning : running.Worth start) : ∃ found, greedy target tolerance ceiling items chosen running = .ok found := by
  induction items generalizing start chosen running with
  | nil => exact ⟨none, rfl⟩
  | cons x items ih =>
      have hsum : Fits (start + x.2.value) := by
        simpa using h.sums [x] (by simp)
      have hdistance : Fits (start + x.2.value - aim) := by
        simpa using h.distances [x] (by simp)
      obtain ⟨next, hnext, hworth⟩ :=
        Decimal.add_fits hrunning (Decimal.worth_value (h.finite x List.mem_cons_self)) hsum
      obtain ⟨answer, hanswer⟩ := near_returns hworth htarget htolerance hdistance
      have hstop : ∃ found, greedy target tolerance ceiling items (chosen ++ [x.1]) next = .ok found :=
        ih h.taken hworth
      rw [greedy]
      refine exists_bind_ok hnext (exists_bind_ok (Decimal.le_of_worth hworth (Decimal.worth_value hceiling)) ?_)
      split
      · refine exists_bind_ok hanswer ?_
        split
        · exact ⟨_, rfl⟩
        · exact hstop
      · exact ih h.skipped hrunning

theorem firstSubset_returns (htarget : target.Worth aim) (htolerance : tolerance.isFinite = true)
    (h : Within 0 aim items) (count mask : Nat) : ∃ ids, firstSubset items target tolerance count mask = .ok ids := by
  induction count generalizing mask with
  | zero => exact ⟨[], rfl⟩
  | succ count ih =>
      rw [firstSubset]
      split
      · exact ih _
      · have hpicked := subset_sublist items mask
        obtain ⟨sum, hsum, hworth⟩ := Decimal.sum_exact (h.sublist hpicked).exactSums
        have hdistance : Fits (total ((subset items mask).map Prod.snd) - aim) := by
          simpa using h.distances _ hpicked
        obtain ⟨answer, hanswer⟩ := near_returns hworth htarget htolerance hdistance
        refine exists_bind_ok hsum (exists_bind_ok hanswer ?_)
        split
        · exact ⟨_, rfl⟩
        · exact ih _

end Within

/-! ## The search answers -/

section Search

variable {items : List Item} {target tolerance : Decimal} {sign : ℤ}

theorem returns_mul_turned (hsign : sign = 1 ∨ sign = -1) {d : Decimal} (hfinite : d.isFinite = true)
    (hd : Fits d.value) : ∃ d', d.mul (Decimal.ofInt sign) = .ok d' := by
  have hproduct := fits_turned hsign hd
  rw [mul_comm] at hproduct
  obtain ⟨product, hmul, -⟩ := Decimal.mul_fits (Decimal.worth_value hfinite) (Decimal.worth_ofInt sign) hproduct
  exact ⟨product, hmul⟩

/-- The turned items, in whatever order, are summed and compared with the turned target without rounding. -/
theorem Exact.within (h : Exact items target) (hsign : sign = 1 ∨ sign = -1) {turned ordered : List Item}
    (hturned : Turned sign items turned) (hordered : ordered.Perm turned) :
    Within 0 (sign * target.value) ordered where
  finite y hy := by
    obtain ⟨x, -, hxy⟩ := Related.exists_of_mem hturned (hordered.subset hy)
    exact hxy.2.1
  sums picked hpicked := by
    obtain ⟨chosen, hchosen, hpicked⟩ := forall₂_subperm hturned (hpicked.subperm.trans hordered.subperm)
    rw [zero_add, Turned.total_eq hpicked]
    have hsums := h.sums.subperm (Related.map_subperm Prod.snd hchosen)
    exact fits_turned hsign (hsums.fits _ (List.Sublist.refl _))
  distances picked hpicked := by
    obtain ⟨chosen, hchosen, hpicked⟩ := forall₂_subperm hturned (hpicked.subperm.trans hordered.subperm)
    rw [zero_add, Turned.total_eq hpicked, ← mul_sub]
    exact fits_turned hsign (h.fits_distance hchosen)

theorem descending_returns (h : ∀ x ∈ items, x.2.isFinite = true) : ∃ ordered, descending items = .ok ordered := by
  unfold descending
  rw [if_neg]
  · exact ⟨_, rfl⟩
  · rw [List.any_eq_true]
    rintro ⟨x, hx, hnan⟩
    have hfinite := h x hx
    cases hd : x.2 <;> simp [hd, Decimal.isNaN, Decimal.isFinite] at hnan hfinite

theorem side_mul_value (target : Decimal) : side target * target.value = |target.value| := by
  unfold side
  split
  · rename_i hneg
    rw [abs_of_neg hneg, Int.cast_neg, Int.cast_one, neg_one_mul]
  · rename_i hneg
    rw [abs_of_nonneg (not_lt.mp hneg), Int.cast_one, one_mul]

theorem find_returns (h : Comparable items target tolerance) (limit : Int) :
    ∃ ids, find items target tolerance limit = .ok ids := by
  unfold find
  split
  · exact ⟨[], rfl⟩
  have hsign := side_cases target
  have hnegative := Decimal.lt_of_worth (Decimal.worth_value h.target_finite) Decimal.worth_zero
  have hside : (if decide (target.value < 0) then -1 else 1) = side target := by
    simp only [decide_eq_true_eq]
    rfl
  obtain ⟨aim, haim⟩ := returns_mul_turned hsign h.target_finite h.fits_target
  have haim' := mul_turned hsign h.target_finite h.fits_target haim
  obtain ⟨turned, hturned⟩ : ∃ turned, (items.mapM fun x => do
      return (x.1, ← x.2.mul (Decimal.ofInt (side target)))) = .ok turned := by
    refine exists_mapM_ok fun x hx => ?_
    have hamount := List.mem_map_of_mem (f := Prod.snd) hx
    obtain ⟨amount, hmul⟩ := returns_mul_turned hsign (h.sums.finite _ hamount) (h.sums.fits_value hamount)
    exact exists_bind_ok hmul ⟨_, rfl⟩
  have hturns : Turned (side target) items turned := by
    refine h.turned hsign ((mapM_eq_ok.mp hturned).imp fun x y hxy => ?_)
    obtain ⟨amount, hamount, hy⟩ := bind_eq_ok.mp hxy
    obtain rfl := Fallible.pure_eq_ok.mp hy
    exact ⟨rfl, hamount⟩
  obtain ⟨ordered, hordered⟩ := descending_returns (h.within hsign hturns (.refl _)).finite
  have hwithin := h.within hsign hturns (descending_perm hordered)
  obtain ⟨bound, hbound, hlarge⟩ := h.ceiling
  rw [← side_mul_value] at hlarge
  obtain ⟨ceiling, hceiling, hrounds⟩ :=
    (Decimal.add_settles haim' (Decimal.worth_value h.tolerance_finite)).returns hbound hlarge
  obtain ⟨found, hfound⟩ : ∃ found, greedy aim tolerance ceiling ordered [] .zero = .ok found :=
    greedy_returns haim' h.tolerance_finite hrounds.rounded.1 hwithin Decimal.worth_zero
  refine exists_bind_ok hnegative ?_
  rw [hside]
  refine exists_bind_ok haim (exists_bind_ok hturned (exists_bind_ok hordered (exists_bind_ok hceiling
    (exists_bind_ok hfound ?_))))
  cases found with
  | some chosen => exact ⟨chosen, rfl⟩
  | none => exact firstSubset_returns haim' h.tolerance_finite (hwithin.sublist (List.take_sublist _ _)) _ _

end Search

/-- **The search is sound, and complete up to its limit.** It answers; names that it finds are two or more distinct ones
of items whose exact sum lies within the tolerance of the target; and if it finds none, no two or more of the items that
the limit keeps, the farthest in the target's direction first, have such a sum. -/
theorem find_exhaustive {items : List Item} {target tolerance : Decimal} (hnames : (items.map Prod.fst).Nodup)
    (h : Comparable items target tolerance) (limit : Int) :
    ∃ ids, find items target tolerance limit = .ok ids ∧
      (ids ≠ [] → 2 ≤ ids.length ∧ ids.Nodup ∧
        ∃ picked : List Item, picked.Subperm items ∧ picked.map Prod.fst = ids ∧
          |total (picked.map Prod.snd) - target.value| ≤ tolerance.value) ∧
      (ids = [] → ∀ chosen : List Item, chosen.Subperm (Slice.upTo limit (ranked target items)) → 2 ≤ chosen.length →
        tolerance.value < |total (chosen.map Prod.snd) - target.value|) ∧
      ((items.length : Int) ≤ limit → (ids = [] ↔ ∀ chosen : List Item, chosen.Subperm items → 2 ≤ chosen.length →
        tolerance.value < |total (chosen.map Prod.snd) - target.value|)) := by
  have hsolves : ∀ chosen : List Item, Solves target tolerance chosen ↔
      2 ≤ chosen.length ∧ |total (chosen.map Prod.snd) - target.value| ≤ tolerance.value := fun chosen => by
    rw [Solves, Decimal.bounds_of_worth (Decimal.worth_value h.tolerance_finite)]
  have hfails : ∀ chosen : List Item, ¬Solves target tolerance chosen → 2 ≤ chosen.length →
      tolerance.value < |total (chosen.map Prod.snd) - target.value| := fun chosen hnot hlength =>
    not_le.mp fun hle => hnot ((hsolves chosen).mpr ⟨hlength, hle⟩)
  obtain ⟨ids, hfind⟩ := find_returns h limit
  refine ⟨ids, hfind, fun hids => ?_, fun hnone chosen hchosen => ?_, fun hlimit => ⟨fun hnone chosen hchosen => ?_,
    fun hnone => ?_⟩⟩
  · obtain ⟨picked, hpicked, hpickedNames, hpickedSolves⟩ := find_sound h.toExact hfind hids
    have hdistinct : ids.Nodup := by
      obtain ⟨same, hperm, hsame⟩ := hpickedNames ▸ Related.map_subperm Prod.fst hpicked
      exact hperm.nodup_iff.mp (hnames.sublist hsame)
    obtain ⟨hlength, hbounds⟩ := (hsolves picked).mp hpickedSolves
    exact ⟨by rwa [← hpickedNames, List.length_map], hdistinct, picked, hpicked, hpickedNames, hbounds⟩
  · exact hfails chosen (find_exhausted h.toExact (hnone ▸ hfind) hchosen)
  · exact hfails chosen (find_complete h.toExact (hnone ▸ hfind) hlimit hchosen)
  · by_contra hids
    obtain ⟨picked, hpicked, -, hpickedSolves⟩ := find_sound h.toExact hfind hids
    obtain ⟨hlength, hbounds⟩ := (hsolves picked).mp hpickedSolves
    exact not_lt.mpr hbounds (hnone picked hpicked hlength)

/-- Amounts, a target and a tolerance in whole units, all of them together of at most 28 digits, are comparable. -/
theorem comparable_of_units {low : Int} (hmin : Decimal.minExponent ≤ low) (hmax : low ≤ Decimal.maxExponent)
    {items : List Item} {target tolerance : Decimal} (hitems : ∀ d ∈ items.map Prod.snd, d.onGrid low = true)
    (htarget : target.onGrid low = true) (htolerance : tolerance.onGrid low = true)
    (hsize : ((items.map Prod.snd).map (Decimal.units low)).sum + (target.units low + tolerance.units low) <
      10 ^ Decimal.precision) : Comparable items target tolerance where
  sums := Decimal.exactSums_of_units hmin hmax hitems (by omega)
  target_finite := Decimal.finite_of_onGrid htarget
  distances chosen hchosen := by
    have hsingle : ∀ d ∈ [target], d.onGrid low = true := List.forall_mem_singleton.mpr htarget
    refine Matching.fits_less hmin hmax hitems hsingle ?_ hchosen List.mem_cons_self
    rw [List.map_singleton, List.sum_singleton]
    omega
  tolerance_finite := Decimal.finite_of_onGrid htolerance
  ceiling := by
    obtain ⟨k, hk, hksize⟩ := Decimal.value_onGrid htarget
    obtain ⟨j, hj, hjsize⟩ := Decimal.value_onGrid htolerance
    have hpow : (0 : ℚ) < 10 ^ low := zpow_pos (by norm_num) _
    rw [hk, hj, abs_mul, abs_of_pos hpow, ← Int.cast_abs, ← add_mul, ← Int.cast_add]
    have hle := Int.natAbs_add_le |k| j
    rw [Int.natAbs_abs] at hle
    exact ⟨_, (Decimal.fits_units hmin hmax (by omega)).abs, le_rfl⟩

namespace Sample

def withdrawals : List Item :=
  [("a", .finite true 60 0), ("b", .finite true 50 0), ("c", .finite true 40 0)]

def ninety : Decimal :=
  .finite true 90 0

end Sample

/-- The greatest amount is in no combination, and yet one is found. -/
theorem find_exhaustive_sample :
    (Sample.withdrawals.map Prod.fst).Nodup ∧ Comparable Sample.withdrawals Sample.ninety .zero ∧
      ∃ ids, find Sample.withdrawals Sample.ninety .zero 3 = .ok ids ∧ ids ≠ [] ∧
        ∃ picked : List Item, picked.Subperm Sample.withdrawals ∧ picked.map Prod.fst = ids ∧
          |total (picked.map Prod.snd) - Sample.ninety.value| ≤ Decimal.zero.value := by
  have hnames : (Sample.withdrawals.map Prod.fst).Nodup := by decide
  have hcomparable : Comparable Sample.withdrawals Sample.ninety .zero :=
    comparable_of_units (by decide : Decimal.minExponent ≤ 0) (by decide) (by decide) (by decide) (by decide) (by decide)
  obtain ⟨ids, hfind, hsound, -, hcomplete⟩ := find_exhaustive hnames hcomparable 3
  have hfound : ids ≠ [] := fun hnone => by
    have hapart := (hcomplete (by decide)).mp hnone [("b", .finite true 50 0), ("c", .finite true 40 0)]
      (List.sublist_cons_self _ _).subperm (by decide)
    norm_num [total, Decimal.value, Decimal.signed, Sample.ninety, Decimal.zero, Decimal.ofNat] at hapart
  obtain ⟨-, -, hpicked⟩ := hsound hfound
  exact ⟨hnames, hcomparable, ids, hfind, hfound, hpicked⟩

end GoalReconciliation.Combination

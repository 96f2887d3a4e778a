import GoalReconciliation.Matching.Passes
import GoalReconciliation.Proofs.Matching.Combination

/-!
# Runs whose amounts are exact

* `ExactAmounts` : the amounts of a run, all of whose sums fit the working precision;
* `ExactAmounts.records_exact`, `ExactAmounts.groups_exact` : what a split then searches is exact;
* `exactAmounts_of_units` : amounts in whole units are such, as long as their sizes add up to at most 28 digits.
-/

namespace GoalReconciliation.Matching

set_option autoImplicit false

open Decimal (ExactSums Fits total)

/-- Amounts that a run adds up and compares without rounding: they are finite, and the sums of one side fit, also with
an amount of the other side taken off. -/
structure ExactAmounts (records : List BankRecord) (groups : List Group) : Prop where
  bank_sums : ExactSums (records.map BankRecord.amount)
  group_sums : ExactSums (groups.map Group.amount)
  bank_less : ∀ chosen : List Decimal, chosen.Sublist (records.map BankRecord.amount) → ∀ g ∈ groups,
    Fits (total chosen - g.amount.value)
  groups_less : ∀ chosen : List Decimal, chosen.Sublist (groups.map Group.amount) → ∀ r ∈ records,
    Fits (total chosen - r.amount.value)

section Exactness

variable {records : List BankRecord} {groups : List Group}

theorem ExactAmounts.records_exact (h : ExactAmounts records groups) {candidates : List BankRecord}
    (hof : candidates.Sublist records) {g : Group} (hg : g ∈ groups) :
    Combination.Exact (candidates.map fun r => (r.id, r.amount)) g.amount where
  sums := by
    rw [List.map_map]
    exact h.bank_sums.sublist (hof.map _)
  target_finite := h.group_sums.finite _ (List.mem_map_of_mem hg)
  distances := by
    intro chosen hchosen
    rw [List.map_map] at hchosen
    exact h.bank_less chosen (hchosen.trans (hof.map _)) g hg

theorem ExactAmounts.groups_exact (h : ExactAmounts records groups) {candidates : List Group}
    (hof : candidates.Sublist groups) {r : BankRecord} (hr : r ∈ records) :
    Combination.Exact (candidates.map fun g => (g.key, g.amount)) r.amount where
  sums := by
    rw [List.map_map]
    exact h.group_sums.sublist (hof.map _)
  target_finite := h.bank_sums.finite _ (List.mem_map_of_mem hr)
  distances := by
    intro chosen hchosen
    rw [List.map_map] at hchosen
    exact h.groups_less chosen (hchosen.trans (hof.map _)) r hr

theorem fits_less {low : Int} (hmin : Decimal.minExponent ≤ low) (hmax : low ≤ Decimal.maxExponent)
    {amounts others : List Decimal} (hamounts : ∀ d ∈ amounts, d.onGrid low = true)
    (hothers : ∀ d ∈ others, d.onGrid low = true)
    (hsize : (amounts.map (Decimal.units low)).sum + (others.map (Decimal.units low)).sum < 10 ^ Decimal.precision)
    {chosen : List Decimal} (hchosen : chosen.Sublist amounts) {d : Decimal} (hd : d ∈ others) :
    Fits (total chosen - d.value) := by
  obtain ⟨k, htotal, hk⟩ := Decimal.total_onGrid fun d hd => hamounts d (hchosen.subset hd)
  obtain ⟨j, hvalue, hj⟩ := Decimal.value_onGrid (hothers d hd)
  have hk := hk.trans (Decimal.units_sublist low hchosen)
  have hsingle := Decimal.units_sublist low (List.singleton_sublist.mpr hd)
  rw [List.map_singleton, List.sum_singleton] at hsingle
  rw [htotal, hvalue, ← sub_mul, ← Int.cast_sub]
  exact Decimal.fits_units hmin hmax (by omega)

/-- Amounts in whole units, those of both sides together of at most 28 digits, are exact. -/
theorem exactAmounts_of_units {low : Int} (hmin : Decimal.minExponent ≤ low) (hmax : low ≤ Decimal.maxExponent)
    (hrecords : ∀ d ∈ records.map BankRecord.amount, d.onGrid low = true)
    (hgroups : ∀ d ∈ groups.map Group.amount, d.onGrid low = true)
    (hsize : ((records.map BankRecord.amount).map (Decimal.units low)).sum +
      ((groups.map Group.amount).map (Decimal.units low)).sum < 10 ^ Decimal.precision) :
    ExactAmounts records groups where
  bank_sums := Decimal.exactSums_of_units hmin hmax hrecords (by omega)
  group_sums := Decimal.exactSums_of_units hmin hmax hgroups (by omega)
  bank_less _ hchosen _ hg := fits_less hmin hmax hrecords hgroups hsize hchosen (List.mem_map_of_mem hg)
  groups_less _ hchosen _ hr :=
    fits_less hmin hmax hgroups hrecords (by omega) hchosen (List.mem_map_of_mem hr)

end Exactness

end GoalReconciliation.Matching

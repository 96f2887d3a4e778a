import GoalReconciliation.Json.Basic

/-!
# Counts of a run

* `RunCounts` : what a run found, counted by status, by severity and by match type.
-/

namespace GoalReconciliation

set_option autoImplicit false

/-- Named counts, in the order of first counting. -/
abbrev Counts := List (String × Nat)

/-- The counts as a value. -/
def Counts.toJson (counts : Counts) : Json :=
  .object (counts.map fun (name, n) => (name, Json.ofNat n))

/-- The counts of one run. -/
structure RunCounts where
  matched : Nat
  unmatchedBank : Nat
  unmatchedGroups : Nat
  autoApproved : Nat
  manualReview : Nat
  byStatus : Counts
  bySeverity : Counts
  byMatchType : Counts
  errors : Nat
deriving DecidableEq

/-- The counts under their names. -/
def RunCounts.fields (c : RunCounts) : List (String × Json) :=
  [("matched", Json.ofNat c.matched), ("unmatched_bank", Json.ofNat c.unmatchedBank),
    ("unmatched_groups", Json.ofNat c.unmatchedGroups), ("auto_approved", Json.ofNat c.autoApproved),
    ("manual_review", Json.ofNat c.manualReview), ("by_status", c.byStatus.toJson),
    ("by_severity", c.bySeverity.toJson), ("by_match_type", c.byMatchType.toJson), ("errors", Json.ofNat c.errors)]

end GoalReconciliation

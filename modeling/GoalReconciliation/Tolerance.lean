import GoalReconciliation.Decimal.Arithmetic
import GoalReconciliation.Failure
import GoalReconciliation.Natural

/-!
# Tolerances

* `Tolerance` : when two amounts are the same, how grave a difference is, and how far searches go.
* `Tolerance.check` : what makes the settings usable.
* `Tolerance.allowance` : the allowed difference around an amount: a share of it, and never less than a floor.
* `Tolerance.amountsMatch` : the second amount is the reference, whose allowance counts.
* `Tolerance.severityOf` : the severity of a difference, by three ascending thresholds.
* `Tolerance.toJson` : all settings under their names.
* `Severity.score` : a hundred less a penalty for each variance, and never below zero.
-/

namespace GoalReconciliation

set_option autoImplicit false

/-- The settings of a run. -/
structure Tolerance where
  share : Decimal := .finite false 1 (-2)
  floor : Decimal := .finite false 1000 0
  dateWindow : Int := 30
  instrumentShare : Decimal := .finite false 1 (-2)
  lowLimit : Decimal := .finite false 1000 0
  mediumLimit : Decimal := .finite false 10000 0
  highLimit : Decimal := .finite false 50000 0
  sweepWindow : Int := 30
  timingWindow : Int := 3
  splitLimit : Int := 10
  manualShare : Decimal := .finite false 1 (-2)
  manualFloor : Decimal := .finite false 1 0
  reversalNet : Decimal := .finite false 1 (-2)
  excludedChannels : List String := ["Transfer_Reversal"]
deriving DecidableEq

namespace Tolerance

/-- The amount tolerances are not negative, nor is the date window, the severity limits ascend, and a split has at
least two parts. The first rule that is broken counts. -/
def check (t : Tolerance) : Except Failure Unit := do
  if ← t.share.lt Decimal.zero then throw (.misuse .negativeTolerance)
  if ← t.floor.lt Decimal.zero then throw (.misuse .negativeTolerance)
  if t.dateWindow < 0 then throw (.misuse .negativeDateWindow)
  if !(← t.lowLimit.le t.mediumLimit) then throw (.misuse .unorderedSeverities)
  if !(← t.mediumLimit.le t.highLimit) then throw (.misuse .unorderedSeverities)
  if t.splitLimit < 2 then throw (.misuse .smallSplitLimit)

/-- A share of an amount's size, or the floor if that is greater. -/
def allowanceOf (share floor amount : Decimal) : Except Decimal.Fault Decimal := do
  (← (← amount.abs).mul share).greater floor

/-- The allowed difference around an amount. -/
def allowance (t : Tolerance) (amount : Decimal) : Except Decimal.Fault Decimal :=
  allowanceOf t.share t.floor amount

/-- The allowed difference around the bank total of an operator's match. -/
def manualAllowance (t : Tolerance) (amount : Decimal) : Except Decimal.Fault Decimal :=
  allowanceOf t.manualShare t.manualFloor amount

/-- The distance of two amounts. -/
def distance (a b : Decimal) : Except Decimal.Fault Decimal := do
  (← a.sub b).abs

/-- The amount lies within the allowance of the reference. -/
def amountsMatch (t : Tolerance) (amount reference : Decimal) : Except Decimal.Fault Bool := do
  (← distance amount reference).le (← t.allowance reference)

/-- The severity of a difference. -/
def severityOf (t : Tolerance) (difference : Decimal) : Except Decimal.Fault Severity := do
  let size ← difference.abs
  if ← size.lt t.lowLimit then return .low
  if ← size.lt t.mediumLimit then return .medium
  if ← size.lt t.highLimit then return .high
  return .critical

/-- All settings under their names. -/
def toJson (t : Tolerance) : Json :=
  .object
    [("amount_percentage", .text t.share.toText), ("amount_fixed_floor", .text t.floor.toText),
      ("date_window_days", .integer t.dateWindow),
      ("instrument_distribution_percentage", .text t.instrumentShare.toText),
      ("severity_low", .text t.lowLimit.toText), ("severity_medium", .text t.mediumLimit.toText),
      ("severity_high", .text t.highLimit.toText), ("sweep_window_days", .integer t.sweepWindow),
      ("timing_window_days", .integer t.timingWindow), ("split_search_limit", .integer t.splitLimit),
      ("manual_match_percentage", .text t.manualShare.toText), ("manual_match_floor", .text t.manualFloor.toText),
      ("reversal_net_tolerance", .text t.reversalNet.toText), ("excluded_channels", Json.texts t.excludedChannels)]

end Tolerance

namespace Severity

/-- The points that a variance costs. -/
def penalty : Severity → Nat
  | low => 5
  | medium => 15
  | high => 30
  | critical => 50

/-- A hundred points less the penalties. -/
def score (severities : List Severity) : Nat :=
  100 - Natural.total (severities.map penalty)

/-- A severity that an operator has to look at. -/
def isBlocking : Severity → Bool
  | high => true
  | critical => true
  | _ => false

end Severity

end GoalReconciliation

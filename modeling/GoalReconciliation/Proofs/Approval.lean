import GoalReconciliation.Proofs.Amounts
import GoalReconciliation.Proofs.Decimal.Cents
import GoalReconciliation.Proofs.Tolerance
import GoalReconciliation.Variance
import Mathlib.Data.Fintype.Basic

/-!
# What is approved

The status that the variances of a match lead to, and the one that exact numbers do.

* `Comparison` : the two sides of a match in exact numbers; `Comparison.verdict` : their status;
* `Variance.Reports` : variances that say whether all is in order, and whether what is not can be approved;
  `Reports.append`, `mapM_reports`, `Reports.decide_eq` : variances together, and the status that they lead to;
* `Tolerance.Regular` : shares with six places and finite limits; `ofTotals_reports`, `ofDates_reports`,
  `ofInstrument_reports` : what each check reports by them;
* `SideInCents` : one side of a match in cents;
* `classify_verdict` : **the variances of two sides in cents lead to the status of the exact numbers**.
-/

namespace GoalReconciliation

set_option autoImplicit false

open Decimal (Cents ExactSums InCents Share total)
open Fallible (bind_eq_ok)

instance : Fintype Instrument where
  elems := ⟨Instrument.all, by decide⟩
  complete := Instrument.mem_all

/-! ## Exact numbers -/

/-- The two sides of a match, in exact numbers. -/
structure Comparison where
  bank : ℚ
  ledger : ℚ
  days : ℕ
  bankOf : Instrument → ℚ
  ledgerOf : Instrument → ℚ

namespace Comparison

def earliestDay (dates : List Date) : ℤ :=
  ((dates.map Date.ordinal).min?.getD 0 : ℕ)

def amountsOf (all : List Amounts) (code : Instrument) : List Decimal :=
  Amounts.under (.known code) all.flatten

def of (records : List BankRecord) (groups : List Group) : Comparison where
  bank := total (records.map BankRecord.amount)
  ledger := total (groups.map Group.amount)
  days := (earliestDay (records.map BankRecord.date) - earliestDay (groups.map Group.date)).natAbs
  bankOf code := total (amountsOf (records.map BankRecord.instruments) code)
  ledgerOf code := total (amountsOf (groups.map Group.instruments) code)

section Verdict

variable (s : Comparison) (t : Tolerance)

/-- The totals are no further apart than allowed. -/
def TotalsAgree : Prop :=
  |s.bank - s.ledger| ≤ max (t.share.value * |s.ledger|) t.floor.value

def gap (code : Instrument) : ℚ :=
  |s.bankOf code - s.ledgerOf code|

def limit (code : Instrument) : ℚ :=
  t.instrumentShare.value * |s.ledgerOf code|

/-- The amounts of an instrument are no further apart than allowed; without one of the ledger they always are so. -/
def Even (code : Instrument) : Prop :=
  s.ledgerOf code ≠ 0 → s.gap code ≤ s.limit t code

/-- The amounts of an instrument are no further apart than allowed, or their distance is low and at most twice that. -/
def Excusable (code : Instrument) : Prop :=
  s.ledgerOf code ≠ 0 →
    s.gap code ≤ s.limit t code ∨ s.gap code < t.lowLimit.value ∧ s.gap code ≤ 2 * s.limit t code

def InOrder : Prop :=
  s.TotalsAgree t ∧ s.days = 0 ∧ ∀ code, s.Even t code

/-- The totals agree, the days are in reach of each other, and what differs in an instrument can be excused. -/
def Approvable : Prop :=
  s.TotalsAgree t ∧ (s.days : ℤ) ≤ t.dateWindow ∧ ∀ code, s.Excusable t code

instance : Decidable (s.TotalsAgree t) :=
  inferInstanceAs (Decidable (_ ≤ _))

instance (code : Instrument) : Decidable (s.Even t code) :=
  inferInstanceAs (Decidable (_ → _))

instance (code : Instrument) : Decidable (s.Excusable t code) :=
  inferInstanceAs (Decidable (_ → _))

instance : Decidable (s.InOrder t) :=
  inferInstanceAs (Decidable (_ ∧ _ ∧ _))

instance : Decidable (s.Approvable t) :=
  inferInstanceAs (Decidable (_ ∧ _ ∧ _))

/-- The status of the two sides. -/
def verdict : StatusDecision :=
  if s.InOrder t then ⟨.matched, true⟩
  else if s.Approvable t then ⟨.autoApproved, true⟩
  else ⟨.manualReview, false⟩

end Verdict

end Comparison

/-! ## What variances say -/

namespace Variance

/-- Variances that say whether all is in order, and whether what is not can be approved. -/
structure Reports (variances : List Variance) (inOrder approvable : Prop) : Prop where
  empty : variances = [] ↔ inOrder
  approved : (∀ v ∈ variances, v.autoApproved = true) ↔ approvable
  harmless : ∀ v ∈ variances, v.autoApproved = true → v.severity.isBlocking = false

section Reports

variable {vs ws : List Variance} {p q p' q' : Prop}

theorem reports_nil (hp : p) (hq : q) : Reports [] p q where
  empty := iff_of_true rfl hp
  approved := iff_of_true (fun _ hv => (nomatch hv)) hq
  harmless _ hv := (nomatch hv)

theorem reports_singleton {v : Variance} (hp : ¬p) (hq : v.autoApproved = true ↔ q)
    (hharmless : v.autoApproved = true → v.severity.isBlocking = false) : Reports [v] p q where
  empty := iff_of_false (List.cons_ne_nil _ _) hp
  approved := by rw [List.forall_mem_singleton, hq]
  harmless := List.forall_mem_singleton.mpr hharmless

theorem Reports.append (h : Reports vs p q) (h' : Reports ws p' q') : Reports (vs ++ ws) (p ∧ p') (q ∧ q') where
  empty := by rw [List.append_eq_nil_iff, h.empty, h'.empty]
  approved := by rw [List.forall_mem_append, h.approved, h'.approved]
  harmless := List.forall_mem_append.mpr ⟨h.harmless, h'.harmless⟩

theorem mapM_reports {f : Instrument → Except Decimal.Fault (List Variance)} {P Q : Instrument → Prop}
    (h : ∀ code, ∃ vs, f code = .ok vs ∧ Reports vs (P code) (Q code)) (codes : List Instrument) :
    ∃ found, codes.mapM f = .ok found ∧ Reports found.flatten (∀ code ∈ codes, P code) (∀ code ∈ codes, Q code) := by
  induction codes with
  | nil => exact ⟨[], rfl, reports_nil (by simp) (by simp)⟩
  | cons code codes ih =>
      obtain ⟨vs, hvs, hreports⟩ := h code
      obtain ⟨found, hfound, hrest⟩ := ih
      refine ⟨vs :: found, ?_, ?_⟩
      · rw [List.mapM_cons, hvs, hfound]
        rfl
      · rw [List.flatten_cons, List.forall_mem_cons, List.forall_mem_cons]
        exact hreports.append hrest

theorem Reports.decide_eq [Decidable p] [Decidable q] (h : Reports vs p q) :
    Variance.decide vs =
      if p then ⟨.matched, true⟩ else if q then ⟨.autoApproved, true⟩ else ⟨.manualReview, false⟩ := by
  have hany : (vs.map fun v => (v.severity, v.autoApproved)).any (·.1.isBlocking) = vs.any (·.severity.isBlocking) := by
    rw [List.any_map]
    rfl
  have hall : (vs.map fun v => (v.severity, v.autoApproved)).all (·.2) = vs.all Variance.autoApproved := by
    rw [List.all_map]
    rfl
  unfold Variance.decide StatusDecision.resolve
  rw [List.isEmpty_map, hany, hall]
  by_cases hp : p
  · rw [if_pos hp, h.empty.mpr hp]
    rfl
  rw [if_neg hp, if_neg (fun hempty => hp (h.empty.mp (List.isEmpty_iff.mp hempty)))]
  by_cases hq : q
  · have happroved := h.approved.mpr hq
    have hnone : ¬vs.any (·.severity.isBlocking) = true := by
      rw [List.any_eq_true]
      rintro ⟨v, hv, hblocking⟩
      rw [h.harmless v hv (happroved v hv)] at hblocking
      cases hblocking
    rw [if_neg hnone, if_pos (List.all_eq_true.mpr happroved), if_pos hq]
  · have hsome : ¬vs.all Variance.autoApproved = true := fun hall => hq (h.approved.mp (List.all_eq_true.mp hall))
    rw [if_neg hsome, if_neg hq, ite_self]

end Reports

end Variance

/-- Shares of at most six places, finite limits, and a window of days. -/
structure Tolerance.Regular (t : Tolerance) : Prop where
  share : Share t.share
  instrumentShare : Share t.instrumentShare
  floor : t.floor.isFinite = true
  lowLimit : t.lowLimit.isFinite = true
  mediumLimit : t.mediumLimit.isFinite = true
  highLimit : t.highLimit.isFinite = true
  dateWindow : 0 ≤ t.dateWindow

namespace Variance

/-! ## What the checks report -/

section Checks

variable {t : Tolerance} {p q : ℚ}

theorem percentageOf_ok (hp : InCents p) (hq : InCents q) {difference reference : Decimal}
    (hdifference : difference.Worth (p - q)) (hreference : reference.Worth q) :
    ∃ percentage, percentageOf difference reference = .ok percentage := by
  have hequal := Decimal.equal_of_worth hreference Decimal.worth_zero
  by_cases hzero : q = 0
  · rw [decide_eq_true hzero] at hequal
    exact ⟨none, bind_eq_ok.mpr ⟨true, hequal, rfl⟩⟩
  · rw [decide_eq_false hzero] at hequal
    obtain ⟨gap, hgap, hgapWorth⟩ := Decimal.abs_fits hdifference (hp.sub_fits hq)
    obtain ⟨size, hsize, hsizeWorth⟩ := Decimal.abs_fits hreference hq.fits
    obtain ⟨ratio, percentage, hratio, hpercentage, -⟩ := Decimal.ratio_rounded hp hq hzero hgapWorth hsizeWorth
    exact ⟨some percentage, bind_eq_ok.mpr ⟨false, hequal, bind_eq_ok.mpr ⟨gap, hgap, bind_eq_ok.mpr ⟨size, hsize,
      bind_eq_ok.mpr ⟨ratio, hratio, bind_eq_ok.mpr ⟨percentage, hpercentage, rfl⟩⟩⟩⟩⟩⟩

/-- A difference of the totals is reported, and never approved. -/
theorem ofTotals_reports (ht : t.Regular) (hp : InCents p) (hq : InCents q) {bank ledger : Decimal}
    (hbank : bank.Worth p) (hledger : ledger.Worth q) :
    ∃ vs, ofTotals t bank ledger = .ok vs ∧
      Reports vs (|p - q| ≤ max (t.share.value * |q|) t.floor.value)
        (|p - q| ≤ max (t.share.value * |q|) t.floor.value) := by
  obtain ⟨j, hj, hshare⟩ := id ht.share
  have hmatch := Tolerance.amountsMatch_fits hbank hledger hq.fits (Decimal.worth_value hshare.1)
    (Decimal.worth_value ht.floor) (hp.sub_fits hq) (hq.share_fits ht.share)
  rw [mul_comm (|q|)] at hmatch
  by_cases hclose : |p - q| ≤ max (t.share.value * |q|) t.floor.value
  · rw [decide_eq_true hclose] at hmatch
    exact ⟨[], bind_eq_ok.mpr ⟨true, hmatch, rfl⟩, reports_nil hclose hclose⟩
  · rw [decide_eq_false hclose] at hmatch
    obtain ⟨difference, hsub, hdifference⟩ := Decimal.sub_fits hbank hledger (hp.sub_fits hq)
    obtain ⟨severity, hseverity, -⟩ :=
      Tolerance.severityOf_fits hdifference (hp.sub_fits hq) ht.lowLimit ht.mediumLimit ht.highLimit
    obtain ⟨percentage, hpercentage⟩ := percentageOf_ok hp hq hdifference hledger
    refine ⟨_, bind_eq_ok.mpr ⟨false, hmatch, bind_eq_ok.mpr ⟨difference, hsub, bind_eq_ok.mpr ⟨severity, hseverity,
      bind_eq_ok.mpr ⟨percentage, hpercentage, rfl⟩⟩⟩⟩, reports_singleton hclose (iff_of_false (by simp) hclose) ?_⟩
    exact fun happroved => (nomatch happroved)

/-- Different days are reported, and approved within the window. -/
theorem ofDates_reports (hwindow : 0 ≤ t.dateWindow) (bank ledger : Date) :
    Reports (ofDates t bank ledger) (bank.daysApart ledger = 0) ((bank.daysApart ledger : ℤ) ≤ t.dateWindow) := by
  unfold ofDates
  simp only []
  by_cases hsame : bank.daysApart ledger = 0
  · rw [if_pos hsame]
    exact reports_nil hsame (by omega)
  rw [if_neg hsame]
  by_cases hwithin : (bank.daysApart ledger : ℤ) ≤ t.dateWindow
  · rw [if_pos hwithin]
    exact reports_singleton hsame (iff_of_true rfl hwithin) fun _ => rfl
  · rw [if_neg hwithin]
    exact reports_singleton hsame (iff_of_false (by simp) hwithin) fun _ => rfl

/-- An instrument whose ratio exceeds the share is reported; where the difference is low, twice the share decides on its
approval. -/
theorem ofInstrument_beyond {bank ledger : Amounts} {code : Instrument} {gap size ratio difference percentage : Decimal}
    (hgap : Tolerance.distance (bank.amount code) (ledger.amount code) = .ok gap)
    (hequal : (ledger.amount code).equal Decimal.zero = .ok false) (hsize : (ledger.amount code).abs = .ok size)
    (hratio : gap.div size = .ok ratio) (hbeyond : ratio.le t.instrumentShare = .ok false) {severity : Severity}
    (hseverity : t.severityOf gap = .ok severity)
    (hdifference : (bank.amount code).sub (ledger.amount code) = .ok difference)
    (hpercentage : ratio.mul (.ofNat 100) = .ok percentage) {double : Decimal} {twice : Bool}
    (hdouble : t.instrumentShare.mul (.ofNat 2) = .ok double) (htwice : ratio.le double = .ok twice) :
    ∃ v, ofInstrument t bank ledger code = .ok [v] ∧ v.severity = severity ∧
      (v.autoApproved = true ↔ severity = .low ∧ twice = true) := by
  unfold ofInstrument
  simp only [hgap, hequal, hsize, hratio, hbeyond, hseverity, hdifference, hpercentage, hdouble, htwice, bind,
    Except.bind, Bool.false_eq_true, if_false]
  by_cases hlow : severity = .low
  · subst hlow
    exact ⟨_, rfl, rfl, by simp⟩
  · rw [if_neg hlow]
    exact ⟨_, rfl, rfl, by simp [hlow]⟩

/-- An instrument that differs by more than its share is reported, and approved where that is excused. -/
theorem ofInstrument_reports (ht : t.Regular) (hp : InCents p) (hq : InCents q) {bank ledger : Amounts}
    {code : Instrument} (hbank : (bank.amount code).Worth p) (hledger : (ledger.amount code).Worth q) :
    ∃ vs, ofInstrument t bank ledger code = .ok vs ∧
      Reports vs (q ≠ 0 → |p - q| ≤ t.instrumentShare.value * |q|)
        (q ≠ 0 → |p - q| ≤ t.instrumentShare.value * |q| ∨
          |p - q| < t.lowLimit.value ∧ |p - q| ≤ 2 * (t.instrumentShare.value * |q|)) := by
  obtain ⟨j, hj, hshare⟩ := ht.instrumentShare
  obtain ⟨gap, hgap, hgapWorth⟩ := Tolerance.distance_fits hbank hledger (hp.sub_fits hq)
  have hequal := Decimal.equal_of_worth hledger Decimal.worth_zero
  by_cases hzero : q = 0
  · have hwithin : Decimal.zero.le t.instrumentShare = .ok true := by
      rw [Decimal.le_of_worth Decimal.worth_zero hshare, decide_eq_true (by positivity)]
    rw [decide_eq_true hzero] at hequal
    refine ⟨[], ?_, reports_nil (fun hne => absurd hzero hne) fun hne => absurd hzero hne⟩
    exact bind_eq_ok.mpr ⟨gap, hgap, bind_eq_ok.mpr ⟨true, hequal, bind_eq_ok.mpr ⟨Decimal.zero, rfl,
      bind_eq_ok.mpr ⟨true, hwithin, rfl⟩⟩⟩⟩
  rw [decide_eq_false hzero] at hequal
  obtain ⟨size, hsize, hsizeWorth⟩ := Decimal.abs_fits hledger hq.fits
  obtain ⟨ratio, percentage, hratio, hpercentage, hfinite, hrounded⟩ :=
    Decimal.ratio_rounded hp hq hzero hgapWorth hsizeWorth
  have hwithin := Decimal.ratio_le hp hq hzero (by omega) hshare hfinite hrounded
  by_cases hshared : |p - q| ≤ t.instrumentShare.value * |q|
  · rw [decide_eq_true hshared] at hwithin
    refine ⟨[], ?_, reports_nil (fun _ => hshared) fun _ => .inl hshared⟩
    exact bind_eq_ok.mpr ⟨gap, hgap, bind_eq_ok.mpr ⟨false, hequal, bind_eq_ok.mpr ⟨size, hsize,
      bind_eq_ok.mpr ⟨ratio, hratio, bind_eq_ok.mpr ⟨true, hwithin, rfl⟩⟩⟩⟩⟩
  rw [decide_eq_false hshared] at hwithin
  obtain ⟨difference, hdifference, -⟩ := Decimal.sub_fits hbank hledger (hp.sub_fits hq)
  obtain ⟨severity, hseverity, hlow⟩ :=
    Tolerance.severityOf_fits hgapWorth (hp.sub_fits hq).abs ht.lowLimit ht.mediumLimit ht.highLimit
  obtain ⟨double, hdouble, hdoubleWorth⟩ := Decimal.double_share hshare hj
  have htwice := Decimal.ratio_le hp hq hzero (by omega) hdoubleWorth hfinite hrounded
  obtain ⟨v, hv, rfl, happroved⟩ := ofInstrument_beyond hgap hequal hsize hratio hwithin hseverity hdifference
    hpercentage hdouble htwice
  have hexcused : v.autoApproved = true ↔ (q ≠ 0 → |p - q| ≤ t.instrumentShare.value * |q| ∨
      |p - q| < t.lowLimit.value ∧ |p - q| ≤ 2 * (t.instrumentShare.value * |q|)) := by
    have hlimit : double.value * |q| = 2 * (t.instrumentShare.value * |q|) := by
      rw [hdoubleWorth.2, hshare.2]
      push_cast
      ring
    rw [happroved, hlow, abs_abs, decide_eq_true_iff, hlimit, forall_prop_of_true hzero, or_iff_right hshared]
  refine ⟨[v], hv, reports_singleton (fun h => hshared (h hzero)) hexcused fun h => ?_⟩
  rw [(happroved.mp h).1]
  rfl

end Checks

end Variance

/-! ## The status -/

/-- One side of a match in cents: its amounts, and the amounts under each code. -/
structure SideInCents (amounts : List Decimal) (instruments : List Amounts) : Prop where
  amounts : Cents amounts
  under : ∀ code, Cents (Amounts.under code instruments.flatten)

theorem sideInCents_of_all {amounts : List Decimal} {instruments : List Amounts} (h : Cents amounts)
    (hall : Cents (instruments.flatten.map Prod.snd)) : SideInCents amounts instruments where
  amounts := h
  under _ := hall.sublist (List.filter_sublist.map _)

theorem SideInCents.total_ok {amounts : List Decimal} {instruments : List Amounts} (h : SideInCents amounts instruments) :
    ∃ totals, Amounts.total instruments = .ok totals ∧
      ∀ code, (totals.amount code).Worth (total (Comparison.amountsOf instruments code)) := by
  obtain ⟨totals, htotals, hsums⟩ | ⟨fault, code, -, hfault⟩ := Amounts.total_cases instruments
  · refine ⟨totals, htotals, fun code => ?_⟩
    obtain ⟨d, hd, hworth⟩ := Decimal.sum_exact (h.under (.known code)).exactSums
    obtain rfl := Except.ok.inj ((hsums (.known code)).symm.trans hd)
    exact hworth
  · obtain ⟨d, hd, -⟩ := Decimal.sum_exact (h.under code).exactSums
    rw [hd] at hfault
    cases hfault

theorem Comparison.earliest?_ordinal {dates : List Date} (h : dates ≠ []) :
    ∃ d, Date.earliest? dates = some d ∧ (d.ordinal : ℤ) = earliestDay dates := by
  obtain ⟨first, rest, rfl⟩ := List.exists_cons_of_ne_nil h
  refine ⟨rest.foldl Date.earlier first, rfl, ?_⟩
  have hfold : (rest.foldl Date.earlier first).ordinal = (rest.map Date.ordinal).foldl min first.ordinal := by
    clear h
    induction rest generalizing first with
    | nil => rfl
    | cons next rest ih =>
        have hearlier : (first.earlier next).ordinal = min first.ordinal next.ordinal := by
          rw [Date.earlier, apply_ite Date.ordinal]
          rfl
        rw [List.foldl_cons, ih, hearlier, List.map_cons, List.foldl_cons]
  rw [hfold]
  rfl

/-- **The variances of two sides in cents lead to the status of the exact numbers.** -/
theorem classify_verdict {t : Tolerance} (ht : t.Regular) {records : List BankRecord} {groups : List Group}
    (hrecords : records ≠ []) (hgroups : groups ≠ [])
    (hbank : SideInCents (records.map BankRecord.amount) (records.map BankRecord.instruments))
    (hledger : SideInCents (groups.map Group.amount) (groups.map Group.instruments)) :
    ∃ variances, Variance.classify t records groups = .ok variances ∧
      Variance.decide variances = (Comparison.of records groups).verdict t := by
  obtain ⟨bankDate, hbankDate, hbankDay⟩ := Comparison.earliest?_ordinal (mt List.map_eq_nil_iff.mp hrecords)
  obtain ⟨ledgerDate, hledgerDate, hledgerDay⟩ := Comparison.earliest?_ordinal (mt List.map_eq_nil_iff.mp hgroups)
  obtain ⟨bankTotal, hbankTotal, hbankWorth⟩ := Decimal.sum_exact hbank.amounts.exactSums
  obtain ⟨ledgerTotal, hledgerTotal, hledgerWorth⟩ := Decimal.sum_exact hledger.amounts.exactSums
  obtain ⟨bankAmounts, hbankAmounts, hbankCodes⟩ := hbank.total_ok
  obtain ⟨ledgerAmounts, hledgerAmounts, hledgerCodes⟩ := hledger.total_ok
  obtain ⟨totals, htotals, hofTotals⟩ := Variance.ofTotals_reports ht hbank.amounts.total_inCents
    hledger.amounts.total_inCents hbankWorth hledgerWorth
  obtain ⟨found, hfound, hofInstruments⟩ := Variance.mapM_reports (fun code => Variance.ofInstrument_reports ht
    (hbank.under (.known code)).total_inCents (hledger.under (.known code)).total_inCents (hbankCodes code)
    (hledgerCodes code)) Instrument.all
  have hdays : bankDate.daysApart ledgerDate = (Comparison.of records groups).days := by
    change _ = (Comparison.earliestDay _ - Comparison.earliestDay _).natAbs
    rw [Date.daysApart, ← hbankDay, ← hledgerDay]
    omega
  have hofDates := Variance.ofDates_reports ht.dateWindow bankDate ledgerDate
  rw [hdays] at hofDates
  have hall : ∀ {P : Instrument → Prop}, (∀ code ∈ Instrument.all, P code) ↔ ∀ code, P code := fun {P} =>
    ⟨fun h code => h code code.mem_all, fun h code _ => h code⟩
  have hreports := (hofTotals.append hofDates).append hofInstruments
  rw [hall, hall, and_assoc, and_assoc] at hreports
  refine ⟨totals ++ Variance.ofDates t bankDate ledgerDate ++ found.flatten, ?_, ?_⟩
  · rw [Variance.classify, hbankDate, hledgerDate]
    exact bind_eq_ok.mpr ⟨bankTotal, hbankTotal, bind_eq_ok.mpr ⟨ledgerTotal, hledgerTotal,
      bind_eq_ok.mpr ⟨totals, htotals, bind_eq_ok.mpr ⟨bankAmounts, hbankAmounts,
        bind_eq_ok.mpr ⟨ledgerAmounts, hledgerAmounts, bind_eq_ok.mpr ⟨found, hfound, rfl⟩⟩⟩⟩⟩⟩
  · have hstatus : Variance.Reports _ ((Comparison.of records groups).InOrder t)
        ((Comparison.of records groups).Approvable t) := hreports
    exact hstatus.decide_eq

theorem Tolerance.regular_default : ({} : Tolerance).Regular where
  share := ⟨10000, by norm_num, rfl, by norm_num [Decimal.value, Decimal.signed]⟩
  instrumentShare := ⟨10000, by norm_num, rfl, by norm_num [Decimal.value, Decimal.signed]⟩
  floor := rfl
  lowLimit := rfl
  mediumLimit := rfl
  highLimit := rfl
  dateWindow := by decide

namespace Sample

def largerRecord : BankRecord :=
  { id := "bank", goalId := "goal", accountId := "account", sourceId := "source", givenType := .word .deposit,
    date := ⟨2024, 1, 31, by decide⟩, amount := .finite false 5100000 (-2),
    givenInstruments := [(.word .bond, .finite false 505000 (-2)), (.word .moneyMarket, .finite false 4590000 (-2)),
      (.word .regionalEquity, .finite false 5000 (-2))] }

/-- A group of 50000, 30 days before the record. The totals differ by the floor, the bonds by a hundredth, the money
market by two hundredths, and there is none of the third instrument. -/
def smallerGroup : Group :=
  { key := "group", goalId := "goal", sourceId := "source", transactionType := .known .deposit,
    date := ⟨2024, 1, 1, by decide⟩, amount := .finite false 5000000 (-2),
    instruments := [(.known .bond, .finite false 500000 (-2)), (.known .moneyMarket, .finite false 4500000 (-2))],
    postingIds := ["posting"] }

end Sample

theorem classify_verdict_sample :
    ∃ variances, Variance.classify {} [Sample.largerRecord] [Sample.smallerGroup] = .ok variances ∧
      Variance.decide variances = ⟨.autoApproved, true⟩ := by
  have hverdict : (Comparison.of [Sample.largerRecord] [Sample.smallerGroup]).verdict {} = ⟨.autoApproved, true⟩ := by
    decide +kernel
  rw [← hverdict]
  exact classify_verdict Tolerance.regular_default (by simp) (by simp)
    (sideInCents_of_all (Decimal.cents_of_units (by decide) (by decide))
      (Decimal.cents_of_units (by decide) (by decide)))
    (sideInCents_of_all (Decimal.cents_of_units (by decide) (by decide))
      (Decimal.cents_of_units (by decide) (by decide)))

end GoalReconciliation

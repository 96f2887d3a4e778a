import GoalReconciliation.Proofs.Decimal.Alike
import GoalReconciliation.Proofs.Lookup
import GoalReconciliation.Proofs.Matching.Justification
import GoalReconciliation.Run.Goal

/-!
# Totals, as the matcher and the classifier see them

The matcher compares amounts as they were stored, a search compares their signed copies, and the classifier compares
sums. They see the same as long as no amount is rounded when it is first added to zero.

* `allowance_mirror`, `near_mirror`, `amountsMatch_mirror` : how two amounts compare depends on their values, and not on
  a common sign;
* `Combination.find_picked_near` : what a search has found is near its target, added up as it was stored;
* `Checked.totals` : what a pass has checked tells how the totals of its match compare;
* `Variance.classify_totals` : a total is reported just where the totals do not match;
* `TotalsAgree`, `ofRecords_totals` : **the variances of a match and its flag agree on the totals**;
* `TotalsDiffer`, `ofRecords_totals_apart` : where they do not.
-/

namespace GoalReconciliation

set_option autoImplicit false

open Decimal (Mirror Mirrors Settled)
open Fallible (Yields bind_eq_ok pure_eq_ok)
open Matching

/-! ## Comparisons look at values -/

namespace Matching

section Mirrors

variable {turn : Bool} {a a' b b' : Decimal}

theorem allowance_mirror (t : Tolerance) (h : Mirror turn a a') : Mirrors false (t.allowance a) (t.allowance a') :=
  (Decimal.abs_mirror h).bind fun _ _ hsize =>
    (Decimal.mul_mirror hsize t.share).bind fun _ _ hshare => Decimal.greater_mirror hshare t.floor

theorem near_mirror (ha : Mirror turn a a') (hb : Mirror turn b b') (bound : Decimal) :
    Combination.near a b bound = Combination.near a' b' bound :=
  (Decimal.sub_mirror ha hb).bind_eq fun _ _ hdistance =>
    (Decimal.abs_mirror hdistance).bind_eq fun _ _ hsize => Decimal.le_mirror hsize (Mirror.refl bound)

theorem amountsMatch_eq_near {t : Tolerance} {bound : Decimal} (h : t.allowance b = .ok bound) :
    t.amountsMatch a b = Combination.near a b bound := by
  simp only [Tolerance.amountsMatch, Tolerance.distance, Combination.near, h, bind_assoc]
  rfl

/-- Two amounts match, or not, as others of the same value do, and as their opposites do. -/
theorem amountsMatch_mirror (t : Tolerance) (ha : Mirror turn a a') (hb : Mirror turn b b') :
    t.amountsMatch a b = t.amountsMatch a' b' := by
  have hdistance : Mirrors false (Tolerance.distance a b) (Tolerance.distance a' b') :=
    (Decimal.sub_mirror ha hb).bind fun _ _ h => Decimal.abs_mirror h
  exact hdistance.bind_eq fun _ _ hsize =>
    (allowance_mirror t hb).bind_eq fun _ _ hbound => Decimal.le_mirror hsize hbound

theorem sum_singleton (ha : a.Settled) (h : Decimal.sum [a] = .ok b) : Mirror false a b := by
  rw [Decimal.sum, List.foldlM_cons, bind_eq_ok] at h
  obtain ⟨sum, hsum, h⟩ := h
  obtain rfl := pure_eq_ok.mp h
  exact Decimal.zero_add_mirror ha hsum

end Mirrors

end Matching

/-! ## What a search has found -/

namespace Combination

open Related (forall₂_subperm map_eq)

/-- What is picked by the names that were found is near the target, added up as it was stored. -/
theorem find_picked_near {α : Type} {name : α → String} {amount : α → Decimal} {items picked : List α}
    {target bound sum : Decimal} {limit : Int} (hitems : (items.map name).Nodup)
    (hsettled : ∀ a ∈ items, (amount a).Settled) (htarget : target.Settled) (hof : picked ⊆ items)
    (hmany : 2 ≤ picked.length)
    (h : find (items.map fun a => (name a, amount a)) target bound limit = .ok (picked.map name))
    (hsum : Decimal.sum (picked.map amount) = .ok sum) : near sum target bound = .ok true := by
  have hids : picked.map name ≠ [] := by
    rw [ne_eq, List.map_eq_nil_iff]
    rintro rfl
    simp at hmany
  have hlong : 2 ≤ (items.map fun a => (name a, amount a)).length := by
    have hfew := (List.subperm_of_subset (find_picked hitems h hids).2.1.of_map hof).length_le
    rw [List.length_map]
    omega
  obtain ⟨sign, aim, turned, ordered, hsign, -, haim, hturned, hordered, hanswer⟩ := find_parts hlong h
  obtain ⟨turn, rfl⟩ : ∃ turn : Bool, sign = if turn then -1 else 1 := by
    rcases hsign with rfl | rfl
    · exact ⟨false, rfl⟩
    · exact ⟨true, rfl⟩
  obtain ⟨found, hsub, hnames, -, signed, hsigned, hnear⟩ := answered_found hanswer hids
  have hmirror : List.Forall₂ (fun x y : Item => y.1 = x.1 ∧ Mirror turn x.2 y.2)
      (items.map fun a => (name a, amount a)) turned := by
    refine ((List.forall₂_and_left _ turned).mpr ⟨fun x hx => hx, hturned⟩).imp fun x y hxy => ?_
    obtain ⟨hx, hname, hmul⟩ := hxy
    obtain ⟨a, ha, rfl⟩ := List.mem_map.mp hx
    exact ⟨hname, Decimal.mul_sign_mirror (hsettled a ha) hmul⟩
  obtain ⟨chosen, hchosen, hfound⟩ :=
    forall₂_subperm hmirror (hsub.subperm.trans (descending_perm hordered).subperm)
  -- Items are told by their names, so those chosen are the picked ones.
  have hsame : chosen = picked.map fun a => (name a, amount a) := by
    have hdistinct : ((items.map fun a => (name a, amount a)).map Prod.fst).Nodup := by rwa [List.map_map]
    refine Lookup.eq_of_names hdistinct hchosen.subset (List.map_subset _ hof) ?_
    rw [← map_eq (hfound.imp fun _ _ hxy => hxy.1), ← hnames, List.map_map]
    rfl
  have hsums : List.Forall₂ (Mirror turn) (chosen.map Prod.snd) (found.map Prod.snd) :=
    List.forall₂_map_left_iff.mpr (List.forall₂_map_right_iff.mpr (hfound.imp fun _ _ hxy => hxy.2))
  rw [hsame, List.map_map] at hsums
  rw [near_mirror ((Decimal.sum_mirror hsums).of_ok hsum hsigned) (Decimal.mul_sign_mirror htarget haim)]
  exact hnear

end Combination
/-! ## What the passes have checked -/

namespace Matching

section Checked

variable {t : Tolerance} {records : List BankRecord} {groups : List Group} {c : Claims} {matchType : MatchType}
  {within : Bool} {rs : List BankRecord} {gs : List Group} {bankTotal groupTotal : Decimal}

/-- What a pass has checked tells how the totals of its match compare: the flag says it with the ledger total as the
reference, but a search for groups takes the bank total as the reference. -/
theorem Checked.totals (hrecords : (records.map BankRecord.id).Nodup) (hgroups : (groups.map Group.key).Nodup)
    (hbanks : ∀ r ∈ records, r.amount.Settled) (hledger : ∀ g ∈ groups, g.amount.Settled)
    (h : Checked t records groups c matchType within rs gs) (hrs : rs ⊆ records) (hgs : gs ⊆ groups)
    (hrejected : within = false → ∀ r ∈ rs, ∀ g ∈ gs, exactFits t r g = .ok false)
    (hbankTotal : Decimal.sum (rs.map BankRecord.amount) = .ok bankTotal)
    (hgroupTotal : Decimal.sum (gs.map Group.amount) = .ok groupTotal) :
    if matchType = .splitGroupToBank then within = true ∧ t.amountsMatch groupTotal bankTotal = .ok true
    else t.amountsMatch bankTotal groupTotal = .ok within := by
  have hbank : ∀ r, rs = [r] → Mirror false r.amount bankTotal := by
    rintro r rfl
    exact sum_singleton (hbanks r (hrs List.mem_cons_self)) hbankTotal
  have hgroup : ∀ g, gs = [g] → Mirror false g.amount groupTotal := by
    rintro g rfl
    exact sum_singleton (hledger g (hgs List.mem_cons_self)) hgroupTotal
  cases h with
  | exact hsource hamounts =>
      rw [if_neg (by decide), ← amountsMatch_mirror t (hbank _ rfl) (hgroup _ rfl)]
      exact hamounts
  | amount htype hdates hamounts =>
      rw [if_neg (by decide), ← amountsMatch_mirror t (hbank _ rfl) (hgroup _ rfl)]
      exact hamounts
  | @splitBank _ g bound hof hmany hbound hfound =>
      rw [if_neg (by decide), ← amountsMatch_mirror t (Mirror.refl bankTotal) (hgroup g rfl), amountsMatch_eq_near hbound]
      have hcandidates : ∀ r ∈ c.recordsOf records g, r.amount.Settled := fun r hr =>
        hbanks r ((c.recordsOf_sublist records g).subset hr)
      exact Combination.find_picked_near (Claims.recordsOf_nodup hrecords g) hcandidates
        (hledger g (hgs List.mem_cons_self)) hof hmany hfound hbankTotal
  | @splitGroup r _ bound hof hmany hbound hfound =>
      rw [if_pos rfl, ← amountsMatch_mirror t (Mirror.refl groupTotal) (hbank r rfl), amountsMatch_eq_near hbound]
      have hcandidates : ∀ g ∈ c.groupsOf groups r, g.amount.Settled := fun g hg =>
        hledger g ((c.groupsOf_sublist groups r).subset hg)
      exact ⟨rfl, Combination.find_picked_near (Claims.groupsOf_nodup hgroups r) hcandidates
        (hbanks r (hrs List.mem_cons_self)) hof hmany hfound hgroupTotal⟩
  | source hsource =>
      have hfits := hrejected rfl _ List.mem_cons_self _ List.mem_cons_self
      rw [exactFits, if_pos hsource] at hfits
      rw [if_neg (by decide), ← amountsMatch_mirror t (hbank _ rfl) (hgroup _ rfl)]
      exact hfits

theorem Checked.nonempty (h : Checked t records groups c matchType within rs gs) : rs ≠ [] ∧ gs ≠ [] := by
  cases h with
  | exact => simp
  | amount => simp
  | splitBank _ hmany => exact ⟨List.ne_nil_of_length_pos (by omega), by simp⟩
  | splitGroup _ hmany => exact ⟨by simp, List.ne_nil_of_length_pos (by omega)⟩
  | source => simp

end Checked

end Matching

/-! ## What the classifier reports -/

namespace Variance

variable {t : Tolerance}

theorem ofTotals_cases {bank ledger : Decimal} {vs : List Variance} (h : ofTotals t bank ledger = .ok vs) :
    (t.amountsMatch bank ledger = .ok true ∧ vs = []) ∨
      (t.amountsMatch bank ledger = .ok false ∧ ∃ v, vs = [v] ∧ v.varianceType = .totalAmount) := by
  obtain ⟨isMatch, hmatch, h⟩ := bind_eq_ok.mp h
  cases isMatch with
  | true => exact Or.inl ⟨hmatch, (pure_eq_ok.mp h).symm⟩
  | false =>
      obtain ⟨difference, -, h⟩ := bind_eq_ok.mp h
      obtain ⟨severity, -, h⟩ := bind_eq_ok.mp h
      obtain ⟨percentage, -, h⟩ := bind_eq_ok.mp h
      exact Or.inr ⟨hmatch, _, (pure_eq_ok.mp h).symm, rfl⟩

theorem ofDates_type {bank ledger : Date} {v : Variance} (h : v ∈ ofDates t bank ledger) :
    v.varianceType = .dateDifference := by
  simp only [ofDates] at h
  split at h
  · cases h
  · split at h
    · rw [List.mem_singleton.mp h]
    · rw [List.mem_singleton.mp h]

theorem ofInstrument_types (bank ledger : Amounts) (code : Instrument) :
    Yields (∀ v ∈ ·, v.varianceType = .instrumentAmount) (ofInstrument t bank ledger code) := by
  refine Yields.bind fun size => Yields.bind fun isZero => ?_
  extract_lets report
  have hreport : ∀ ratio, Yields (∀ v ∈ ·, v.varianceType = .instrumentAmount) (report ratio) := by
    intro ratio
    refine Yields.bind fun isSmall => Yields.ite (Yields.pure (by simp)) (Yields.bind fun severity => ?_)
    extract_lets done
    have hdone : ∀ approved, Yields (∀ v ∈ ·, v.varianceType = .instrumentAmount) (done approved) :=
      fun approved => Yields.bind fun _ => Yields.bind fun _ => Yields.pure (by simp)
    exact Yields.ite (Yields.bind fun _ => Yields.bind hdone) (Yields.bind hdone)
  exact Yields.ite (Yields.bind hreport) (Yields.bind fun _ => Yields.bind hreport)

/-- A total is reported just where the totals of two sides do not match. -/
theorem classify_totals {rs : List BankRecord} {gs : List Group} (hsides : rs ≠ [] ∧ gs ≠ [])
    {bankTotal groupTotal : Decimal} (hbank : Decimal.sum (rs.map BankRecord.amount) = .ok bankTotal)
    (hgroup : Decimal.sum (gs.map Group.amount) = .ok groupTotal) {vs : List Variance}
    (h : classify t rs gs = .ok vs) :
    (∃ v ∈ vs, v.varianceType = .totalAmount) ↔ t.amountsMatch bankTotal groupTotal = .ok false := by
  obtain ⟨r, rest, rfl⟩ := List.exists_cons_of_ne_nil hsides.1
  obtain ⟨g, others, rfl⟩ := List.exists_cons_of_ne_nil hsides.2
  obtain ⟨bank, hbank', h⟩ := bind_eq_ok.mp h
  obtain rfl := Except.ok.inj (hbank'.symm.trans hbank)
  obtain ⟨ledger, hledger', h⟩ := bind_eq_ok.mp h
  obtain rfl := Except.ok.inj (hledger'.symm.trans hgroup)
  obtain ⟨totals, htotals, h⟩ := bind_eq_ok.mp h
  obtain ⟨bankAmounts, -, h⟩ := bind_eq_ok.mp h
  obtain ⟨ledgerAmounts, -, h⟩ := bind_eq_ok.mp h
  obtain ⟨instruments, hinstruments, h⟩ := bind_eq_ok.mp h
  obtain rfl := pure_eq_ok.mp h
  have hdates : ∀ d d', ∀ v ∈ ofDates t d d', v.varianceType ≠ .totalAmount := by
    intro d d' v hv
    rw [ofDates_type hv]
    decide
  have hothers : ∀ v ∈ instruments.flatten, v.varianceType ≠ .totalAmount := by
    intro v hv
    obtain ⟨found, hfound, hv⟩ := List.mem_flatten.mp hv
    obtain ⟨code, -, hcode⟩ := Fallible.mapM_mem hinstruments hfound
    rw [ofInstrument_types bankAmounts ledgerAmounts code found hcode v hv]
    decide
  rcases ofTotals_cases htotals with ⟨hmatch, rfl⟩ | ⟨hmatch, v, rfl, hv⟩
  · rw [hmatch, List.nil_append]
    refine iff_of_false ?_ (by simp)
    rintro ⟨v, hv, htype⟩
    rcases List.mem_append.mp hv with hv | hv
    · exact hdates _ _ v hv htype
    · exact hothers v hv htype
  · exact iff_of_true ⟨v, by simp, hv⟩ hmatch

end Variance

/-! ## Matcher and classifier -/

open RunResult (groupsByKey)

/-- The variances of a match, where the classifier gives any, hold one of the totals just where the match is flagged;
for the groups that were found for one record, just where the totals do not match by the ledger's allowance, while they
do match by the record's and the match is never flagged. -/
def TotalsAgree (t : Tolerance) (records : List BankRecord) (groups : List Group) (m : Match) : Prop :=
  ∀ vs, Variance.classify t (recordsById records m.bankIds) (groupsByKey groups m.groupKeys) = .ok vs →
    if m.matchType = .splitGroupToBank then
      m.withinTolerance = true ∧ t.amountsMatch m.groupTotal m.bankTotal = .ok true ∧
        ((∃ v ∈ vs, v.varianceType = .totalAmount) ↔ t.amountsMatch m.bankTotal m.groupTotal = .ok false)
    else (∃ v ∈ vs, v.varianceType = .totalAmount) ↔ m.withinTolerance = false

/-- **Matcher and classifier agree on the totals.** -/
theorem ofRecords_totals {t : Tolerance} {records : List BankRecord} {groups : List Group} {reserved : List String}
    {outcome : MatchOutcome} (hrecords : (records.map BankRecord.id).Nodup)
    (hgroups : (groups.map Group.key).Nodup) (hbanks : ∀ r ∈ records, r.amount.Settled)
    (hledger : ∀ g ∈ groups, g.amount.Settled)
    (h : MatchOutcome.ofRecords t records groups reserved = .ok outcome) :
    ∀ m ∈ outcome.algorithmic, TotalsAgree t records groups m := by
  intro m hm vs hvs
  obtain ⟨run⟩ := ofRecords_run hrecords hgroups h
  obtain ⟨c, rs, gs, htaken, hrejected⟩ := run.rejected hrecords hgroups hm
  rw [recordsById, groupsByKey, htaken.pairs.bankIds, htaken.pairs.groupKeys,
    Lookup.found_names hrecords htaken.records_of, Lookup.found_names hgroups htaken.groups_of] at hvs
  have hreported := Variance.classify_totals htaken.checked.nonempty htaken.pairs.bankTotal htaken.pairs.groupTotal hvs
  have hchecked := htaken.checked.totals hrecords hgroups hbanks hledger htaken.records_of htaken.groups_of hrejected
    htaken.pairs.bankTotal htaken.pairs.groupTotal
  by_cases htype : m.matchType = .splitGroupToBank
  · rw [if_pos htype] at hchecked ⊢
    exact ⟨hchecked.1, hchecked.2, hreported⟩
  · rw [if_neg htype] at hchecked ⊢
    rw [hreported, hchecked, Except.ok.injEq]

namespace Sample

def twoSources : List BankRecord :=
  [record "paired" "s2" 30, record "apart" "s3" 70]

def twoGroups : List Group :=
  [group "c" "s2" 30 ["p1"], group "d" "s3" 5000 ["p2"]]

end Sample

theorem ofRecords_totals_sample :
    ∃ outcome, MatchOutcome.ofRecords {} Sample.twoSources Sample.twoGroups [] = .ok outcome ∧
      outcome.algorithmic.map (fun m => (m.bankIds, m.withinTolerance)) = [(["paired"], true), (["apart"], false)] ∧
      ∀ m ∈ outcome.algorithmic, TotalsAgree {} Sample.twoSources Sample.twoGroups m := by
  have hrun : (MatchOutcome.ofRecords {} Sample.twoSources Sample.twoGroups []).map
      (fun outcome => outcome.algorithmic.map fun m => (m.bankIds, m.withinTolerance)) =
        .ok [(["paired"], true), (["apart"], false)] := by decide +kernel
  obtain ⟨outcome, h, hmade⟩ := Fallible.map_eq_ok.mp hrun
  have hexact : ExactAmounts Sample.twoSources Sample.twoGroups :=
    exactAmounts_of_units (by decide : Decimal.minExponent ≤ 0) (by decide) (by decide) (by decide) (by decide)
  refine ⟨outcome, h, hmade, ofRecords_totals (by decide) (by decide) (fun r hr _ => ?_) (fun g hg _ => ?_) h⟩
  · exact hexact.bank_sums.fits_value (List.mem_map_of_mem hr)
  · exact hexact.group_sums.fits_value (List.mem_map_of_mem hg)

/-! ### Where they do not agree -/

/-- Some match of a run is flagged without a variance of the totals, or has one and is not flagged. -/
def TotalsDiffer (t : Tolerance) (records : List BankRecord) (groups : List Group) : Prop :=
  ∃ outcome, MatchOutcome.ofRecords t records groups [] = .ok outcome ∧ ∃ m ∈ outcome.algorithmic, ∃ vs,
    Variance.classify t (recordsById records m.bankIds) (groupsByKey groups m.groupKeys) = .ok vs ∧
      ¬((∃ v ∈ vs, v.varianceType = .totalAmount) ↔ m.withinTolerance = false)

theorem totalsDiffer_of_run {t : Tolerance} {records : List BankRecord} {groups : List Group}
    (ids keys : List String) (within : Bool) (types : List VarianceType)
    (hrun : (MatchOutcome.ofRecords t records groups []).map
      (fun outcome => outcome.algorithmic.map fun m => (m.bankIds, m.groupKeys, m.withinTolerance)) =
        .ok [(ids, keys, within)])
    (htypes : (Variance.classify t (recordsById records ids) (groupsByKey groups keys)).map
      (·.map Variance.varianceType) = .ok types)
    (hdiffer : ¬(VarianceType.totalAmount ∈ types ↔ within = false)) : TotalsDiffer t records groups := by
  obtain ⟨outcome, h, hmade⟩ := Fallible.map_eq_ok.mp hrun
  obtain ⟨m, hm, hparts⟩ := List.map_eq_singleton_iff.mp hmade
  obtain ⟨vs, hvs, rfl⟩ := Fallible.map_eq_ok.mp htypes
  cases hparts
  refine ⟨outcome, h, m, by simp [hm], vs, hvs, ?_⟩
  simpa only [List.mem_map] using hdiffer

namespace Sample

/-- A record of a million and two groups of its day that fall short of it by a hundredth, which is more than a hundredth
of what they sum to. -/
def whole : List BankRecord :=
  [record "whole" "s0" 1000000]

def halves : List Group :=
  [group "a" "s1" 495000 ["p1"], group "b" "s2" 495000 ["p2"]]

theorem halves_descending :
    Combination.descending (halves.map fun g => (g.key, g.amount)) = .ok (halves.map fun g => (g.key, g.amount)) := by
  rw [Combination.descending, if_neg (by decide), List.mergeSort_of_pairwise (by decide +kernel)]

theorem halves_found :
    Combination.find (halves.map fun g => (g.key, g.amount)) (.finite false 1000000 0) (.finite false 1000000 (-2)) 10 =
      .ok ["a", "b"] := by
  rw [Combination.find, if_neg (by decide)]
  refine bind_eq_ok.mpr ⟨false, by decide +kernel, ?_⟩
  refine bind_eq_ok.mpr ⟨.finite false 1000000 0, by decide +kernel, ?_⟩
  refine bind_eq_ok.mpr ⟨halves.map fun g => (g.key, g.amount), by decide +kernel, ?_⟩
  refine bind_eq_ok.mpr ⟨_, halves_descending, ?_⟩
  refine bind_eq_ok.mpr ⟨.finite false 101000000 (-2), by decide +kernel, ?_⟩
  exact bind_eq_ok.mpr ⟨some ["a", "b"], by decide +kernel, rfl⟩

theorem halves_taken :
    MatchOutcome.claims {} whole halves [] = .ok
      { bank := ["whole"], groups := ["a", "b"], made := [
          { bankIds := ["whole"], postingIds := ["p1", "p2"], groupKeys := ["a", "b"],
            matchType := .splitGroupToBank, confidence := 0.7, bankTotal := .finite false 1000000 0,
            groupTotal := .finite false 990000 0 }] } := by
  refine bind_eq_ok.mpr ⟨{}, rfl, bind_eq_ok.mpr ⟨{}, rfl, bind_eq_ok.mpr ⟨{}, rfl, bind_eq_ok.mpr ⟨{}, rfl, ?_⟩⟩⟩⟩
  refine bind_eq_ok.mpr ⟨_, bind_eq_ok.mpr ⟨_, bind_eq_ok.mpr ⟨_, ?_, bind_eq_ok.mpr ⟨_, halves_found, rfl⟩⟩, rfl⟩, rfl⟩
  decide +kernel

/-- Two amounts of 29 digits that are further apart than allowed, but not once they are rounded. -/
def fine : List BankRecord :=
  [{ record "fine" "s1" 0 with amount := .finite false 90000000000000000000000000004 (-24) }]

def fineGroups : List Group :=
  [{ group "a" "s1" 0 ["p1"] with amount := .finite false 89000000000000000000000000003 (-24) }]

def namesakes : List BankRecord :=
  [record "same" "s0" 5000, record "same" "s1" 100, record "same" "s2" 5000]

def oneGroup : List Group :=
  [group "a" "s1" 100 ["p1"]]

end Sample

/-- The bank total and the ledger total allow for different distances; amounts of more digits than are kept are compared
as they are by the passes and rounded by the classifier; and an id tells records apart only if it is one record's. -/
theorem ofRecords_totals_apart :
    TotalsDiffer {} Sample.whole Sample.halves ∧ TotalsDiffer {} Sample.fine Sample.fineGroups ∧
      TotalsDiffer {} Sample.namesakes Sample.oneGroup := by
  refine ⟨?_, ?_, ?_⟩
  · refine totalsDiffer_of_run ["whole"] ["a", "b"] true [.totalAmount] ?_ (by decide +kernel) (by decide)
    have hrun : MatchOutcome.ofRecords {} Sample.whole Sample.halves [] = .ok _ :=
      bind_eq_ok.mpr ⟨_, Sample.halves_taken, rfl⟩
    rw [hrun]
    rfl
  · exact totalsDiffer_of_run ["fine"] ["a"] false [] (by decide +kernel) (by decide +kernel) (by decide)
  · exact totalsDiffer_of_run ["same"] ["a"] true [.totalAmount] (by decide +kernel) (by decide +kernel) (by decide)

end GoalReconciliation

import GoalReconciliation.Proofs.Assoc
import GoalReconciliation.Proofs.Store.Lapses
import GoalReconciliation.Proofs.Store.Listing
import GoalReconciliation.Proofs.Tolerance
import GoalReconciliation.Summary.Goal
import Mathlib.Data.Set.Card

/-!
# The progress of a goal's review

* `Subject`, `Subject.IsUnmatched`, `Subject.IsReviewed` : a record or a group, one without a counterpart, and one that
  is tagged;
* `ReviewProgress.ofRecords_tallies` : the progress counts them;
* `Direction.sizes`, `Flows.ofAmounts_eq_ok` : one direction's money, and both at once;
* `Judged`, `DirectionSummary.both_judged`, `DirectionSummary.exists_both_ok` : whether the totals of a direction agree;
* `judged_of_small` : small amounts have totals that can be compared;
* `Progress` : what the summary of a goal tells;
* `ofGoal_progress` : **the review status of a goal is the true progress of its review**, wherever its totals can be
  compared.
-/

namespace GoalReconciliation

set_option autoImplicit false

open Fallible (bind_eq_ok pure_eq_ok)

/-- A list that names each item of a set once counts the set. -/
theorem ncard_eq_countP {α : Type} {items : List α} (h : items.Nodup) (p : α → Bool) {S : Set α}
    (hmem : ∀ a, a ∈ S ↔ a ∈ items ∧ p a = true) : S.ncard = items.countP p := by
  classical
  have hset : S = ((items.filter p).toFinset : Set α) := by
    ext a
    rw [hmem, Finset.mem_coe, List.mem_toFinset, List.mem_filter]
  rw [hset, Set.ncard_coe_finset, List.toFinset_card_of_nodup (h.filter p), List.countP_eq_length_filter]

/-! ## What is to be reviewed -/

def SameSource (r : BankRecord) (p : Posting) : Prop :=
  r.sourceId = p.sourceId ∧ r.transactionType = p.transactionType

inductive Subject where
  | record (r : BankRecord)
  | group (key : Option String)

def Posting.IsUnmatched (records : Set BankRecord) (postings : Set Posting) (p : Posting) : Prop :=
  p ∈ postings ∧ ∀ r ∈ records, ¬SameSource r p

namespace Subject

def IsUnmatched (records : Set BankRecord) (postings : Set Posting) : Subject → Prop
  | record r => r ∈ records ∧ ∀ p ∈ postings, ¬SameSource r p
  | group key => ∃ p : Posting, p.IsUnmatched records postings ∧ p.groupKey = key

def IsReviewed (records : Set BankRecord) (postings : Set Posting) : Subject → Prop
  | record r => r.review.tag.isSome = true
  | group key => ∃ p : Posting, p.IsUnmatched records postings ∧ p.groupKey = key ∧ p.review.tag.isSome = true

end Subject

namespace ReviewProgress

/-! ## The progress -/

section Tallies

variable (records : List BankRecord) (postings : List Posting)

def loneRecords : List BankRecord :=
  records.filter fun r => !(postings.map fun p => (p.sourceId, p.transactionType)).contains (r.sourceId, r.transactionType)

def lonePostings : List Posting :=
  postings.filter fun p => !(records.map fun r => (r.sourceId, r.transactionType)).contains (p.sourceId, p.transactionType)

def subjects : List Subject :=
  (loneRecords records postings).map .record ++
    (Assoc.distinct ((lonePostings records postings).map Posting.groupKey)).map .group

def mark : Subject → Bool
  | .record r => r.review.isReviewed
  | .group key => ((lonePostings records postings).filter fun p => decide (p.groupKey = key)).any (·.review.isReviewed)

theorem marks_eq : marks records postings = (subjects records postings).map (mark records postings) := by
  rw [subjects, List.map_append, List.map_map, List.map_map]
  unfold marks
  simp only [Assoc.gather_eq, List.map_map]
  rfl

variable {records postings}

theorem mem_loneRecords {r : BankRecord} :
    r ∈ loneRecords records postings ↔ r ∈ records ∧ ∀ p ∈ postings, ¬SameSource r p := by
  rw [loneRecords, List.mem_filter, Bool.not_eq_true', List.contains_eq_mem, decide_eq_false_iff_not, List.mem_map]
  simp only [SameSource, Prod.mk.injEq, not_exists, not_and]
  exact and_congr_right fun _ => forall₂_congr fun p _ => ⟨fun h e => h e.symm ∘ Eq.symm, fun h e => h e.symm ∘ Eq.symm⟩

theorem mem_lonePostings {p : Posting} :
    p ∈ lonePostings records postings ↔ p.IsUnmatched {r | r ∈ records} {p | p ∈ postings} := by
  rw [lonePostings, List.mem_filter, Bool.not_eq_true', List.contains_eq_mem, decide_eq_false_iff_not, List.mem_map]
  simp only [Posting.IsUnmatched, SameSource, Prod.mk.injEq, not_exists, not_and, Set.mem_ofPred_eq]

theorem mem_subjects {u : Subject} :
    u ∈ subjects records postings ↔ u.IsUnmatched {r | r ∈ records} {p | p ∈ postings} := by
  rw [subjects, List.mem_append, List.mem_map, List.mem_map]
  cases u with
  | record r => simp [mem_loneRecords, Subject.IsUnmatched]
  | group key => simp [Assoc.mem_distinct, mem_lonePostings, Subject.IsUnmatched]

theorem mark_iff {u : Subject} :
    mark records postings u = true ↔ u.IsReviewed {r | r ∈ records} {p | p ∈ postings} := by
  cases u with
  | record r => rfl
  | group key =>
      rw [mark, List.any_eq_true]
      simp only [List.mem_filter, decide_eq_true_eq, mem_lonePostings, and_assoc]
      rfl

theorem nodup_subjects (h : records.Nodup) : (subjects records postings).Nodup := by
  refine List.nodup_append.mpr ⟨?_, ?_, ?_⟩
  · exact (h.filter _).map fun r r' hsame => Subject.record.inj hsame
  · exact (Assoc.nodup_distinct _).map fun key key' hsame => Subject.group.inj hsame
  · intro u hu v hv
    obtain ⟨r, -, rfl⟩ := List.mem_map.mp hu
    obtain ⟨key, -, rfl⟩ := List.mem_map.mp hv
    exact nofun

/-- How often a mark is set is the number of the subjects that have it. -/
theorem count_marks (h : records.Nodup) {b : Bool} {S : Set Subject}
    (hmem : ∀ u, u ∈ S ↔ u ∈ subjects records postings ∧ mark records postings u = b) :
    (marks records postings).count b = S.ncard := by
  have hcount : S.ncard = (subjects records postings).countP fun u => mark records postings u == b :=
    ncard_eq_countP (nodup_subjects h) _ fun u => by rw [hmem, beq_iff_eq]
  rw [hcount, marks_eq, List.count_eq_countP, List.countP_map]
  rfl

end Tallies

/-- The progress counts the subjects without a counterpart: those that are reviewed, and those that are not. -/
structure Tallies (records : Set BankRecord) (postings : Set Posting) (p : ReviewProgress) : Prop where
  finite : {u : Subject | u.IsUnmatched records postings}.Finite
  reviewed : p.reviewed = {u : Subject | u.IsUnmatched records postings ∧ u.IsReviewed records postings}.ncard
  unreviewed : p.unreviewed = {u : Subject | u.IsUnmatched records postings ∧ ¬u.IsReviewed records postings}.ncard

theorem ofRecords_tallies {records : List BankRecord} (h : records.Nodup) (postings : List Posting) :
    Tallies {r | r ∈ records} {p | p ∈ postings} (ofRecords records postings) where
  finite := (List.finite_toSet (subjects records postings)).subset fun _ hu => mem_subjects.mpr hu
  reviewed := count_marks h fun u => by rw [Set.mem_ofPred_eq, mem_subjects, mark_iff]
  unreviewed := count_marks h fun u => by rw [Set.mem_ofPred_eq, mem_subjects, ← mark_iff, Bool.not_eq_true]

/-- What a review status tells of the totals and of the subjects without a counterpart. -/
structure Tells (varies : Prop) (unmatched tagged : Subject → Prop) (status : String) : Prop where
  notApplicable : status = "NOT_APPLICABLE" ↔ ¬varies ∨ ∀ u, ¬unmatched u
  reviewed : status = "REVIEWED" ↔ varies ∧ (∃ u, unmatched u) ∧ ∀ u, unmatched u → tagged u
  unreviewed : status = "UNREVIEWED" ↔ varies ∧ (∃ u, unmatched u) ∧ ∀ u, unmatched u → ¬tagged u
  partially : status = "PARTIALLY_REVIEWED" ↔
    varies ∧ (∃ u, unmatched u ∧ tagged u) ∧ ∃ u, unmatched u ∧ ¬tagged u

variable {records : Set BankRecord} {postings : Set Posting} {p : ReviewProgress}

theorem Tallies.reviewed_eq_zero (h : Tallies records postings p) :
    p.reviewed = 0 ↔ ∀ u : Subject, u.IsUnmatched records postings → ¬u.IsReviewed records postings := by
  rw [h.reviewed, Set.ncard_eq_zero (h.finite.subset fun _ hu => hu.1), Set.eq_empty_iff_forall_notMem]
  exact forall_congr' fun u => not_and

theorem Tallies.unreviewed_eq_zero (h : Tallies records postings p) :
    p.unreviewed = 0 ↔ ∀ u : Subject, u.IsUnmatched records postings → u.IsReviewed records postings := by
  rw [h.unreviewed, Set.ncard_eq_zero (h.finite.subset fun _ hu => hu.1), Set.eq_empty_iff_forall_notMem]
  exact forall_congr' fun u => not_and_not_right

/-- The status that is made of the progress is the true one. -/
theorem Tallies.status_tells (h : Tallies records postings p) (varies : Bool) :
    Tells (varies = true) (Subject.IsUnmatched records postings) (Subject.IsReviewed records postings)
      (p.status varies) := by
  have hnone : (∀ u : Subject, ¬u.IsUnmatched records postings) ↔ p.reviewed = 0 ∧ p.unreviewed = 0 := by
    rw [h.reviewed_eq_zero, h.unreviewed_eq_zero]
    exact ⟨fun hu => ⟨fun u hlone => absurd hlone (hu u), fun u hlone => absurd hlone (hu u)⟩,
      fun ⟨hopen, hdone⟩ u hlone => hopen u hlone (hdone u hlone)⟩
  have hsome : (∃ u : Subject, u.IsUnmatched records postings) ↔ ¬(p.reviewed = 0 ∧ p.unreviewed = 0) := by
    rw [← hnone, not_forall_not]
  have hdone : (∃ u : Subject, u.IsUnmatched records postings ∧ u.IsReviewed records postings) ↔ ¬p.reviewed = 0 := by
    rw [h.reviewed_eq_zero]
    simp only [not_forall, not_not, exists_prop]
  have hopen : (∃ u : Subject, u.IsUnmatched records postings ∧ ¬u.IsReviewed records postings) ↔
      ¬p.unreviewed = 0 := by
    rw [h.unreviewed_eq_zero]
    simp only [not_forall, exists_prop]
  constructor
  · rw [hnone]
    grind [status]
  · rw [hsome, ← h.unreviewed_eq_zero]
    grind [status]
  · rw [hsome, ← h.reviewed_eq_zero]
    grind [status]
  · rw [hdone, hopen]
    grind [status]

end ReviewProgress

/-! ## Totals -/

/-- A finite amount of at most `10 ^ 15` in size. -/
structure Decimal.Small (d : Decimal) : Prop where
  finite : d.isFinite = true
  size : |d.value| ≤ 10 ^ 15

/-- The size of a small amount is moderate, also when it has to be rounded. -/
theorem Decimal.Small.abs_moderate {d : Decimal} (h : d.Small) : ∃ size, d.abs = .ok size ∧ size.Moderate := by
  have hfits : Fits (10 ^ 15) :=
    ⟨1, (15 : ℕ), by decide, by decide, by decide, by rw [zpow_natCast, Int.cast_one, one_mul]⟩
  obtain ⟨size, habs, hrounds⟩ :=
    (abs_settles (worth_value h.finite)).returns hfits ((abs_abs d.value).le.trans h.size)
  refine ⟨size, habs, hrounds.rounded.1, lt_of_le_of_lt ?_ (show (10 : ℚ) ^ 15 < 10 ^ 16 by norm_num)⟩
  exact hrounds.rounded.2.size_le hfits ((abs_abs d.value).le.trans h.size)

namespace Direction

def sizes (direction : Direction) (entries : List (Listed TransactionType × Decimal)) :
    Except Decimal.Fault Decimal :=
  (entries.filter fun entry => ofType entry.1 = direction).foldlM (fun total entry => do total.add (← entry.2.abs))
    Decimal.zero

theorem total_countP {α : Type} (f : α → Direction) (items : List α) :
    Natural.total (all.map fun direction => items.countP fun a => f a = direction) = items.length := by
  have hother : items.countP (fun a => f a = .withdrawals) =
      items.countP fun a => decide ¬decide (f a = .deposits) = true :=
    List.countP_congr fun a _ => by cases f a <;> decide
  rw [List.length_eq_countP_add_countP (l := items) fun a => decide (f a = .deposits), ← hother]
  rfl

theorem sizes_bounded {entries : List (Listed TransactionType × Decimal)} (h : ∀ entry ∈ entries, entry.2.Small)
    (direction : Direction) : ∃ total, direction.sizes entries = .ok total ∧ total.Bounded := by
  have hfold : ∀ {chosen : List (Listed TransactionType × Decimal)}, (∀ entry ∈ chosen, entry.2.Small) →
      ∀ {start : Decimal}, start.Bounded → ∃ total,
        chosen.foldlM (fun total entry => do total.add (← entry.2.abs)) start = .ok total ∧ total.Bounded := by
    intro chosen
    induction chosen with
    | nil => exact fun _ _ hstart => ⟨_, rfl, hstart⟩
    | cons entry rest ih =>
        intro hchosen start hstart
        obtain ⟨hentry, hrest⟩ := List.forall_mem_cons.mp hchosen
        obtain ⟨size, habs, hsize⟩ := hentry.abs_moderate
        obtain ⟨next, hnext, hbounded⟩ := Decimal.add_bounded hstart hsize
        obtain ⟨total, htotal, hbounded'⟩ := ih hrest hbounded
        refine ⟨total, ?_, hbounded'⟩
        rw [List.foldlM_cons]
        exact bind_eq_ok.mpr ⟨next, bind_eq_ok.mpr ⟨size, habs, hnext⟩, htotal⟩
  exact hfold (fun entry hentry => h entry (List.mem_filter.mp hentry).1) Decimal.bounded_zero

end Direction

namespace Flows

def set (flows : Flows) (direction : Direction) (total : Decimal) : Flows :=
  match direction with
  | .deposits => { flows with deposits := total }
  | .withdrawals => { flows with withdrawals := total }

theorem amount_set (flows : Flows) (direction other : Direction) (total : Decimal) :
    (flows.set direction total).amount other = if direction = other then total else flows.amount other := by
  cases direction <;> cases other <;> rfl

theorem ext_amount {a b : Flows} (h : ∀ direction, a.amount direction = b.amount direction) : a = b := by
  cases a
  cases b
  exact congr (congrArg Flows.mk (h .deposits)) (h .withdrawals)

theorem addSize_eq (flows : Flows) (entry : Listed TransactionType × Decimal) :
    flows.addSize entry = (do (flows.amount (.ofType entry.1)).add (← entry.2.abs)).map
      (flows.set (.ofType entry.1)) := by
  unfold addSize
  cases entry.2.abs with
  | error fault => rfl
  | ok size =>
      cases Direction.ofType entry.1 with
      | deposits =>
          change (flows.deposits.add size >>= fun total => _) = Except.map _ (flows.deposits.add size)
          cases flows.deposits.add size <;> rfl
      | withdrawals =>
          change (flows.withdrawals.add size >>= fun total => _) = Except.map _ (flows.withdrawals.add size)
          cases flows.withdrawals.add size <;> rfl

/-- The money of both directions is what each of them sums up to alone. -/
theorem ofAmounts_eq_ok {entries : List (Listed TransactionType × Decimal)} {flows : Flows} :
    ofAmounts entries = .ok flows ↔ ∀ direction : Direction, direction.sizes entries = .ok (flows.amount direction) := by
  have hfold : ∀ start : Flows, entries.foldlM addSize start = .ok flows ↔ ∀ direction : Direction,
      (entries.filter fun entry => Direction.ofType entry.1 = direction).foldlM
        (fun total entry => do total.add (← entry.2.abs)) (start.amount direction) =
          .ok (flows.amount direction) := by
    induction entries with
    | nil => exact fun start => ⟨fun h direction => by rw [← pure_eq_ok.mp h]; rfl,
        fun h => pure_eq_ok.mpr (ext_amount fun direction => Except.ok.inj (h direction))⟩
    | cons entry rest ih =>
        intro start
        rw [List.foldlM_cons, addSize_eq, bind_eq_ok]
        constructor
        · rintro ⟨next, hnext, hrest⟩ direction
          obtain ⟨total, htotal, rfl⟩ := Fallible.map_eq_ok.mp hnext
          have hdirection := (ih _).mp hrest direction
          rw [amount_set] at hdirection
          by_cases h : Direction.ofType entry.1 = direction
          · subst h
            rw [List.filter_cons_of_pos (by simp), List.foldlM_cons, htotal]
            rwa [if_pos rfl] at hdirection
          · rw [List.filter_cons_of_neg (by simpa using h)]
            rwa [if_neg h] at hdirection
        · intro hall
          have hown := hall (.ofType entry.1)
          rw [List.filter_cons_of_pos (by simp), List.foldlM_cons] at hown
          obtain ⟨total, htotal, hown⟩ := bind_eq_ok.mp hown
          refine ⟨_, Fallible.map_eq_ok.mpr ⟨total, htotal, rfl⟩, (ih _).mpr fun direction => ?_⟩
          rw [amount_set]
          by_cases h : Direction.ofType entry.1 = direction
          · subst h
            rwa [if_pos rfl]
          · have hother := hall direction
            rw [List.filter_cons_of_neg (by simpa using h)] at hother
            rwa [if_neg h]
  exact (hfold {}).trans (forall_congr' fun direction => by cases direction <;> rfl)

end Flows

namespace DirectionSummary

variable {t : Tolerance} {records : List BankRecord} {postings : List Posting}

/-- Whether the totals of a direction agree, the ledger total as the reference. -/
def Judged (t : Tolerance) (records : List BankRecord) (postings : List Posting) (direction : Direction)
    (agrees : Bool) : Prop :=
  ∃ bank ledger, direction.sizes (records.map fun r => (r.transactionType, r.amount)) = .ok bank ∧
    direction.sizes (postings.map fun p => (p.transactionType, p.amount)) = .ok ledger ∧
    t.amountsMatch bank ledger = .ok agrees

theorem Judged.unique {direction : Direction} {agrees agrees' : Bool} (h : Judged t records postings direction agrees)
    (h' : Judged t records postings direction agrees') : agrees = agrees' := by
  obtain ⟨bank, ledger, hbank, hledger, hmatch⟩ := h
  obtain ⟨bank', ledger', hbank', hledger', hmatch'⟩ := h'
  obtain rfl := Except.ok.inj (hbank.symm.trans hbank')
  obtain rfl := Except.ok.inj (hledger.symm.trans hledger')
  exact Except.ok.inj (hmatch.symm.trans hmatch')

/-- Both directions' summaries tell whether their totals agree, and count the groups by their first postings. -/
theorem both_judged {summaries : List DirectionSummary} (h : both t records postings = .ok summaries) :
    summaries.map direction = Direction.all ∧
      (∀ d ∈ summaries, Judged t records postings d.direction (!d.varies)) ∧
      summaries.map ledgerCount = Direction.all.map fun direction =>
        (firstOfGroups postings).countP fun p => Direction.ofType p.transactionType = direction := by
  obtain ⟨bank, hbank, h⟩ := bind_eq_ok.mp h
  obtain ⟨ledger, hledger, h⟩ := bind_eq_ok.mp h
  have hbank := Flows.ofAmounts_eq_ok.mp hbank
  have hledger := Flows.ofAmounts_eq_ok.mp hledger
  have heach : ∀ {direction : Direction} {d : DirectionSummary},
      ofFlows t records postings bank ledger direction = .ok d →
        d.direction = direction ∧ Judged t records postings direction (!d.varies) ∧
          d.ledgerCount = (firstOfGroups postings).countP fun p => Direction.ofType p.transactionType = direction := by
    intro direction d hd
    obtain ⟨difference, -, hd⟩ := bind_eq_ok.mp hd
    obtain ⟨agrees, hagrees, hd⟩ := bind_eq_ok.mp hd
    obtain rfl := pure_eq_ok.mp hd
    exact ⟨rfl, ⟨_, _, hbank direction, hledger direction, by rwa [Bool.not_not]⟩, rfl⟩
  have hmap : ∀ {β : Type} {f : DirectionSummary → β} {g : Direction → β},
      (∀ direction d, ofFlows t records postings bank ledger direction = .ok d → f d = g direction) →
        summaries.map f = Direction.all.map g := by
    intro β f g hfg
    have hpairs : List.Forall₂ Eq (Direction.all.map g) (summaries.map f) :=
      List.forall₂_map_left_iff.mpr (List.forall₂_map_right_iff.mpr
        ((Fallible.mapM_eq_ok.mp h).imp fun direction d hd => (hfg direction d hd).symm))
    rw [List.forall₂_eq_eq_eq] at hpairs
    exact hpairs.symm
  refine ⟨?_, fun d hd => ?_, hmap fun _ _ hd => (heach hd).2.2⟩
  · exact (hmap fun _ _ hd => (heach hd).1).trans (List.map_id _)
  · obtain ⟨direction, -, hok⟩ := Fallible.mapM_mem h hd
    obtain ⟨rfl, hjudged, -⟩ := heach hok
    exact hjudged

theorem exists_summary {summaries : List DirectionSummary} (h : both t records postings = .ok summaries)
    (direction : Direction) : ∃ d ∈ summaries, Judged t records postings direction (!d.varies) := by
  obtain ⟨hdirections, hjudged, -⟩ := both_judged h
  have hmem : direction ∈ summaries.map DirectionSummary.direction := by
    rw [hdirections]
    cases direction <;> decide
  obtain ⟨d, hd, rfl⟩ := List.mem_map.mp hmem
  exact ⟨d, hd, hjudged d hd⟩

/-- Where the totals of each direction can be compared, both have their summaries. -/
theorem exists_both_ok (h : ∀ direction, ∃ agrees, Judged t records postings direction agrees) :
    ∃ summaries, both t records postings = .ok summaries := by
  choose agrees bank ledger hbank hledger hmatch using h
  have hflows : ∀ total : Direction → Decimal, (⟨total .deposits, total .withdrawals⟩ : Flows).amount = total :=
    fun total => funext fun direction => by cases direction <;> rfl
  have hbankFlows := Flows.ofAmounts_eq_ok.mpr fun direction => (hflows bank).symm ▸ hbank direction
  have hledgerFlows := Flows.ofAmounts_eq_ok.mpr fun direction => (hflows ledger).symm ▸ hledger direction
  refine Fallible.exists_bind_ok hbankFlows (Fallible.exists_bind_ok hledgerFlows ?_)
  refine Fallible.exists_mapM_ok fun direction _ => ?_
  have hagrees := hmatch direction
  obtain ⟨distance, hdistance, -⟩ := bind_eq_ok.mp hagrees
  obtain ⟨difference, hdifference, -⟩ := bind_eq_ok.mp hdistance
  unfold ofFlows
  rw [hflows, hflows]
  exact Fallible.exists_bind_ok hdifference (Fallible.exists_bind_ok hagrees ⟨_, rfl⟩)

/-- Some direction's totals differ just if one of the summaries says so. -/
theorem any_varies_iff {summaries : List DirectionSummary} (h : both t records postings = .ok summaries) :
    summaries.any (·.varies) = true ↔ ∃ direction, Judged t records postings direction false := by
  rw [List.any_eq_true]
  constructor
  · rintro ⟨d, hd, hvaries⟩
    have hjudged := (both_judged h).2.1 d hd
    rw [hvaries] at hjudged
    exact ⟨d.direction, hjudged⟩
  · rintro ⟨direction, hdiffers⟩
    obtain ⟨d, hd, hjudged⟩ := exists_summary h direction
    have hagrees := hjudged.unique hdiffers
    exact ⟨d, hd, by rwa [Bool.not_eq_false'] at hagrees⟩

theorem length_firstOfGroups (postings : List Posting) :
    (firstOfGroups postings).length = (Assoc.distinct (postings.map Posting.groupKey)).length := by
  have hfirst : ∀ pair ∈ Assoc.gather Posting.groupKey postings, pair.2.head?.isSome = true := by
    rintro ⟨key, members⟩ hpair
    obtain ⟨hkey, rfl⟩ := Assoc.mem_gather.mp hpair
    obtain ⟨p, hp, rfl⟩ := List.mem_map.mp hkey
    rw [List.isSome_head?]
    exact List.ne_nil_of_mem (List.mem_filter.mpr ⟨hp, decide_eq_true rfl⟩)
  rw [firstOfGroups, List.filterMap_length_eq_length.mpr hfirst, ← Assoc.gather_keys, List.length_map]

/-- The groups of both directions are as many as the postings have keys. -/
theorem total_ledgerCount {summaries : List DirectionSummary} (h : both t records postings = .ok summaries) :
    Natural.total (summaries.map ledgerCount) = {key | ∃ p ∈ postings, p.groupKey = key}.ncard := by
  have hcount : {key | ∃ p ∈ postings, p.groupKey = key}.ncard =
      (Assoc.distinct (postings.map Posting.groupKey)).countP fun _ => true :=
    ncard_eq_countP (Assoc.nodup_distinct _) _ fun key => by
      rw [Set.mem_ofPred_eq, Assoc.mem_distinct, List.mem_map, and_iff_left rfl]
  rw [(both_judged h).2.2, hcount, List.countP_true, ← length_firstOfGroups]
  exact Direction.total_countP (fun p : Posting => Direction.ofType p.transactionType) (firstOfGroups postings)

end DirectionSummary

/-! ## The summary of a goal -/

namespace Store

variable {s : Store} {t : Tolerance} {goal : String} {range : DateRange}

def recordsIn (s : Store) (goal : String) (range : DateRange) : Set BankRecord :=
  {r | r ∈ s.bank ∧ r.goalId = goal ∧ range.contains r.date = true}

def postingsIn (s : Store) (t : Tolerance) (goal : String) (range : DateRange) : Set Posting :=
  {p | p ∈ s.ledger ∧ p.goalId = goal ∧ range.contains p.date = true ∧ p.channel ∉ t.excludedChannels}

theorem recordsIn_eq : s.recordsIn goal range = {r | r ∈ s.bankRecords (some goal) (some range)} := by
  ext r
  rw [recordsIn, Set.mem_ofPred_eq, Set.mem_ofPred_eq, mem_bankRecords]
  simp [isGoal, DateRange.admits, eq_comm (a := goal)]

theorem postingsIn_eq :
    s.postingsIn t goal range = {p | p ∈ Admission.onChannel t (s.postings (some goal) (some range))} := by
  ext p
  rw [postingsIn, Set.mem_ofPred_eq, Set.mem_ofPred_eq, Admission.onChannel, List.mem_filter, mem_postings]
  simp [isGoal, DateRange.admits, and_assoc, eq_comm (a := goal)]

/-- Whether the totals of one direction of a goal agree, the ledger total as the reference. -/
def Judged (s : Store) (t : Tolerance) (goal : String) (range : DateRange) : Direction → Bool → Prop :=
  DirectionSummary.Judged t (s.bankRecords (some goal) (some range))
    (Admission.onChannel t (s.postings (some goal) (some range)))

end Store

namespace GoalSummary

/-- The totals of small amounts can be compared, with a tolerance of numbers whose share is not huge. -/
theorem judged_of_small {s : Store} {t : Tolerance} (hbank : ∀ r ∈ s.bank, r.amount.Small)
    (hledger : ∀ p ∈ s.ledger, p.amount.Small) (hshare : t.share.isFinite = true) (hsize : |t.share.value| ≤ 10 ^ 1024)
    (hfloor : t.floor.isNaN = false) (goal : String) (range : DateRange) (direction : Direction) :
    ∃ agrees, s.Judged t goal range direction agrees := by
  have hrecords : ∀ entry ∈ (s.bankRecords (some goal) (some range)).map fun r => (r.transactionType, r.amount),
      entry.2.Small := by
    intro entry hentry
    obtain ⟨r, hr, rfl⟩ := List.mem_map.mp hentry
    exact hbank r (Store.mem_bankRecords.mp hr).1
  have hpostings : ∀ entry ∈ (Admission.onChannel t (s.postings (some goal) (some range))).map fun p =>
      (p.transactionType, p.amount), entry.2.Small := by
    intro entry hentry
    obtain ⟨p, hp, rfl⟩ := List.mem_map.mp hentry
    exact hledger p (Store.mem_postings.mp (List.mem_filter.mp hp).1).1
  obtain ⟨bank, hbankTotal, hbankBounded⟩ := direction.sizes_bounded hrecords
  obtain ⟨ledger, hledgerTotal, hledgerBounded⟩ := direction.sizes_bounded hpostings
  obtain ⟨agrees, hagrees⟩ := Tolerance.amountsMatch_returns hshare hsize hfloor hbankBounded hledgerBounded
  exact ⟨agrees, bank, ledger, hbankTotal, hledgerTotal, hagrees⟩

/-- What the summary of a goal tells: how many subjects without a counterpart are reviewed and how many are not, how many
groups there are in both directions, and what all this amounts to where the totals of some direction differ. -/
structure Progress (s : Store) (t : Tolerance) (goal : String) (range : DateRange) (summary : GoalSummary) : Prop where
  tallies : ReviewProgress.Tallies (s.recordsIn goal range) (s.postingsIn t goal range) summary.progress
  directions : summary.directions.map DirectionSummary.direction = Direction.all
  ledgerCounts : Natural.total (summary.directions.map DirectionSummary.ledgerCount) =
    {key : Option String | ∃ p ∈ s.postingsIn t goal range, p.groupKey = key}.ncard
  status : ReviewProgress.Tells (∃ direction, s.Judged t goal range direction false)
    (Subject.IsUnmatched (s.recordsIn goal range) (s.postingsIn t goal range))
    (Subject.IsReviewed (s.recordsIn goal range) (s.postingsIn t goal range))
    (summary.progress.status summary.varies)

theorem effect_ofGoal {σ : Type} {repo : Repository σ} {content : σ → Store} (hanswers : repo.AnswersFrom content)
    (t : Tolerance) (goal : String) (range : DateRange) (state : σ) :
    repo.effect (ofGoal t goal range) state =
      ((liftM (DirectionSummary.both t ((content state).bankRecords (some goal) (some range))
          (Admission.onChannel t ((content state).postings (some goal) (some range)))) :
        Except Failure (List DirectionSummary)).map fun directions =>
          ⟨goal, range, directions, ReviewProgress.ofRecords ((content state).bankRecords (some goal) (some range))
            (Admission.onChannel t ((content state).postings (some goal) (some range)))⟩, state) := by
  have hstart : repo.effect (ofGoal t goal range) state = repo.effect (Procedure.query _ >>= _) state := rfl
  refine hstart.trans ((hanswers.effect_query _ _ state).trans ((hanswers.effect_query _ _ state).trans ?_))
  change repo.effect (liftM (DirectionSummary.both t ((content state).bankRecords (some goal) (some range))
    (Admission.onChannel t ((content state).postings (some goal) (some range)))) >>= _) state = _
  cases DirectionSummary.both t ((content state).bankRecords (some goal) (some range))
      (Admission.onChannel t ((content state).postings (some goal) (some range))) with
  | error fault => rfl
  | ok directions => rfl

/-- **The review status of a goal is the true progress of its review.** Where the totals of both directions can be
compared, its summary counts the subjects without a counterpart by whether they are tagged, and the groups, and its status
is what these amount to; where they cannot, there is no summary. -/
theorem ofGoal_progress {m : Memory} (hs : m.store.Sound) (t : Tolerance) (goal : String) (range : DateRange) :
    ((∀ direction, ∃ agrees, m.store.Judged t goal range direction agrees) →
      ∃ summary, Memory.repository.effect (ofGoal t goal range) m = (.ok summary, m) ∧
        Progress m.store t goal range summary) ∧
      ((∃ direction, ∀ agrees, ¬m.store.Judged t goal range direction agrees) →
        ∃ fault, Memory.repository.effect (ofGoal t goal range) m = (.error (.arithmetic fault), m)) := by
  rw [effect_ofGoal Memory.repository_answersFrom]
  constructor
  · intro hjudged
    obtain ⟨directions, hboth⟩ := DirectionSummary.exists_both_ok hjudged
    rw [hboth]
    have honce : (m.store.bankRecords (some goal) (some range)).Nodup :=
      (List.mergeSort_perm _ _).nodup_iff.mpr (hs.bank_once.of_map.filter _)
    have htallies := ReviewProgress.ofRecords_tallies honce
      (Admission.onChannel t (m.store.postings (some goal) (some range)))
    rw [← Store.recordsIn_eq, ← Store.postingsIn_eq] at htallies
    refine ⟨_, rfl, htallies, (DirectionSummary.both_judged hboth).1, ?_, ?_⟩
    · rw [Store.postingsIn_eq]
      exact DirectionSummary.total_ledgerCount hboth
    · have htells := htallies.status_tells (directions.any (·.varies))
      rwa [DirectionSummary.any_varies_iff hboth] at htells
  · rintro ⟨direction, hnot⟩
    cases hboth : DirectionSummary.both t (m.store.bankRecords (some goal) (some range))
        (Admission.onChannel t (m.store.postings (some goal) (some range))) with
    | error fault => exact ⟨fault, rfl⟩
    | ok directions =>
        obtain ⟨d, -, hjudged⟩ := DirectionSummary.exists_summary hboth direction
        exact absurd hjudged (hnot _)

namespace Sample

def day : Date :=
  ⟨2024, 7, 8, by decide⟩

def oneDay : DateRange :=
  ⟨day, day, by decide⟩

def record (id source : String) (amount : Decimal) : BankRecord :=
  { id := id, goalId := "goal", accountId := "account", sourceId := source, givenType := .word .deposit,
    date := day, amount := amount, givenInstruments := [] }

def posting : Posting :=
  { id := "p1", goalId := "goal", accountId := "account", sourceId := "s2", channel := "app",
    givenInstrument := .word .moneyMarket, givenType := .word .deposit, date := day, amount := .finite false 70 0,
    groupKey := some "key", review := { tag := some .missingInBank } }

/-- A record that nobody has tagged, and a group that somebody has, neither of them with a counterpart. -/
def store : Store :=
  { bank := [record "r1" "s1" (.finite false 5000 0)], ledger := [posting] }

def overflowing : Store :=
  { bank := [record "r1" "s1" (.finite false 9 999999), record "r2" "s2" (.finite false 9 999999)] }

end Sample

open GoalSummary.Sample in
theorem ofGoal_progress_sample :
    ∃ summary, Memory.repository.effect (ofGoal {} "goal" oneDay) (.ofStore store) = (.ok summary, .ofStore store) ∧
      summary.progress = ⟨1, 1⟩ ∧ summary.progress.status summary.varies = "PARTIALLY_REVIEWED" ∧
      Progress store {} "goal" oneDay summary := by
  have hsound : store.Sound := ⟨by decide, by decide, by decide +kernel⟩
  have hbank : ∀ r ∈ store.bank, r.amount.Small :=
    List.forall_mem_singleton.mpr ⟨rfl, by norm_num [record, Decimal.value, Decimal.signed]⟩
  have hledger : ∀ p ∈ store.ledger, p.amount.Small :=
    List.forall_mem_singleton.mpr ⟨rfl, by norm_num [posting, Decimal.value, Decimal.signed]⟩
  have hshare : |({} : Tolerance).share.value| ≤ 10 ^ 1024 := by
    have hvalue : ({} : Tolerance).share.value = 1 / 100 := by norm_num [Decimal.value, Decimal.signed]
    rw [hvalue]
    exact (show |(1 / 100 : ℚ)| ≤ 1 by norm_num).trans (one_le_pow₀ (by norm_num))
  obtain ⟨summary, hrun, hprogress⟩ := (ofGoal_progress (m := .ofStore store) hsound {} "goal" oneDay).1
    (judged_of_small hbank hledger rfl hshare rfl "goal" oneDay)
  have houtcome : (Memory.repository.effect (ofGoal {} "goal" oneDay) (.ofStore store)).1.toOption.map
      (fun summary => (summary.progress, summary.progress.status summary.varies)) =
        some (⟨1, 1⟩, "PARTIALLY_REVIEWED") := by decide +kernel
  rw [hrun] at houtcome
  obtain ⟨hcounts, hstatus⟩ := Prod.mk.inj (Option.some.inj houtcome)
  exact ⟨summary, hrun, hcounts, hstatus, hprogress⟩

open GoalSummary.Sample in
/-- Amounts that are finite may have no sum. -/
theorem ofGoal_overflows :
    overflowing.Sound ∧ (∀ r ∈ overflowing.bank, r.amount.isFinite = true) ∧
      (∀ p ∈ overflowing.ledger, p.amount.isFinite = true) ∧
      Memory.repository.effect (ofGoal {} "goal" oneDay) (.ofStore overflowing) =
        (.error (.arithmetic .overflow), .ofStore overflowing) := by
  refine ⟨⟨by decide, by decide, by decide⟩, by decide, by decide, ?_⟩
  have hentries : (overflowing.bankRecords (some "goal") (some oneDay)).map (fun r => (r.transactionType, r.amount)) =
      List.replicate 2 (.known .deposit, .finite false 9 999999) :=
    List.perm_replicate.mp ((List.mergeSort_perm _ _).map _)
  have htotals : Flows.ofAmounts (List.replicate 2 (.known .deposit, .finite false 9 999999)) = .error .overflow := by
    decide +kernel
  rw [effect_ofGoal Memory.repository_answersFrom]
  have hboth : ∀ postings, DirectionSummary.both {} (overflowing.bankRecords (some "goal") (some oneDay)) postings =
      .error .overflow := by
    intro postings
    unfold DirectionSummary.both
    rw [hentries, htotals]
    rfl
  exact congrArg (fun directions : Except Decimal.Fault (List DirectionSummary) =>
    ((liftM directions : Except Failure (List DirectionSummary)).map _, Memory.ofStore overflowing)) (hboth _)

end GoalSummary

end GoalReconciliation

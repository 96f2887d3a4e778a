import GoalReconciliation.Proofs.Decimal.Laws
import GoalReconciliation.Proofs.Resolution.Candidates
import GoalReconciliation.Proofs.Run.Building
import GoalReconciliation.Proofs.Store.Listing

/-!
# Records that have a counterpart

* `amountsMatch_cases` : amounts of ordinary size are all compared with a reference, or none of them matches it;
* `exists_found` : a search among such amounts finds something just if there is something to find;
* `Near`, `LedgerCounterpart`, `BankCounterpart` : what resolves a tagged bank record, and a tagged group;
* `reasonForRecord_iff`, `reasonForGroup_iff` : **a tagged record is resolved just if one of its candidates is a
  counterpart**;
* `GroupOf`, `candidateGroups_moderate` : the groups of a goal are those of its postings that count.
-/

namespace GoalReconciliation

set_option autoImplicit false

open Fallible (bind_eq_ok findM?_eq_some findM?_eq_none)

/-! ## Searches -/

namespace Fallible

variable {ε α : Type} {answer : α → Except ε Bool} {xs : List α}

/-- Every item gets an answer, or none of them a positive one. -/
def Uniform (answer : α → Except ε Bool) (xs : List α) : Prop :=
  (∀ a ∈ xs, ∃ b, answer a = .ok b) ∨ ∀ a ∈ xs, answer a ≠ .ok true

theorem findM?_total {p : α → Except ε Bool} (h : ∀ a ∈ xs, ∃ b, p a = .ok b) : ∃ found, xs.findM? p = .ok found := by
  induction xs with
  | nil => exact ⟨none, rfl⟩
  | cons a rest ih =>
      obtain ⟨⟨b, hb⟩, hrest⟩ := List.forall_mem_cons.mp h
      rw [List.findM?, hb]
      cases b with
      | true => exact ⟨some a, rfl⟩
      | false => exact ih hrest

def asked (answer : α → Except ε Bool) (condition : α → Bool) (a : α) : Except ε Bool :=
  if condition a then answer a else .ok false

theorem asked_eq_true {condition : α → Bool} {a : α} :
    asked answer condition a = .ok true ↔ condition a = true ∧ answer a = .ok true := by
  unfold asked
  cases condition a <;> simp

theorem Uniform.asked_total (condition : α → Bool) (h : ∀ a ∈ xs, ∃ b, answer a = .ok b) :
    ∀ a ∈ xs, ∃ b, asked answer condition a = .ok b := by
  intro a ha
  unfold asked
  split
  · exact h a ha
  · exact ⟨false, rfl⟩

/-- A search among uniform answers finds something just if there is something to find. -/
theorem Uniform.exists_found (h : Uniform answer xs) (condition : α → Bool) :
    (∃ a, xs.findM? (asked answer condition) = .ok (some a)) ↔
      ∃ a ∈ xs, condition a = true ∧ answer a = .ok true := by
  constructor
  · rintro ⟨a, hfound⟩
    obtain ⟨ha, hanswer⟩ := findM?_eq_some hfound
    exact ⟨a, ha, asked_eq_true.mp hanswer⟩
  · rintro ⟨a, ha, hcondition, hanswer⟩
    obtain htotal | hnever := h
    · obtain ⟨found, hfound⟩ := findM?_total (Uniform.asked_total condition htotal)
      cases found with
      | some b => exact ⟨b, hfound⟩
      | none =>
          have hfalse := findM?_eq_none hfound a ha
          rw [asked_eq_true.mpr ⟨hcondition, hanswer⟩] at hfalse
          cases hfalse
    · exact absurd hanswer (hnever a ha)

def orSearch (first second : Except ε (Option α)) : Except ε (Option α) :=
  match first with
  | .ok none => second
  | outcome => outcome

theorem bind_eq_orSearch {first : Except ε (Option α)} {next : Option α → Except ε (Option α)}
    (h : ∀ a, next (some a) = .ok (some a)) : first >>= next = orSearch first (next none) := by
  cases first with
  | error failure => rfl
  | ok found =>
      cases found with
      | none => rfl
      | some a => exact h a

theorem Uniform.exists_found_either (h : Uniform answer xs) (narrow wide : α → Bool) :
    (∃ a, orSearch (xs.findM? (asked answer narrow)) (xs.findM? (asked answer wide)) = .ok (some a)) ↔
      ∃ a ∈ xs, (narrow a = true ∨ wide a = true) ∧ answer a = .ok true := by
  have hnarrow := h.exists_found narrow
  have hwide := h.exists_found wide
  cases hfirst : xs.findM? (asked answer narrow) with
  | error failure =>
      -- Where a question is refused, no answer is positive.
      have hnever : ∀ a ∈ xs, answer a ≠ .ok true := by
        refine h.resolve_left fun htotal => ?_
        obtain ⟨found, hfound⟩ := findM?_total (Uniform.asked_total narrow htotal)
        rw [hfirst] at hfound
        cases hfound
      refine iff_of_false (fun ⟨a, ha⟩ => by cases ha) ?_
      rintro ⟨a, ha, -, hanswer⟩
      exact hnever a ha hanswer
  | ok found =>
      rw [hfirst] at hnarrow
      cases found with
      | some b =>
          obtain ⟨a, ha, hcondition, hanswer⟩ := hnarrow.mp ⟨b, rfl⟩
          exact iff_of_true ⟨b, rfl⟩ ⟨a, ha, .inl hcondition, hanswer⟩
      | none =>
          refine hwide.trans ⟨?_, ?_⟩
          · rintro ⟨a, ha, hcondition, hanswer⟩
            exact ⟨a, ha, .inr hcondition, hanswer⟩
          · rintro ⟨a, ha, hcondition | hcondition, hanswer⟩
            · obtain ⟨b, hb⟩ := hnarrow.mpr ⟨a, ha, hcondition, hanswer⟩
              cases hb
            · exact ⟨a, ha, hcondition, hanswer⟩

theorem exists_worded {β : Type} {x : Except ε (Option α)} {word : α → β} :
    (∃ text, (do return (← x).map word : Except ε (Option β)) = .ok (some text)) ↔ ∃ a, x = .ok (some a) := by
  cases x with
  | error failure => exact iff_of_false (fun ⟨_, h⟩ => by cases h) fun ⟨_, h⟩ => by cases h
  | ok found =>
      cases found with
      | none => exact iff_of_false (fun ⟨_, h⟩ => by cases h) fun ⟨_, h⟩ => by cases h
      | some a => exact iff_of_true ⟨word a, rfl⟩ ⟨a, rfl⟩

end Fallible

/-! ## Amounts -/

/-- Two amounts whose difference is a number. -/
def Decimal.Comparable (a b : Decimal) : Prop :=
  a.isFinite = true ∧ b.isFinite = true ∧ |a.value| + |b.value| < 10 ^ 44 + 10 ^ 16

namespace Tolerance

/-- The allowance depends on the reference only: all amounts are compared with it, or none matches. -/
theorem amountsMatch_cases (t : Tolerance) (reference : Decimal) :
    (∀ amount : Decimal, amount.Comparable reference → ∃ answer, t.amountsMatch amount reference = .ok answer) ∨
      ∀ amount : Decimal, t.amountsMatch amount reference ≠ .ok true := by
  cases hallowance : t.allowance reference with
  | error fault =>
      refine .inr fun amount h => ?_
      obtain ⟨size, -, h⟩ := bind_eq_ok.mp h
      rw [hallowance] at h
      cases h
  | ok allowed =>
      cases hnumber : allowed.isNaN with
      | true =>
          refine .inr fun amount h => ?_
          obtain ⟨size, -, h⟩ := bind_eq_ok.mp h
          rw [hallowance] at h
          obtain ⟨ordering, horder, -⟩ := Fallible.map_eq_ok.mp h
          exact absurd (Decimal.number_of_order horder).2 (by simp [hnumber])
      | false =>
          refine .inl fun amount ⟨hfinite, hreference, hsizes⟩ => ?_
          obtain ⟨difference, hdifference, hbounded⟩ := Decimal.sub_of_sizes hfinite hreference hsizes
          obtain ⟨size, hsize, hsizeBounded⟩ := Decimal.abs_bounded hbounded
          obtain ⟨answer, hanswer⟩ := Decimal.le_of_finite hsizeBounded.finite hnumber
          have hdistance : distance amount reference = .ok size := bind_eq_ok.mpr ⟨difference, hdifference, hsize⟩
          refine ⟨answer, bind_eq_ok.mpr ⟨size, hdistance, ?_⟩⟩
          rw [hallowance]
          exact hanswer

end Tolerance

/-! ## Counterparts -/

/-- How near a candidate is to a tagged record: the counterpart of one that was missing has its source id, or a day in
the sweep's window; that of one whose day differed has both, in the narrow window. -/
def Near (t : Tolerance) (missing : ReviewTag) (tag : Option ReviewTag) (sourceId taggedId : String)
    (date tagged : Date) : Prop :=
  tag = some missing ∧ (sourceId = taggedId ∨ (date.daysApart tagged : Int) ≤ t.sweepWindow) ∨
    tag = some .timingDifference ∧ sourceId = taggedId ∧ (date.daysApart tagged : Int) ≤ t.timingWindow

/-- What resolves a tagged bank record: a group of its type, near enough, and within the allowance of the record. -/
structure LedgerCounterpart (t : Tolerance) (r : BankRecord) (g : Group) : Prop where
  transactionType : g.transactionType = r.transactionType
  amount : t.amountsMatch g.amount r.amount = .ok true
  near : Near t .missingInLedger r.review.tag g.sourceId r.sourceId g.date r.date

/-- What resolves a group with a tag: a bank record of its type, near enough, and within the allowance of the group. -/
structure BankCounterpart (t : Tolerance) (tag : ReviewTag) (g : Group) (r : BankRecord) : Prop where
  transactionType : r.transactionType = g.transactionType
  amount : t.amountsMatch r.amount g.amount = .ok true
  near : Near t .missingInBank (some tag) r.sourceId g.sourceId r.date g.date

namespace Candidates

open Fallible (Uniform asked orSearch bind_eq_orSearch exists_worded)

variable {t : Tolerance} {c : Candidates}

section Records

variable {r : BankRecord}

theorem uniform_groups {groups : List Group} (h : ∀ g ∈ groups, g.amount.Comparable r.amount) :
    Uniform (fun g : Group => t.amountsMatch g.amount r.amount)
      (groups.filter (·.transactionType = r.transactionType)) :=
  (t.amountsMatch_cases r.amount).imp (fun htotal g hg => htotal _ (h g (List.mem_of_mem_filter hg)))
    fun hnever _ _ => hnever _

theorem ledgerCounterpart_eq (r : BankRecord) (groups : List Group) :
    ledgerCounterpart t r groups = orSearch
      (groups.findM? (asked (fun g => t.amountsMatch g.amount r.amount) fun g => decide (g.sourceId = r.sourceId)))
      (groups.findM? (asked (fun g => t.amountsMatch g.amount r.amount)
        fun g => within t.sweepWindow g.date r.date)) := by
  unfold ledgerCounterpart
  exact bind_eq_orSearch fun _ => rfl

theorem near_group {near : Group → Prop} {groups : List Group}
    (hnear : ∀ g, near g ↔ Near t .missingInLedger r.review.tag g.sourceId r.sourceId g.date r.date) :
    (∃ g ∈ groups.filter (·.transactionType = r.transactionType),
        near g ∧ t.amountsMatch g.amount r.amount = .ok true) ↔ ∃ g ∈ groups, LedgerCounterpart t r g := by
  constructor
  · rintro ⟨g, hg, hclose, hamount⟩
    obtain ⟨hmem, htype⟩ := List.mem_filter.mp hg
    exact ⟨g, hmem, of_decide_eq_true htype, hamount, (hnear g).mp hclose⟩
  · rintro ⟨g, hmem, htype, hamount, hclose⟩
    exact ⟨g, List.mem_filter.mpr ⟨hmem, decide_eq_true htype⟩, (hnear g).mpr hclose, hamount⟩

/-- A tagged bank record is resolved just if one of the groups is its counterpart. -/
theorem reasonForRecord_iff (h : ∀ g ∈ c.groups, g.amount.Comparable r.amount) :
    (∃ reason, c.reasonForRecord t r = .ok (some reason)) ↔ ∃ g ∈ c.groups, LedgerCounterpart t r g := by
  have huniform := uniform_groups (t := t) h
  unfold reasonForRecord
  simp only []
  split
  · rename_i htag
    rw [ledgerCounterpart_eq]
    refine exists_worded.trans ((huniform.exists_found_either _ _).trans (near_group fun g => ?_))
    simp [Near, within, htag]
  · rename_i htag
    refine exists_worded.trans ((huniform.exists_found _).trans (near_group fun g => ?_))
    simp [Near, within, htag]
  · rename_i hledger htiming
    refine iff_of_false (fun ⟨_, hreason⟩ => by cases hreason) ?_
    rintro ⟨g, -, -, -, ⟨htag, -⟩ | ⟨htag, -⟩⟩
    · exact hledger htag
    · exact htiming htag

end Records

section Groups

variable {g : Group} {tag : ReviewTag}

theorem uniform_records {records : List BankRecord} (h : ∀ r ∈ records, r.amount.Comparable g.amount) :
    Uniform (fun r : BankRecord => t.amountsMatch r.amount g.amount)
      (records.filter (·.transactionType = g.transactionType)) :=
  (t.amountsMatch_cases g.amount).imp (fun htotal r hr => htotal _ (h r (List.mem_of_mem_filter hr)))
    fun hnever _ _ => hnever _

theorem bankCounterpart_eq (g : Group) (records : List BankRecord) :
    bankCounterpart t g records = orSearch
      (records.findM? (asked (fun r => t.amountsMatch r.amount g.amount) fun r => decide (r.sourceId = g.sourceId)))
      (records.findM? (asked (fun r => t.amountsMatch r.amount g.amount)
        fun r => within t.sweepWindow r.date g.date)) := by
  unfold bankCounterpart
  exact bind_eq_orSearch fun _ => rfl

theorem near_record {near : BankRecord → Prop} {records : List BankRecord}
    (hnear : ∀ r, near r ↔ Near t .missingInBank (some tag) r.sourceId g.sourceId r.date g.date) :
    (∃ r ∈ records.filter (·.transactionType = g.transactionType),
        near r ∧ t.amountsMatch r.amount g.amount = .ok true) ↔ ∃ r ∈ records, BankCounterpart t tag g r := by
  constructor
  · rintro ⟨r, hr, hclose, hamount⟩
    obtain ⟨hmem, htype⟩ := List.mem_filter.mp hr
    exact ⟨r, hmem, of_decide_eq_true htype, hamount, (hnear r).mp hclose⟩
  · rintro ⟨r, hmem, htype, hamount, hclose⟩
    exact ⟨r, List.mem_filter.mpr ⟨hmem, decide_eq_true htype⟩, (hnear r).mpr hclose, hamount⟩

/-- A group with a tag is resolved just if one of the bank records is its counterpart. -/
theorem reasonForGroup_iff (h : ∀ r ∈ c.records, r.amount.Comparable g.amount) :
    (∃ reason, c.reasonForGroup t tag g = .ok (some reason)) ↔ ∃ r ∈ c.records, BankCounterpart t tag g r := by
  have huniform := uniform_records (t := t) h
  unfold reasonForGroup
  simp only []
  split
  · rw [bankCounterpart_eq]
    refine exists_worded.trans ((huniform.exists_found_either _ _).trans (near_record fun r => ?_))
    simp [Near, within]
  · refine exists_worded.trans ((huniform.exists_found _).trans (near_record fun r => ?_))
    simp [Near, within]
  · rename_i hbank htiming
    refine iff_of_false (fun ⟨_, hreason⟩ => by cases hreason) ?_
    rintro ⟨r, -, -, -, ⟨htag, -⟩ | ⟨htag, -⟩⟩
    · exact hbank (Option.some.inj htag)
    · exact htiming (Option.some.inj htag)

end Groups

end Candidates

/-! ## The candidates of a goal -/

/-- A group of the postings of a goal that count, over all days. -/
def GroupOf (t : Tolerance) (s : Store) (goal : String) (g : Group) : Prop :=
  ∃ key, Group.build key
    ((Admission.onChannel t (s.postings (some goal) none)).filter fun p => decide (Store.keyOf p = key)) = .ok g

namespace Store

structure Moderate (s : Store) : Prop where
  bank : ∀ r ∈ s.bank, r.amount.Moderate
  ledger : ∀ p ∈ s.ledger, p.amount.Moderate

end Store

namespace Sweep

open Store (keyOf)

theorem groupOf_iff {t : Tolerance} {s : Store} {goal : String} {g : Group} :
    GroupOf t s goal g ↔
      ∃ pair ∈ Assoc.gather keyOf (Admission.onChannel t (s.postings (some goal) none)),
        Group.build pair.1 pair.2 = .ok g := by
  unfold GroupOf
  generalize Admission.onChannel t (s.postings (some goal) none) = postings
  constructor
  · rintro ⟨key, hg⟩
    refine ⟨(key, _), Assoc.mem_gather.mpr ⟨?_, rfl⟩, hg⟩
    -- Without postings, there is no group.
    cases hfilter : postings.filter fun p => decide (keyOf p = key) with
    | nil =>
        rw [hfilter] at hg
        cases hg
    | cons p rest =>
        have hp : p ∈ postings.filter fun p => decide (keyOf p = key) := hfilter ▸ List.mem_cons_self
        obtain ⟨hp, hkey⟩ := List.mem_filter.mp hp
        exact List.mem_map.mpr ⟨p, hp, of_decide_eq_true hkey⟩
  · rintro ⟨⟨key, members⟩, hpair, hg⟩
    obtain ⟨-, rfl⟩ := Assoc.mem_gather.mp hpair
    exact ⟨key, hg⟩

/-- Where all amounts are moderate, the groups of a goal are all built, and their totals are bounded. -/
theorem candidateGroups_moderate (t : Tolerance) {s : Store} (hs : s.Sound) (hmoderate : s.Moderate) (goal : String) :
    ∃ groups, candidateGroups t (s.postings (some goal) none) = .ok groups ∧
      (∀ g, g ∈ groups ↔ GroupOf t s goal g) ∧ ∀ g ∈ groups, g.amount.Bounded := by
  have hledger : ∀ p ∈ Admission.onChannel t (s.postings (some goal) none), p ∈ s.ledger := fun p hp =>
    (Store.mem_postings.mp (List.mem_of_mem_filter hp)).1
  have hgather := Group.gather_keyed fun p hp => (hs.keyed p (hledger p hp)).1
  have hmembers : ∀ pair ∈ Assoc.gather keyOf (Admission.onChannel t (s.postings (some goal) none)),
      ∀ p ∈ pair.2, p.amount.Moderate := by
    rintro ⟨key, members⟩ hpair p hp
    obtain ⟨-, rfl⟩ := Assoc.mem_gather.mp hpair
    exact hmoderate.ledger p (hledger p (List.mem_of_mem_filter hp))
  obtain ⟨groups, errors, hbuild, hgroups⟩ := Admission.buildGroups_moderate hmembers
  refine ⟨groups, ?_, fun g => (hgroups g).trans groupOf_iff.symm, fun g hg => ?_⟩
  · unfold candidateGroups
    rw [hgather]
    change (do return (← Admission.buildGroups (Assoc.gather keyOf _)).1) = _
    rw [hbuild]
    rfl
  · obtain ⟨pair, hpair, hg⟩ := (hgroups g).mp hg
    obtain ⟨g', hg', hbounded⟩ | ⟨problem, herror⟩ := Group.build_moderate pair.1 (hmembers pair hpair)
    · exact Except.ok.inj (hg'.symm.trans hg) ▸ hbounded
    · cases herror.symm.trans hg

end Sweep

end GoalReconciliation

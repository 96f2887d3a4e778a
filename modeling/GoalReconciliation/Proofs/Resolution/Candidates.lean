import GoalReconciliation.Proofs.Matching.Marks
import GoalReconciliation.Proofs.Run.Admission
import GoalReconciliation.Proofs.Sorting
import GoalReconciliation.Proofs.Store.Reviewed
import GoalReconciliation.Resolution.Sweep

/-!
# Counterparts are found whatever the reviews

* `candidateGroups_plain`, `bankRecords_plain`, `postings_plain` : the candidates of a store are those of the store
  without its reviews;
* `reasonForGroup_map` : why a group is resolved does not depend on what the matcher does not see of bank records;
* `reasonForRecord_plain`, `reasonForGroup_plain` : **why a tagged record is resolved does not depend on the reviews of
  its candidates**: those that were loaded before other records were resolved do as well.
-/

namespace GoalReconciliation

set_option autoImplicit false

def Group.plain (g : Group) : Group :=
  { g with review := {} }

def Candidates.plain (c : Candidates) : Candidates :=
  ⟨c.records.map BankRecord.plain, c.groups.map Group.plain⟩

/-! ## Groups -/

namespace Group

theorem build_plain (key : String) (postings : List Posting) :
    (build key (postings.map Posting.plain)).map plain = (build key postings).map plain := by
  cases postings with
  | nil => rfl
  | cons first rest =>
      have hsums : ((first :: rest).map Posting.plain).foldlM (addPosting key first.plain) (Decimal.zero, []) =
          (first :: rest).foldlM (addPosting key first) (Decimal.zero, []) := List.foldlM_map
      have hids : ((first :: rest).map Posting.plain).map Posting.id = (first :: rest).map Posting.id := List.map_map
      rw [List.map_cons] at hsums hids
      rw [List.map_cons, build, build, hsums, hids]
      cases (first :: rest).foldlM (addPosting key first) (Decimal.zero, []) with
      | error failure => rfl
      | ok sums => rfl

end Group

namespace Admission

def plainGroups (built : List Group × List RecordError) : List Group :=
  built.1.map Group.plain

theorem buildGroups_plain (keyed : List (String × List Posting)) :
    (buildGroups (keyed.map fun pair => (pair.1, pair.2.map Posting.plain))).map plainGroups =
      (buildGroups keyed).map plainGroups := by
  induction keyed with
  | nil => rfl
  | cons pair rest ih =>
      obtain ⟨key, members⟩ := pair
      have hbuilt := Group.build_plain key members
      rw [List.map_cons, buildGroups, buildGroups]
      revert hbuilt
      cases Group.build key (members.map Posting.plain) with
      | error failure =>
          cases Group.build key members with
          | ok g => exact fun hbuilt => by cases hbuilt
          | error failure' =>
              intro hbuilt
              obtain rfl := Except.error.inj hbuilt
              cases failure with
              | invalid problem => exact Fallible.map_map_congr ih fun _ _ h => h
              | _ => rfl
      | ok g =>
          cases Group.build key members with
          | error failure => exact fun hbuilt => by cases hbuilt
          | ok g' =>
              intro hbuilt
              have hg : g.plain = g'.plain := Except.ok.inj hbuilt
              refine Fallible.map_map_congr ih fun built built' h => ?_
              change g.plain :: plainGroups built = g'.plain :: plainGroups built'
              rw [hg, h]

end Admission

namespace Sweep

theorem candidateGroups_plain (t : Tolerance) (postings : List Posting) :
    (candidateGroups t (postings.map Posting.plain)).map (·.map Group.plain) =
      (candidateGroups t postings).map (·.map Group.plain) := by
  have hchannel : Admission.onChannel t (postings.map Posting.plain) =
      (Admission.onChannel t postings).map Posting.plain := List.filter_map
  have hgroups : ∀ keyed : List (String × List Posting),
      ((do return (← Admission.buildGroups keyed).1 : Except Failure (List Group))).map (·.map Group.plain) =
        (Admission.buildGroups keyed).map Admission.plainGroups := by
    intro keyed
    cases Admission.buildGroups keyed with
    | error failure => rfl
    | ok built => rfl
  unfold candidateGroups
  rw [hchannel, Group.gather_map (f := Posting.plain) fun _ => rfl]
  cases Group.gather (Admission.onChannel t postings) with
  | error problem => rfl
  | ok keyed => exact (hgroups _).trans ((Admission.buildGroups_plain keyed).trans (hgroups keyed).symm)

end Sweep

namespace Store

theorem bankRecords_plain (s : Store) (goal : Option String) (range : Option DateRange) :
    s.plain.bankRecords goal range = (s.bankRecords goal range).map BankRecord.plain := by
  refine Sorting.mergeSort_filter_map (f := BankRecord.plain) (fun _ => ?_) (fun _ _ => ?_) s.bank <;> rfl

theorem postings_plain (s : Store) (goal : Option String) (range : Option DateRange) :
    s.plain.postings goal range = (s.postings goal range).map Posting.plain := by
  refine Sorting.mergeSort_filter_map (f := Posting.plain) (fun _ => ?_) (fun _ _ => ?_) s.ledger <;> rfl

end Store

/-! ## Reasons -/

namespace Candidates

variable {t : Tolerance}

theorem findM?_plain {α : Type} {f : α → α} {p : α → Except Decimal.Fault Bool} (h : ∀ a, p (f a) = p a) (xs : List α) :
    (xs.map f).findM? p = (xs.findM? p).map (Option.map f) := by
  rw [Fallible.findM?_map, funext h]

theorem ledgerCounterpart_plain (r : BankRecord) (gs : List Group) :
    ledgerCounterpart t r (gs.map Group.plain) = (ledgerCounterpart t r gs).map (Option.map Group.plain) := by
  have hsource := findM?_plain (f := Group.plain)
    (p := fun g => andMatch t (g.sourceId = r.sourceId) g.amount r.amount) (fun _ => rfl) gs
  have hwindow := findM?_plain (f := Group.plain)
    (p := fun g => andMatch t (within t.sweepWindow g.date r.date) g.amount r.amount) (fun _ => rfl) gs
  rw [ledgerCounterpart, ledgerCounterpart, hsource, hwindow]
  cases gs.findM? fun g => andMatch t (g.sourceId = r.sourceId) g.amount r.amount with
  | error fault => rfl
  | ok found =>
      cases found with
      | some g => rfl
      | none => rfl

theorem ledgerTiming_plain (r : BankRecord) (gs : List Group) :
    ledgerTiming t r (gs.map Group.plain) = (ledgerTiming t r gs).map (Option.map Group.plain) :=
  Fallible.findM?_map Group.plain _ gs

theorem worded_map {α : Type} (f : α → α) (word : α → String) (h : ∀ a, word (f a) = word a)
    (x : Except Decimal.Fault (Option α)) :
    (do return (← x.map (Option.map f)).map word : Except Decimal.Fault (Option String)) =
      do return (← x).map word := by
  cases x with
  | error fault => rfl
  | ok found =>
      cases found with
      | none => rfl
      | some a => exact congrArg (fun text => Except.ok (some text)) (h a)

theorem reasonForRecord_plain (c : Candidates) (r : BankRecord) :
    c.plain.reasonForRecord t r = c.reasonForRecord t r := by
  have hgroups : c.plain.groups.filter (·.transactionType = r.transactionType) =
      (c.groups.filter (·.transactionType = r.transactionType)).map Group.plain := List.filter_map
  simp only [reasonForRecord, hgroups, ledgerCounterpart_plain, ledgerTiming_plain]
  cases r.review.tag with
  | none => rfl
  | some tag =>
      cases tag with
      | missingInLedger =>
          refine worded_map Group.plain _ ?_ _
          exact fun _ => rfl
      | timingDifference =>
          refine worded_map Group.plain _ ?_ _
          exact fun _ => rfl
      | _ => rfl

section Unseen

variable {f : BankRecord → BankRecord} (hf : Matching.Unseen f)

include hf

theorem bankCounterpart_map (g : Group) (rs : List BankRecord) :
    bankCounterpart t g (rs.map f) = (bankCounterpart t g rs).map (Option.map f) := by
  have hsource := findM?_plain (f := f) (p := fun r => andMatch t (r.sourceId = g.sourceId) r.amount g.amount)
    (fun r => by rw [hf.sourceId, hf.amount]) rs
  have hwindow := findM?_plain (f := f) (p := fun r => andMatch t (within t.sweepWindow r.date g.date) r.amount g.amount)
    (fun r => by rw [hf.date, hf.amount]) rs
  rw [bankCounterpart, bankCounterpart, hsource, hwindow]
  cases rs.findM? fun r => andMatch t (r.sourceId = g.sourceId) r.amount g.amount with
  | error fault => rfl
  | ok found =>
      cases found with
      | some r => rfl
      | none => rfl

theorem bankTiming_map (g : Group) (rs : List BankRecord) :
    bankTiming t g (rs.map f) = (bankTiming t g rs).map (Option.map f) :=
  findM?_plain (fun r => by rw [hf.sourceId, hf.date, hf.amount]) rs

theorem reasonForGroup_map (c : Candidates) (groups : List Group) (tag : ReviewTag) (g : Group) :
    reasonForGroup ⟨c.records.map f, groups⟩ t tag g = c.reasonForGroup t tag g := by
  have hrecords : (c.records.map f).filter (·.transactionType = g.transactionType) =
      (c.records.filter (·.transactionType = g.transactionType)).map f := by
    rw [List.filter_map]
    exact congrArg _ (List.filter_congr fun r _ => by simp [hf.transactionType])
  simp only [reasonForGroup, hrecords, bankCounterpart_map hf, bankTiming_map hf]
  cases tag with
  | missingInBank =>
      exact worded_map f foundInBank
        (fun r => congrArg ("Matching bank transaction found: " ++ ·) (hf.sourceId r)) _
  | timingDifference =>
      exact worded_map f (fun r => "Date now within tolerance. Ledger: " ++ g.date.toText ++ ", Bank: " ++
        r.date.toText) (fun r => congrArg (fun d => _ ++ Date.toText d) (hf.date r)) _
  | _ => rfl

end Unseen

theorem unseen_plain : Matching.Unseen BankRecord.plain := by
  constructor <;> intros <;> rfl

theorem reasonForGroup_plain (c : Candidates) (tag : ReviewTag) (g : Group) :
    c.plain.reasonForGroup t tag g = c.reasonForGroup t tag g :=
  reasonForGroup_map unseen_plain c _ tag g

end Candidates

end GoalReconciliation

import GoalReconciliation.Proofs.Run.Goal
import GoalReconciliation.Proofs.Run.Unseen
import GoalReconciliation.Proofs.Store.Parallels
import GoalReconciliation.Run.Batch

/-!
# A run on records that are read again

* `unseen_reread` : no run sees in which order the columns list the amounts of a record;
* `Group.gather_reread`, `Group.build_reread`, `ofLoaded_reread` : nor which form the zero units of a posting have;
* `plannedSaves_reread` : what it plans to save is what it would save of the records, as they are read again;
* `RunResult.ofGoal_parallels`, `BatchResult.ofChunk_parallels` : **a run, and the runs of a batch, do the same on a
  store and on a database**.
-/

namespace GoalReconciliation

set_option autoImplicit false

open Fallible (Alike)

/-! ## Bank records -/

theorem Header.checkBank_plain (h : Header) {amount : Decimal} {instruments : GivenAmounts}
    (hplain : instruments.Plain) (goal : String) :
    h.checkBank amount instruments goal = h.checkBank amount [] goal := by
  unfold Header.checkBank
  rw [Fallible.forM_ok fun entry hentry => ?_]
  · rfl
  · obtain ⟨word, hword⟩ := hplain.words entry hentry
    have hfinite := hplain.finite entry hentry
    obtain ⟨code, amount⟩ := entry
    cases hword
    exact if_pos hfinite

theorem Amounts.under_flatten (code : Listed Instrument) (all : List Amounts) :
    under code all.flatten = (all.map (under code)).flatten := by
  rw [under, List.filter_flatten, List.map_flatten, List.map_map]
  rfl

theorem unseen_reread : Unseen BankRecord.FitsRow BankRecord.reread where
  id _ := rfl
  sourceId _ := rfl
  transactionType _ := rfl
  date _ := rfl
  amount _ := rfl
  manual _ := rfl
  keys _ _ := rfl
  goalId _ := rfl
  reversal _ := rfl
  check r goal h := by
    have hplain := h.instruments
    have hreread := GivenAmounts.plain_reread hplain
    exact (Header.checkBank_plain _ hreread goal).trans (Header.checkBank_plain _ hplain goal).symm
  total rs hrs := by
    refine Amounts.total_alike (fun code => ?_) fun entry hentry => ?_
    · rw [Amounts.under_flatten, Amounts.under_flatten, List.map_map, List.map_map, List.map_map]
      refine congrArg List.flatten (List.map_congr_left fun r hr => ?_)
      exact congrArg (List.map Prod.snd) (GivenAmounts.filter_reread (hrs r hr).instruments code)
    · obtain ⟨amounts, hamounts, hentry⟩ := List.mem_flatten.mp hentry
      obtain ⟨r', hr', rfl⟩ := List.mem_map.mp hamounts
      obtain ⟨r, hr, rfl⟩ := List.mem_map.mp hr'
      exact ((GivenAmounts.plain_reread (hrs r hr).instruments).known hentry).2

/-! ## Postings -/

namespace Group

theorem gather_reread (postings : List Posting) :
    gather (postings.map Posting.reread) =
      (gather postings).map (List.map fun keyed => (keyed.1, keyed.2.map Posting.reread)) :=
  gather_map (f := Posting.reread) (fun _ => rfl) postings

theorem build_reread (key : String) (postings : List Posting) :
    build key (postings.map Posting.reread) = build key postings := by
  cases postings with
  | nil => rfl
  | cons first rest =>
      have hsums : ((first :: rest).map Posting.reread).foldlM (addPosting key first.reread) (Decimal.zero, []) =
          (first :: rest).foldlM (addPosting key first) (Decimal.zero, []) := List.foldlM_map
      have hreview : reviewOf ((first :: rest).map Posting.reread) = reviewOf (first :: rest) := by
        rw [reviewOf, reviewOf, List.find?_map, Option.map_map]
        rfl
      have hids : ((first :: rest).map Posting.reread).map Posting.id = (first :: rest).map Posting.id := List.map_map
      rw [List.map_cons] at hsums hreview hids ⊢
      unfold build
      simp only [hsums, hreview, hids]
      rfl

end Group

namespace Admission

theorem buildGroups_reread (keyed : List (String × List Posting)) :
    buildGroups (keyed.map fun entry => (entry.1, entry.2.map Posting.reread)) = buildGroups keyed := by
  induction keyed with
  | nil => rfl
  | cons entry rest ih =>
      obtain ⟨key, members⟩ := entry
      rw [List.map_cons, buildGroups, buildGroups, Group.build_reread, ih]

theorem onChannel_reread (t : Tolerance) (postings : List Posting) :
    onChannel t (postings.map Posting.reread) = (onChannel t postings).map Posting.reread :=
  List.filter_map

theorem ofLoaded_reread (t : Tolerance) (goal : String) {records : List BankRecord}
    (hrecords : ∀ r ∈ records, r.FitsRow) (postings : List Posting) :
    ofLoaded t goal (records.map BankRecord.reread) (postings.map Posting.reread) =
      (ofLoaded t goal records postings).map (changed BankRecord.reread) := by
  rw [unseen_reread.ofLoaded_map t goal hrecords]
  refine congrArg (Except.map _) ?_
  have hvalid : passing (fun p => p.check goal) ((onChannel t postings).map Posting.reread) =
      (passing (fun p => p.check goal) (onChannel t postings)).map Posting.reread := List.filter_map
  have hrefused : refusals (fun p => p.check goal) Posting.id ((onChannel t postings).map Posting.reread) =
      refusals (fun p => p.check goal) Posting.id (onChannel t postings) := List.filterMap_map
  unfold ofLoaded
  simp only [onChannel_reread, hvalid, hrefused, Group.gather_reread]
  cases Group.gather (passing (fun p => p.check goal) (onChannel t postings)) with
  | error problem => rfl
  | ok keyed =>
      change buildGroups (keyed.map fun entry => (entry.1, entry.2.map Posting.reread)) >>= _ = _
      rw [buildGroups_reread]
      rfl

end Admission

/-! ## What is planned -/

theorem marked?_reread (now : Timestamp) (m : ReconciledMatch) (r : BankRecord) :
    marked? now m r.reread = (marked? now m r).map BankRecord.reread := by
  simp only [marked?]
  rw [apply_ite (Option.map BankRecord.reread)]
  rfl

theorem unmarked?_reread (status : Status) (r : BankRecord) :
    unmarked? status r.reread = (unmarked? status r).map BankRecord.reread := by
  simp only [unmarked?]
  rw [apply_ite (Option.map BankRecord.reread)]
  rfl

theorem plannedSaves_reread (now : Timestamp) (records : List BankRecord) (r : RunResult) :
    plannedSaves now (records.map BankRecord.reread) r =
      (plannedSaves now records r).map (List.map BankRecord.reread) := by
  have hsaves : ∀ {mark : BankRecord → Option BankRecord},
      (∀ r, mark r.reread = (mark r).map BankRecord.reread) → ∀ ids : List String,
        (recordsById (records.map BankRecord.reread) ids).filterMap mark =
          ((recordsById records ids).filterMap mark).map BankRecord.reread := by
    intro mark hmark ids
    rw [unseen_reread.recordsById_map, List.filterMap_map, List.map_filterMap]
    exact List.filterMap_congr fun r _ => hmark r
  have hempty : (fun saved : List BankRecord => !saved.isEmpty) ∘ List.map BankRecord.reread =
      fun saved => !saved.isEmpty := funext fun saved => by cases saved <;> rfl
  unfold plannedSaves
  simp only [hsaves (marked?_reread now _), hsaves (unmarked?_reread _)]
  rw [← hempty, ← List.filter_map, List.map_append, List.map_map, List.map_map, hempty]
  rfl

theorem reservedKeys_reread (records manual : List BankRecord) :
    reservedKeys records (manual.map BankRecord.reread) = reservedKeys records manual := by
  rw [reservedKeys, reservedKeys, List.filter_map, List.flatMap_map]
  rfl

theorem RunResult.Planned.fits {prices : List (String × Decimal)} {now : Timestamp} {records : List BankRecord}
    {r : RunResult} {w : BankRecord} (h : Planned now records r w)
    (hrecords : ∀ r ∈ records, r.FitsRow ∧ r.price ∈ prices) : w.FitsRow ∧ w.price ∈ prices := by
  cases h with
  | marked _ _ hr _ => exact ⟨(hrecords _ hr).1.mark (show "system" ≠ "" by decide) _ _ now, (hrecords _ hr).2⟩
  | unmarked _ hr _ => exact ⟨(hrecords _ hr).1.clearMatch _, (hrecords _ hr).2⟩

/-! ## The run -/

open Procedure (Parallels parallels_pure parallels_throw parallels_lift parallels_query parallels_saveAll
  parallels_report parallels_inOrder parallels_inTurns)

namespace RunResult

variable {prices : List (String × Decimal)}

theorem persistOne_parallels (r : RunResult) {records : List BankRecord}
    (hfits : ∀ w ∈ records, w.FitsRow ∧ w.price ∈ prices) :
    Parallels prices Eq (r.persistOne records) (r.persistOne (records.map BankRecord.reread)) := by
  refine (parallels_saveAll (.cons (.bank (.inl rfl) hfits) .nil)).attempt.bind fun answer answer' hanswer => ?_
  cases hanswer with
  | ok _ =>
      refine parallels_pure ?_
      rw [List.length_map]
  | error failure =>
      cases failure with
      | storage fault =>
          refine parallels_pure ?_
          rw [List.map_map]
          rfl
      | _ => exact parallels_throw _

theorem persist_parallels (r : RunResult) {saves : List (List BankRecord)}
    (hfits : ∀ saved ∈ saves, ∀ w ∈ saved, w.FitsRow ∧ w.price ∈ prices) :
    Parallels prices Eq (r.persist saves) (r.persist (saves.map (List.map BankRecord.reread))) := by
  induction saves generalizing r with
  | nil => exact parallels_pure rfl
  | cons records rest ih =>
      obtain ⟨hrecords, hrest⟩ := List.forall_mem_cons.mp hfits
      refine (r.persistOne_parallels hrecords).bind fun next next' hnext => ?_
      subst hnext
      exact ih next hrest

/-- **A run does the same on a store and on a database.** -/
theorem ofGoal_parallels (t : Tolerance) (now : Timestamp) (goal : String) (range : DateRange) (persistent : Bool)
    (actor : String) :
    Parallels prices Eq (ofGoal t now goal range persistent actor) (ofGoal t now goal range persistent actor) := by
  refine (parallels_report _ _ _).bind fun _ _ _ => parallels_query (by exact trivial) fun s hs => ?_
  have hrecords : ∀ r ∈ s.bankRecords (some goal) (some range), r.FitsRow ∧ r.price ∈ prices := fun r hr =>
    hs.of_mem (Store.mem_bankRecords.mp hr).1
  refine parallels_query (by exact trivial) fun s' _ => ?_
  refine parallels_lift (Alike.of_map (Admission.ofLoaded_reread t goal (fun r hr => (hrecords r hr).1) _)) ?_
  rintro a _ ⟨ha, rfl⟩
  have hadmitted : ∀ r ∈ a.records, r.FitsRow ∧ r.price ∈ prices := fun r hr =>
    hrecords r ((Admission.ofLoaded_records ha).subset hr)
  refine parallels_query (by exact trivial) fun s'' _ => ?_
  have hfound : ofAdmission t goal range (a.changed BankRecord.reread)
      (reservedKeys (a.changed BankRecord.reread).records
        ((s''.manualMatches (some goal)).map BankRecord.reread)) =
      ofAdmission t goal range a (reservedKeys a.records (s''.manualMatches (some goal))) := by
    rw [unseen_reread.ofAdmission_map t goal range fun r hr => (hadmitted r hr).1, reservedKeys_reread]
    exact congrArg _ (unseen_reread.reservedKeys_map _ _)
  refine parallels_lift (R := Eq) (hfound ▸ .refl (fun _ => rfl) _) fun r r' hr => ?_
  subst hr
  have hreported : ∀ r : RunResult, Parallels prices Eq
      (Procedure.report (.runCompleted nilId r.counts r.persisted) (some goal) actor >>= fun _ => pure r)
      (Procedure.report (.runCompleted nilId r.counts r.persisted) (some goal) actor >>= fun _ => pure r) := fun r =>
    (parallels_report _ _ _).bind fun _ _ _ => parallels_pure rfl
  cases persistent with
  | false => exact hreported r
  | true =>
      refine Parallels.bind (R := Eq) ?_ fun r r' hr => hr ▸ hreported r
      change Parallels prices Eq (r.persist (plannedSaves now a.records r))
        (r.persist (plannedSaves now (a.records.map BankRecord.reread) r))
      rw [plannedSaves_reread]
      exact r.persist_parallels fun saved hsaved w hw =>
        (mem_plannedSaves (List.mem_flatten.mpr ⟨saved, hsaved, hw⟩)).fits hadmitted

end RunResult

/-! ## Runs for many goals -/

namespace BatchResult

variable {prices : List (String × Decimal)}

theorem Chunk.outcomes_parallels {α : Type} (chunk : Chunk) {procedures : List (Procedure α)}
    (h : ∀ p ∈ procedures, Parallels prices Eq p p) :
    Parallels prices Eq (chunk.outcomes procedures) (chunk.outcomes procedures) := by
  have hall : List.Forall₂ (Parallels prices Eq) procedures procedures := List.forall₂_same.mpr h
  have heq : ∀ {outcomes outcomes' : List (Except Failure α)}, List.Forall₂ (Alike Eq) outcomes outcomes' →
      outcomes = outcomes' := fun houtcomes => by
    rw [← List.forall₂_eq_eq_eq]
    exact houtcomes.imp fun _ _ halike => halike.eq
  unfold Chunk.outcomes
  split
  · exact (parallels_inTurns hall _).mono fun _ _ => heq
  · refine (parallels_inOrder ?_).mono fun _ _ => heq
    rw [List.forall₂_map_left_iff, List.forall₂_map_right_iff]
    exact hall.imp fun _ _ hp => hp.attempt

/-- **Runs for many goals do the same on a store and on a database.** -/
theorem ofChunk_parallels (t : Tolerance) (now : Timestamp) (range : DateRange) (chunk : Chunk) (actor : String) :
    Parallels prices Eq (ofChunk t now range chunk actor) (ofChunk t now range chunk actor) := by
  refine parallels_query (by exact trivial) fun s _ => ?_
  refine (chunk.outcomes_parallels fun p hp => ?_).bind fun outcomes outcomes' houtcomes => ?_
  · obtain ⟨goal, -, rfl⟩ := List.mem_map.mp hp
    exact RunResult.ofGoal_parallels t now goal range true actor
  · subst houtcomes
    exact (parallels_report _ _ _).bind fun _ _ _ => parallels_pure rfl

end BatchResult

end GoalReconciliation

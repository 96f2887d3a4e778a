import GoalReconciliation.Proofs.Resolution.Candidates
import GoalReconciliation.Proofs.Run.Rereading
import GoalReconciliation.Resolution.Report

/-!
# A sweep over records that are read again

* `Candidates.reread`, `reasonForGroup_reread` : candidates as they are read again resolve what the others resolve;
* `Sweep.Loaded.reread` : what is known of the candidates, as they are read again; `visitRecords_parallels`,
  `visitGroups_parallels` : the visits of one chunk;
* `Sweep.run_parallels`, `resolutionStats_parallels`, `ResolvedRow.report_parallels` : **a sweep, and the reports on
  what is resolved, are the same on a store and on a database**.
-/

namespace GoalReconciliation

set_option autoImplicit false

open Fallible (Alike)
open Procedure (Parallels parallels_pure parallels_lift parallels_query parallels_save parallels_saveAll
  parallels_report parallels_inOrder)

variable {prices : List (String × Decimal)}

/-! ## Candidates -/

namespace Candidates

def reread (c : Candidates) : Candidates :=
  { c with records := c.records.map BankRecord.reread }

theorem reasonForGroup_reread (c : Candidates) (t : Tolerance) (tag : ReviewTag) (g : Group) :
    c.reread.reasonForGroup t tag g = c.reasonForGroup t tag g :=
  reasonForGroup_map unseen_reread.toUnseen c _ tag g

end Candidates

/-! ## Visits -/

namespace Sweep

def Loaded.reread (loaded : Loaded) : Loaded :=
  loaded.map fun entry => (entry.1, entry.2.reread)

theorem candidateGroups_reread (t : Tolerance) (postings : List Posting) :
    candidateGroups t (postings.map Posting.reread) = candidateGroups t postings := by
  unfold candidateGroups
  rw [Admission.onChannel_reread, Group.gather_reread]
  cases Group.gather (Admission.onChannel t postings) with
  | error problem => rfl
  | ok keyed =>
      change Admission.buildGroups (keyed.map fun entry => (entry.1, entry.2.map Posting.reread)) >>= _ = _
      rw [Admission.buildGroups_reread]
      rfl

theorem candidates_parallels (t : Tolerance) (goal : String) (loaded : Loaded) :
    Parallels prices (fun known known' => known' = (known.1.reread, known.2.reread)) (candidates t goal loaded)
      (candidates t goal loaded.reread) := by
  have hget : Assoc.get? goal loaded.reread = (Assoc.get? goal loaded).map Candidates.reread :=
    Assoc.get?_map Candidates.reread goal loaded
  unfold candidates
  rw [hget]
  cases Assoc.get? goal loaded with
  | some c => exact parallels_pure rfl
  | none =>
      refine parallels_query (by exact trivial) fun s _ => ?_
      refine parallels_lift (Alike.of_eq (candidateGroups_reread t _)) ?_
      rintro _ groups ⟨-, rfl⟩
      refine parallels_query (by exact trivial) fun s' _ => parallels_pure ?_
      exact congrArg (Prod.mk _) (Assoc.put_map Candidates.reread goal ⟨s'.bankRecords (some goal) none, groups⟩ loaded)

theorem withCandidates_parallels (t : Tolerance) (goal : String) (loaded : Loaded)
    {visit visit' : Candidates → Procedure (Option ResolvedVariance)}
    (hvisit : ∀ c, Parallels prices Eq (visit c) (visit' c.reread)) :
    Parallels prices (fun known known' => known' = (known.1, known.2.reread))
      (withCandidates t goal loaded visit) (withCandidates t goal loaded.reread visit') := by
  refine (candidates_parallels t goal loaded).attempt.bind fun found found' hfound => ?_
  cases hfound with
  | error failure => exact parallels_pure rfl
  | @ok known known' hknown =>
      subst hknown
      refine (hvisit known.1).attempt.bind fun outcome outcome' houtcome => parallels_pure ?_
      rw [houtcome.eq]

theorem resolveRecord_parallels (t : Tolerance) (now : Timestamp) (batchId : String) {r : BankRecord}
    (hr : r.FitsRow ∧ r.price ∈ prices) (c : Candidates) :
    Parallels prices Eq (resolveRecord t now batchId r c) (resolveRecord t now batchId r.reread c.reread) := by
  refine parallels_lift (x := liftM (c.reasonForRecord t r)) (R := Eq) (.refl (fun _ => rfl) _)
    fun reason reason' hreason => ?_
  subst hreason
  have htag : r.reread.review.tag = r.review.tag := rfl
  simp only [htag]
  cases reason with
  | none => exact parallels_pure rfl
  | some reason =>
      cases r.review.tag with
      | none => exact parallels_pure rfl
      | some tag =>
          have hresolved : ({ r with review := r.review.resolve reason batchId now } : BankRecord).FitsRow :=
            ⟨hr.1.givenType, hr.1.instruments, hr.1.creator, hr.1.partner⟩
          refine (parallels_save (.bank (.inl rfl) ?_)).bind fun _ _ _ => parallels_pure rfl
          exact List.forall_mem_singleton.mpr ⟨hresolved, hr.2⟩

theorem visitRecords_parallels (t : Tolerance) (now : Timestamp) {records : List BankRecord}
    (hrecords : ∀ r ∈ records, r.FitsRow ∧ r.price ∈ prices) (result : SweepResult) (loaded : Loaded) :
    Parallels prices (fun known known' => known' = (known.1, known.2.reread))
      (visitRecords t now records result loaded)
      (visitRecords t now (records.map BankRecord.reread) result loaded.reread) := by
  induction records generalizing result loaded with
  | nil => exact parallels_pure rfl
  | cons r rest ih =>
      obtain ⟨hr, hrest⟩ := List.forall_mem_cons.mp hrecords
      refine (withCandidates_parallels t r.goalId loaded (resolveRecord_parallels t now result.batchId hr)).bind
        fun known known' hknown => ?_
      subst hknown
      exact ih hrest _ _

theorem resolveGroup_parallels (t : Tolerance) (now : Timestamp) (batchId : String) (g : Group) (tag : ReviewTag)
    {tagged : List Posting} (htagged : ∀ p ∈ tagged, p.FitsRow) (c : Candidates) :
    Parallels prices Eq (resolveGroup t now batchId g tag tagged c)
      (resolveGroup t now batchId g tag (tagged.map Posting.reread) c.reread) := by
  refine parallels_lift (x := liftM (c.reasonForGroup t tag g)) (R := Eq) ?_ fun reason reason' hreason => ?_
  · rw [Candidates.reasonForGroup_reread]
    exact .refl (fun _ => rfl) _
  · subst hreason
    cases reason with
    | none => exact parallels_pure rfl
    | some reason =>
        refine (parallels_saveAll (.cons ?_ .nil)).bind fun _ _ _ => parallels_pure rfl
        have hwritten : ((tagged.map Posting.reread).map fun p =>
            { p with review := p.review.resolve reason batchId now }) =
            (tagged.map fun p => { p with review := p.review.resolve reason batchId now }).map Posting.reread := by
          rw [List.map_map, List.map_map]
          rfl
        rw [hwritten]
        refine .postings fun w hw => ?_
        obtain ⟨p, hp, rfl⟩ := List.mem_map.mp hw
        exact ⟨(htagged p hp).givenInstrument, (htagged p hp).givenType, (htagged p hp).keyed⟩

theorem pending_reread (postings : List Posting) :
    pending (postings.map Posting.reread) = (pending postings).map Posting.reread :=
  List.filter_map

theorem taggedGroup_reread (key : String) (postings : List Posting) :
    taggedGroup key (postings.map Posting.reread) = taggedGroup key postings := by
  have htag : ((pending postings).map Posting.reread).head?.bind (fun p => p.review.tag) =
      (pending postings).head?.bind fun p => p.review.tag := by
    cases pending postings <;> rfl
  rw [taggedGroup, taggedGroup, pending_reread, htag, Group.build_reread]

theorem visitGroup_parallels (t : Tolerance) (now : Timestamp) (batchId key : String) (loaded : Loaded) :
    Parallels prices (fun known known' => known' = (known.1, known.2.reread)) (visitGroup t now batchId key loaded)
      (visitGroup t now batchId key loaded.reread) := by
  refine Parallels.bind (R := Alike fun postings others => (∀ p ∈ postings, p.FitsRow) ∧
    others = postings.map Posting.reread) ?_ fun found found' hfound => ?_
  · refine .query (by exact trivial) fun s hs => .done (.ok (.ok ⟨fun p hp => hs.ledger p ?_, rfl⟩))
    exact (List.mem_filter.mp ((Sorting.newestFirst_perm _ _ _).subset hp)).1
  · cases hfound with
    | error failure => exact parallels_pure rfl
    | @ok postings others hfits =>
        obtain ⟨hfits, rfl⟩ := hfits
        simp only [taggedGroup_reread, pending_reread]
        cases taggedGroup key postings with
        | error failure => exact parallels_pure rfl
        | ok found =>
            cases found with
            | none => exact parallels_pure rfl
            | some entry =>
                exact withCandidates_parallels t entry.2.goalId loaded
                  (resolveGroup_parallels t now batchId entry.2 entry.1 fun p hp => hfits p (List.mem_filter.mp hp).1)

theorem visitGroups_parallels (t : Tolerance) (now : Timestamp) (keys : List String) (result : SweepResult)
    (loaded : Loaded) :
    Parallels prices Eq (visitGroups t now keys result loaded) (visitGroups t now keys result loaded.reread) := by
  induction keys generalizing result loaded with
  | nil => exact parallels_pure rfl
  | cons key rest ih =>
      refine (visitGroup_parallels t now result.batchId key loaded).bind fun known known' hknown => ?_
      subst hknown
      exact ih _ _

theorem sized_limit {n : Int} (h : 0 ≤ n) : ∀ limit ∈ some n, 0 ≤ limit := fun _ hlimit =>
  Option.some.inj hlimit ▸ h

/-- **One chunk of a sweep does the same on a store and on a database.** -/
theorem run_parallels (t : Tolerance) (now : Timestamp) {sweep : Sweep} (hsize : 0 ≤ sweep.size) :
    Parallels prices Eq (sweep.run t now) (sweep.run t now) := by
  refine parallels_query (by exact sized_limit hsize) fun s hs => ?_
  have hrecords : ∀ r ∈ Store.limited (some sweep.size) (s.taggedBank (sweep.bankFilter sweep.bankCursor)),
      r.FitsRow ∧ r.price ∈ prices := fun r hr =>
    hs.of_mem (Store.mem_taggedBank.mp ((Store.limited_sublist _ _).subset hr)).1.1
  refine (visitRecords_parallels t now hrecords _ []).bind ?_
  rintro ⟨result, loaded⟩ _ rfl
  have hlength : List.length ((Query.taggedBank (sweep.bankFilter sweep.bankCursor) (some sweep.size)).reread
      (s.answer (.taggedBank (sweep.bankFilter sweep.bankCursor) (some sweep.size)))) =
      List.length (s.answer (.taggedBank (sweep.bankFilter sweep.bankCursor) (some sweep.size))) :=
    List.length_map _
  simp -zeta only [hlength]
  extract_lets room next next'
  have hnext : ∀ keys, Parallels prices Eq (next keys) (next' keys) := fun keys => by
    refine (visitGroups_parallels t now keys result loaded).bind fun result result' hresult => ?_
    subst hresult
    refine parallels_query (by exact trivial) fun s _ => parallels_query (by exact trivial) fun s' _ => ?_
    exact (parallels_report _ _ _).bind fun _ _ _ => parallels_pure rfl
  split
  · rename_i hroom
    exact parallels_query (by exact sized_limit hroom.le) fun s _ => hnext _
  · exact hnext []

end Sweep

/-! ## Reports -/

theorem TagStats.count_parallels (tag : ReviewTag) (resolved : Bool) (range : Option DateRange) :
    Parallels prices Eq (count tag resolved range) (count tag resolved range) :=
  parallels_query (by exact trivial) fun _ _ => parallels_query (by exact trivial) fun _ _ => parallels_pure rfl

theorem resolutionStats_parallels (range : Option DateRange) :
    Parallels prices Eq (resolutionStats range) (resolutionStats range) := by
  refine (parallels_inOrder (R := Eq) ?_).mono fun _ _ h => List.forall₂_eq_eq_eq ▸ h
  rw [List.forall₂_map_left_iff, List.forall₂_map_right_iff]
  refine List.forall₂_same.mpr fun tag _ => ?_
  refine (TagStats.count_parallels tag true range).bind fun resolved _ hresolved => ?_
  refine (TagStats.count_parallels tag false range).bind fun pending _ hpending => parallels_pure ?_
  rw [hresolved, hpending]

namespace ResolvedRow

theorem ofGroup_reread (tags : List ReviewTag) (goal : Option String) (key : String) (postings : List Posting) :
    ofGroup tags goal key (postings.map Posting.reread) = ofGroup tags goal key postings := by
  have hamounts : (postings.map Posting.reread).map Posting.amount = postings.map Posting.amount := List.map_map
  have hfind : (postings.map Posting.reread).find? (fun p => p.review.resolved && p.review.tag.any (tags.contains ·)) =
      (postings.find? fun p => p.review.resolved && p.review.tag.any (tags.contains ·)).map Posting.reread :=
    List.find?_map
  rw [ofGroup, ofGroup, hfind, hamounts]
  cases postings.find? fun p => p.review.resolved && p.review.tag.any (tags.contains ·) with
  | none => rfl
  | some first => rfl

theorem map_ofRecord_reread (goal : Option String) (records : List BankRecord) :
    ((records.map BankRecord.reread).filter fun r => isWanted goal r.goalId).map ofRecord =
      (records.filter fun r => isWanted goal r.goalId).map ofRecord := by
  rw [List.filter_map, List.map_map]
  rfl

theorem gather_alike (postings : List Posting) :
    Alike (fun groups groups' => groups' = groups.map fun keyed => (keyed.1, keyed.2.map Posting.reread))
      (liftM (Group.gather postings) : Except Failure (List (String × List Posting)))
      (liftM (Group.gather (postings.map Posting.reread))) := by
  rw [Group.gather_reread]
  cases Group.gather postings with
  | error problem => exact .error (Failure.invalid problem)
  | ok groups => exact .ok rfl

/-- **The report on what is resolved is the same on a store and on a database.** -/
theorem report_parallels (range : Option DateRange) (goal : Option String) (tag : Option ReviewTag) :
    Parallels prices Eq (report range goal tag) (report range goal tag) := by
  refine parallels_query (by exact nofun) fun s _ => parallels_query (by exact nofun) fun s' _ =>
    parallels_query (by exact trivial) fun s'' _ => ?_
  refine parallels_lift (gather_alike (s''.postingsByKey _)) fun groups _ hgroups => ?_
  subst hgroups
  have hrow : ∀ key, ofGroup ((tag.map ([·])).getD ReviewTag.autoResolvable) goal key
      ((Assoc.get? key (groups.map fun keyed => (keyed.1, keyed.2.map Posting.reread))).getD []) =
      ofGroup ((tag.map ([·])).getD ReviewTag.autoResolvable) goal key ((Assoc.get? key groups).getD []) := by
    intro key
    rw [Assoc.get?_map (List.map Posting.reread)]
    cases Assoc.get? key groups with
    | none => rfl
    | some postings => exact ofGroup_reread _ goal key postings
  simp only [hrow]
  refine parallels_lift (R := Eq) (.refl (fun _ => rfl) _) fun rows rows' hrows => parallels_pure ?_
  subst hrows
  exact congrArg (fun found => latestFirst (found ++ rows)) (map_ofRecord_reread goal _).symm

end ResolvedRow

end GoalReconciliation

import GoalReconciliation.Operation
import GoalReconciliation.Proofs.Run.ManualPrecedence
import GoalReconciliation.Proofs.Store.Guarantee
import GoalReconciliation.Proofs.Store.Listing

/-!
# What the operations write

Every operation reads records, and writes back what it makes of them; others may have written in between.

* `BankRecord.Marking`, `BankRecord.Editing`, `BankRecord.Pairing` : what runs, tags, operators' matches and sweeps make of
  a record, what all but the runs make of it, and what the making and the dissolving of reversal pairs makes of it;
* `BankRecord.Matching`, `BankRecord.Linking` : what runs and operators' matches make of a record, with its review;
* `Lasting`, `LastingBank` : a property of stores that such writes preserve, whenever the record was read;
* `checkSelection_eq_ok` : when an operator's selection can be matched, and what the match says;
* `ofGoal_lasts`, `ofChunk_lasts`, `apply_lasts`, `create_lasts`, `remove_lasts`, `run_lasts`, `link_lasts`,
  `unlink_lasts` : **each operation writes only what preserves it**.
-/

namespace GoalReconciliation

set_option autoImplicit false

open Fallible (bind_eq_ok pure_eq_ok)
open Matching Procedure

/-! ## What is made of a record -/

/-- A link that is written with a score and a status, at an instant. An operator's match is always certain. -/
structure MatchReference.Fits (link : MatchReference) (score : Int) (status : Status) (now : Timestamp) : Prop where
  created : link.createdAt = some now
  keys : link.groupKeys ≠ []
  keys_once : link.groupKeys.Nodup
  decided : status = .matched ∨ status = .autoApproved ∨ status = .manualReview
  manual : link.isManual = true → status = .matched ∧ score = 100

/-- What runs, tags, operators' matches and sweeps make of a record. -/
inductive BankRecord.Marking (r : BankRecord) : BankRecord → Prop
  | reviewed (review : Review) : Marking r { r with review := review }
  | cleared : Marking r r.clearMatch
  | missing : Marking r { r.clearMatch with status := .missingInLedger }
  | marked {link : MatchReference} {score : Int} {status : Status} {now : Timestamp}
      (h : link.Fits score status now) : Marking r (r.mark link score status now)

/-- What tags, operators' matches and sweeps make of a record. -/
inductive BankRecord.Editing (r : BankRecord) : BankRecord → Prop
  | reviewed (review : Review) : Editing r { r with review := review }
  | cleared : Editing r r.clearMatch
  | linked {link : MatchReference} {score : Int} {status : Status} {now : Timestamp}
      (h : link.Fits score status now) (hmanual : link.isManual = true) : Editing r (r.mark link score status now)

theorem BankRecord.Editing.marking {r w : BankRecord} (h : r.Editing w) : r.Marking w := by
  cases h with
  | reviewed review => exact .reviewed review
  | cleared => exact .cleared
  | linked h => exact .marked h

/-- What runs make of a record: its review stays. -/
def BankRecord.Matching (r w : BankRecord) : Prop :=
  r.Marking w ∧ w.review = r.review

/-- What operators' matches make of a record: its review stays. -/
def BankRecord.Linking (r w : BankRecord) : Prop :=
  r.Editing w ∧ w.review = r.review

/-- What the making and the dissolving of reversal pairs makes of a record. -/
inductive BankRecord.Pairing (r : BankRecord) : BankRecord → Prop
  | paired (review : Review) (link : Option ReversalLink) : Pairing r { r with review := review, reversal := link }

/-! ## Properties that last -/

def Held (C : Store → Prop) (r : BankRecord) : Prop :=
  ∃ s, C s ∧ r ∈ s.bank

/-- A property of stores that is preserved when something is made of a record that was read from some store with the
property. -/
structure LastingBank (U : BankRecord → BankRecord → Prop) (C : Store → Prop) : Prop where
  distinct : ∀ s, C s → (s.bank.map BankRecord.id).Nodup
  bank : ∀ r w, Held C r → U r w → ∀ s, C s → C (s.putBank w)

namespace LastingBank

variable {U : BankRecord → BankRecord → Prop} {C : Store → Prop}

theorem preserves (h : LastingBank U C) {records : List BankRecord} (hw : ∀ w ∈ records, ∃ r, Held C r ∧ U r w) :
    (Write.bank records).Preserves C := by
  intro w hmem
  obtain ⟨r, hr, hU⟩ := hw w hmem
  exact h.bank r w hr hU

theorem ensures_saveAll (h : LastingBank U C) {records : List BankRecord}
    (hw : ∀ w ∈ records, ∃ r, Held C r ∧ U r w) : (saveAll [.bank records]).Ensures C fun _ => True :=
  Procedure.ensures_saveAll (List.forall_mem_singleton.mpr (h.preserves hw))

end LastingBank

/-- A property of stores that is preserved when postings are stored, and when something is made of a record that was
read from some store with the property. -/
structure Lasting (U : BankRecord → BankRecord → Prop) (C : Store → Prop) : Prop where
  distinct : ∀ s, C s → (s.bank.map BankRecord.id).Nodup
  bank : ∀ r w, Held C r → U r w → ∀ s, C s → C (s.putBank w)
  posting : ∀ (p : Posting) (s s' : Store), s.putPosting p = .ok s' → C s → C s'

namespace Lasting

variable {U V : BankRecord → BankRecord → Prop} {C : Store → Prop}

theorem mono (h : Lasting V C) (hUV : ∀ r w, U r w → V r w) : Lasting U C :=
  ⟨h.distinct, fun r w hr hw => h.bank r w hr (hUV r w hw), h.posting⟩

theorem onBank (h : Lasting V C) (hUV : ∀ r w, U r w → V r w) : LastingBank U C :=
  ⟨h.distinct, fun r w hr hw => h.bank r w hr (hUV r w hw)⟩

theorem preserves (h : Lasting U C) {records : List BankRecord} (hw : ∀ w ∈ records, ∃ r, Held C r ∧ U r w) :
    (Write.bank records).Preserves C :=
  (h.onBank fun _ _ => id).preserves hw

theorem preserves_postings (h : Lasting U C) (postings : List Posting) : (Write.postings postings).Preserves C :=
  fun p _ => h.posting p

theorem ensures_saveAll (h : Lasting U C) {records : List BankRecord} (hw : ∀ w ∈ records, ∃ r, Held C r ∧ U r w) :
    (saveAll [.bank records]).Ensures C fun _ => True :=
  (h.onBank fun _ _ => id).ensures_saveAll hw

end Lasting

/-! ## Records that are read -/

section Reading

variable {C : Store → Prop}

theorem Store.mem_bankById {s : Store} {ids : List String} {r : BankRecord} (h : r ∈ s.bankById ids) : r ∈ s.bank := by
  obtain ⟨id, -, hfind⟩ := List.mem_filterMap.mp h
  exact List.mem_of_find?_eq_some hfind

theorem Store.mem_manualMatches {s : Store} {goal : Option String} {r : BankRecord} (h : r ∈ s.manualMatches goal) :
    r ∈ s.bank :=
  (List.mem_filter.mp ((Sorting.byText_perm _ _).subset h)).1

theorem ensures_bankById (ids : List String) : (bankById ids).Ensures C fun records => ∀ r ∈ records, Held C r := by
  refine ensures_mono (ensures_query (.bankById ids)) ?_
  rintro records ⟨s, hs, rfl⟩ r hr
  exact ⟨s, hs, Store.mem_bankById hr⟩

theorem ensures_manualMatches (goal : Option String) :
    (manualMatches goal).Ensures C fun records => ∀ r ∈ records, Held C r := by
  refine ensures_mono (ensures_query (.manualMatches goal)) ?_
  rintro records ⟨s, hs, rfl⟩ r hr
  exact ⟨s, hs, Store.mem_manualMatches hr⟩

theorem ensures_taggedBank (filter : TagFilter) (limit : Option Int) :
    (taggedBank filter limit).Ensures C fun records => ∀ r ∈ records, Held C r := by
  refine ensures_mono (ensures_query (.taggedBank filter limit)) ?_
  rintro records ⟨s, hs, rfl⟩ r hr
  exact ⟨s, hs, (Store.mem_taggedBank.mp ((Store.limited_sublist limit _).subset hr)).1.1⟩

theorem ensures_needRecords (ids : List String) :
    (needRecords ids).Ensures C fun records => ∀ r ∈ records, Held C r := by
  refine ensures_bind (ensures_bankById ids) fun records hrecords => ?_
  cases firstMissing? ids (records.map BankRecord.id) with
  | some id => trivial
  | none => exact hrecords

theorem ensures_needPostings (keys : List String) : (needPostings keys).Ensures C fun _ => True := by
  refine ensures_bind (ensures_query (.postingsByKey keys)) fun postings _ => ?_
  cases firstMissing? keys (List.filterMap Posting.groupKey postings) <;> trivial

end Reading

/-! ## Runs -/

namespace RunResult

variable {C : Store → Prop} {t : Tolerance} {now : Timestamp} {goal : String} {range : DateRange} {a : Admission}
  {reserved : List String} {r : RunResult}

/-- The status of a match is never one that a record without a match has. -/
theorem resolve_status (variances : List (Severity × Bool)) :
    (StatusDecision.resolve variances).status = .matched ∨ (StatusDecision.resolve variances).status = .autoApproved ∨
      (StatusDecision.resolve variances).status = .manualReview := by
  unfold StatusDecision.resolve
  split
  · exact .inl rfl
  · split
    · exact .inr (.inr rfl)
    · split
      · exact .inr (.inl rfl)
      · exact .inr (.inr rfl)

theorem judge_status {m : Match} {records : List BankRecord} {groups : List Group} {judged : ReconciledMatch}
    (h : ReconciledMatch.judge t m records groups = .ok judged) :
    judged.decision.status = .matched ∨ judged.decision.status = .autoApproved ∨
      judged.decision.status = .manualReview := by
  obtain ⟨variances, -, h⟩ := bind_eq_ok.mp h
  obtain rfl := pure_eq_ok.mp h
  exact resolve_status _

theorem ofAdmission_statuses (h : ofAdmission t goal range a reserved = .ok r) {m : ReconciledMatch}
    (hm : m ∈ r.found) :
    m.decision.status = .matched ∨ m.decision.status = .autoApproved ∨ m.decision.status = .manualReview := by
  obtain ⟨outcome, -, h⟩ := bind_eq_ok.mp h
  obtain ⟨found, hfound, h⟩ := bind_eq_ok.mp h
  obtain rfl := pure_eq_ok.mp h
  obtain ⟨pairing, -, hjudged⟩ := Fallible.mapM_mem hfound hm
  exact judge_status (Failure.lift_fault_ok.mp hjudged)

/-- A match of the passes names groups, each of them once. -/
theorem taken_keys {records : List BankRecord} {groups : List Group} {c : Matching.Claims} {m : Match}
    {rs : List BankRecord} {gs : List Group} (h : Matching.Taken t records groups c m rs gs) :
    m.groupKeys ≠ [] ∧ m.groupKeys.Nodup := by
  rw [h.pairs.groupKeys]
  refine ⟨fun hnone => ?_, h.groups_once⟩
  obtain rfl := List.map_eq_nil_iff.mp hnone
  have hchecked := h.checked
  generalize m.matchType = matchType at hchecked
  generalize m.withinTolerance = within at hchecked
  cases hchecked with
  | splitGroup hof hmany hbound hfound => simp at hmany

/-- What a run plans to write are markings of the admitted records, with their reviews. -/
theorem planned_marking (hrecords : (a.records.map BankRecord.id).Nodup) (hgroups : (a.groups.map Group.key).Nodup)
    (h : ofAdmission t goal range a reserved = .ok r) {w : BankRecord} (hw : Planned now a.records r w) :
    ∃ old ∈ a.records, old.Matching w := by
  obtain ⟨outcome, houtcome, hfound, hleft⟩ := ofAdmission_ok h
  obtain ⟨run⟩ := ofRecords_run hrecords hgroups houtcome
  cases hw with
  | @marked m old hm htype hold hid =>
      obtain ⟨before, rs, gs, -, -, htaken⟩ := run.added.each _ (found_new run hfound hm htype)
      obtain ⟨hkeys, honce⟩ := taken_keys htaken
      refine ⟨old, hold, .marked ⟨rfl, hkeys, honce, ofAdmission_statuses h hm, fun hmanual => ?_⟩, rfl⟩
      exact absurd (of_decide_eq_true hmanual) htype
  | @unmarked u old hu hold hid =>
      rw [hleft] at hu
      obtain ⟨left, -, rfl⟩ := List.mem_map.mp hu
      exact ⟨old, hold, .missing, rfl⟩

theorem ensures_persist {saves : List (List BankRecord)} (hw : ∀ w ∈ saves.flatten, ∀ s, C s → C (s.putBank w))
    (r : RunResult) : (r.persist saves).Ensures C fun _ => True := by
  induction saves generalizing r with
  | nil => trivial
  | cons records rest ih =>
      obtain ⟨hrecords, hrest⟩ := List.forall_mem_append.mp hw
      refine ensures_bind (R := fun _ => True) ?_ fun next _ => ih hrest next
      have hsave := Procedure.ensures_saveAll (List.forall_mem_singleton.mpr (show (Write.bank records).Preserves C from
        hrecords))
      refine ensures_bind (ensures_attempt hsave) fun outcome _ => ?_
      cases outcome with
      | ok _ => trivial
      | error failure => cases failure <;> trivial

/-- **A run writes only markings of what it has read**, and no reviews. -/
theorem ofGoal_lasts (h : LastingBank BankRecord.Matching C) (t : Tolerance) (now : Timestamp) (goal : String)
    (range : DateRange) (persistent : Bool) (actor : String) :
    (ofGoal t now goal range persistent actor).Ensures C fun _ => True := by
  refine ensures_bind (ensures_report _ _ _) fun _ _ => ?_
  refine ensures_bind (ensures_query (.bankRecords (some goal) (some range))) ?_
  rintro records ⟨s, hs, rfl⟩
  refine ensures_bind (ensures_query (.postings (some goal) (some range))) fun postings _ => ?_
  refine ensures_bind (ensures_done _) fun a ha => ?_
  refine ensures_bind (ensures_query (.manualMatches (some goal))) fun manual _ => ?_
  refine ensures_bind (ensures_done _) fun r hr => ?_
  have hsaves : (r.persist (plannedSaves now a.records r)).Ensures C fun _ => True := by
    refine ensures_persist (fun w hw => ?_) r
    obtain ⟨old, hold, hmarking⟩ := planned_marking (admitted_distinct (h.distinct s hs) ha)
      (Admission.ofLoaded_groups ha) hr (mem_plannedSaves hw)
    exact h.bank old w ⟨s, hs, admitted_of_store ha hold⟩ hmarking
  cases persistent with
  | false => trivial
  | true => exact ensures_bind hsaves fun r _ => ensures_bind (ensures_report _ _ _) fun _ _ => trivial

end RunResult

/-- **So do the runs of a batch**, in order or in turns. -/
theorem BatchResult.ofChunk_lasts {C : Store → Prop} (h : LastingBank BankRecord.Matching C) (t : Tolerance)
    (now : Timestamp) (range : DateRange) (chunk : BatchResult.Chunk) (actor : String) :
    (BatchResult.ofChunk t now range chunk actor).Ensures C fun _ => True := by
  refine ensures_bind (ensures_query (.goalIds (some range))) fun goals _ => ?_
  refine ensures_bind (R := fun _ => True) ?_ fun outcomes _ => ensures_bind (ensures_report _ _ _) fun _ _ => trivial
  have hruns : ∀ p ∈ (chunk.goals goals).map fun goal => RunResult.ofGoal t now goal range true actor,
      p.Ensures C fun _ => True := by
    intro p hp
    obtain ⟨goal, -, rfl⟩ := List.mem_map.mp hp
    exact RunResult.ofGoal_lasts h t now goal range true actor
  unfold BatchResult.Chunk.outcomes
  split
  · exact ensures_inTurns hruns _
  · refine ensures_inOrder (R := fun _ => True) fun p hp => ?_
    obtain ⟨q, hq, rfl⟩ := List.mem_map.mp hp
    exact ensures_mono (ensures_attempt (hruns q hq)) fun _ _ => trivial

/-! ## Tags and operators' matches -/

section Marks

variable {C : Store → Prop}

theorem Tagging.apply_lasts (h : Lasting BankRecord.Editing C) (tagging : Tagging) (now : Timestamp) :
    (tagging.apply now).Ensures C fun _ => True := by
  refine ensures_bind (ensures_needRecords _) fun records hrecords => ?_
  refine ensures_bind (ensures_needPostings _) fun postings _ => ?_
  refine ensures_bind (Procedure.ensures_saveAll ?_) fun _ _ => ensures_bind (ensures_report _ _ _) fun _ _ => trivial
  refine List.forall_mem_cons.mpr ⟨h.preserves fun w hw => ?_, List.forall_mem_singleton.mpr (h.preserves_postings _)⟩
  obtain ⟨r, hr, rfl⟩ := List.mem_map.mp hw
  exact ⟨r, hrecords r hr, .reviewed _⟩

namespace ManualMatch

/-- When a selection can be matched, and what the match says. -/
theorem checkSelection_eq_ok {t : Tolerance} {now : Timestamp} {actor : String} {bankIds groupKeys : List String}
    {records : List BankRecord} {postings : List Posting} {m : ManualMatch} :
    checkSelection t now actor bankIds groupKeys records postings = .ok m ↔
      ∃ goal totals, oneGoal records postings = .ok goal ∧ (∀ r ∈ records, r.hasManualMatch = false) ∧
        checkTotals t records postings = .ok totals ∧
        ⟨goal, ⟨.manual, groupKeys, actor, some now⟩, bankIds, groupKeys, totals.1, totals.2.1, totals.2.2⟩ = m := by
  have hheld : (!((records.filter BankRecord.hasManualMatch).map BankRecord.id).isEmpty) = true ↔
      ¬∀ r ∈ records, r.hasManualMatch = false := by
    simp [List.filter_eq_nil_iff]
  constructor
  · intro h
    obtain ⟨goal, hgoal, h⟩ := bind_eq_ok.mp h
    simp only [] at h
    split at h
    · cases h
    · rename_i hfree
      obtain ⟨totals, htotals, h⟩ := bind_eq_ok.mp h
      exact ⟨goal, totals, hgoal, not_not.mp fun hnot => hfree (hheld.mpr hnot), htotals, pure_eq_ok.mp h⟩
  · rintro ⟨goal, totals, hgoal, hfree, htotals, rfl⟩
    refine bind_eq_ok.mpr ⟨goal, hgoal, ?_⟩
    simp only []
    rw [if_neg fun h => hheld.mp h hfree]
    exact bind_eq_ok.mpr ⟨totals, htotals, rfl⟩

theorem create_lasts (h : LastingBank BankRecord.Linking C) (t : Tolerance) (now : Timestamp)
    (bankIds groupKeys : List String) (actor : String) :
    (create t now bankIds groupKeys actor).Ensures C fun _ => True := by
  unfold create
  simp only []
  split
  · trivial
  · rename_i hsome
    have hkeys : Assoc.distinct groupKeys ≠ [] := fun hnone => hsome (by simp [hnone])
    refine ensures_bind (ensures_needRecords _) fun records hrecords => ?_
    refine ensures_bind (ensures_needPostings _) fun postings _ => ?_
    refine ensures_bind (ensures_done _) fun m hm => ?_
    refine ensures_bind (h.ensures_saveAll fun w hw => ?_) fun _ _ =>
      ensures_bind (ensures_report _ _ _) fun _ _ => trivial
    obtain ⟨id, -, hw⟩ := List.mem_filterMap.mp hw
    obtain ⟨r, hfind, rfl⟩ := Option.map_eq_some_iff.mp hw
    refine ⟨r, hrecords r (List.mem_of_find?_eq_some hfind), ?_⟩
    obtain ⟨goal, totals, -, -, -, rfl⟩ := checkSelection_eq_ok.mp hm
    exact ⟨.linked ⟨rfl, hkeys, Assoc.nodup_distinct _, .inl rfl, fun _ => ⟨rfl, rfl⟩⟩ rfl, rfl⟩

theorem mem_addNew {selected more : List BankRecord} {r : BankRecord} (hr : r ∈ addNew selected more) :
    r ∈ selected ∨ r ∈ more := by
  induction more generalizing selected with
  | nil => exact .inl hr
  | cons x rest ih =>
      change r ∈ addNew (if (selected.map BankRecord.id).contains x.id then selected else selected ++ [x]) rest at hr
      rcases ih hr with hselected | hrest
      · split at hselected
        · exact .inl hselected
        · rcases List.mem_append.mp hselected with hold | hnew
          · exact .inl hold
          · exact .inr (List.mem_singleton.mp hnew ▸ List.mem_cons_self)
      · exact .inr (List.mem_cons_of_mem x hrest)

theorem ensures_addHolding {keys : List String} {selected : List BankRecord}
    (hselected : ∀ r ∈ selected, Held C r) :
    (addHolding keys selected).Ensures C fun records => ∀ r ∈ records, Held C r := by
  induction keys generalizing selected with
  | nil => exact hselected
  | cons key rest ih =>
      have hholding : (holding key).Ensures C fun records => ∀ r ∈ records, Held C r :=
        ensures_bind (ensures_manualMatches none) fun manual hmanual =>
          ensures_pure fun r hr => hmanual r (List.mem_filter.mp hr).1
      exact ensures_bind hholding fun more hmore => ih fun r hr => (mem_addNew hr).elim (hselected r) (hmore r)

theorem remove_lasts (h : LastingBank BankRecord.Linking C) (bankIds groupKeys : List String) (actor : String) :
    (remove bankIds groupKeys actor).Ensures C fun _ => True := by
  unfold remove
  extract_lets clear
  have hclear : ∀ named, (∀ r ∈ named, Held C r) → (clear named).Ensures C fun _ => True := by
    intro named hnamed
    refine ensures_bind (ensures_addHolding hnamed) fun selected hselected => ?_
    extract_lets matched finish
    split
    · refine ensures_bind (h.ensures_saveAll fun w hw => ?_) fun _ _ => trivial
      obtain ⟨r, hr, rfl⟩ := List.mem_map.mp hw
      exact ⟨r, hselected r (List.mem_filter.mp hr).1, .cleared, rfl⟩
    · trivial
  split
  · exact hclear [] (by simp)
  · exact ensures_bind (ensures_needRecords _) hclear

end ManualMatch

end Marks

/-! ## Sweeps -/

namespace Sweep

variable {C : Store → Prop}

theorem ensures_candidates (t : Tolerance) (goal : String) (loaded : Loaded) :
    (candidates t goal loaded).Ensures C fun _ => True := by
  unfold candidates
  cases Assoc.get? goal loaded with
  | some c => trivial
  | none =>
      refine ensures_bind (ensures_query (.postings (some goal) none)) fun postings _ => ?_
      refine ensures_bind (ensures_done _) fun groups _ => ?_
      exact ensures_bind (ensures_query (.bankRecords (some goal) none)) fun records _ => trivial

theorem ensures_withCandidates (t : Tolerance) (goal : String) (loaded : Loaded)
    {visit : Candidates → Procedure (Option ResolvedVariance)}
    (hvisit : ∀ c, (visit c).Ensures C fun _ => True) :
    (withCandidates t goal loaded visit).Ensures C fun _ => True := by
  refine ensures_bind (ensures_attempt (ensures_candidates t goal loaded)) fun outcome _ => ?_
  cases outcome with
  | error failure => trivial
  | ok found => exact ensures_bind (ensures_attempt (hvisit found.1)) fun _ _ => trivial

theorem ensures_resolveRecord (h : Lasting BankRecord.Editing C) (t : Tolerance) (now : Timestamp) (batchId : String)
    {r : BankRecord} (hr : Held C r) (c : Candidates) :
    (resolveRecord t now batchId r c).Ensures C fun _ => True := by
  refine ensures_bind (ensures_done _) fun reason _ => ?_
  cases reason with
  | none => trivial
  | some reason =>
      cases r.review.tag with
      | none => trivial
      | some tag =>
          refine ensures_bind (ensures_save (h.preserves fun w hw => ?_)) fun _ _ => trivial
          obtain rfl := List.mem_singleton.mp hw
          exact ⟨r, hr, .reviewed _⟩

theorem ensures_visitRecords (h : Lasting BankRecord.Editing C) (t : Tolerance) (now : Timestamp)
    {records : List BankRecord} (hrecords : ∀ r ∈ records, Held C r) (result : SweepResult) (loaded : Loaded) :
    (visitRecords t now records result loaded).Ensures C fun _ => True := by
  induction records generalizing result loaded with
  | nil => trivial
  | cons r rest ih =>
      obtain ⟨hr, hrest⟩ := List.forall_mem_cons.mp hrecords
      exact ensures_bind (ensures_withCandidates t r.goalId loaded (ensures_resolveRecord h t now result.batchId hr))
        fun visit _ => ih hrest _ visit.2

theorem ensures_visitGroup (h : Lasting BankRecord.Editing C) (t : Tolerance) (now : Timestamp) (batchId key : String)
    (loaded : Loaded) : (visitGroup t now batchId key loaded).Ensures C fun _ => True := by
  refine ensures_bind (ensures_attempt (ensures_query (.postingsByKey [key]))) fun outcome _ => ?_
  cases outcome with
  | error failure => trivial
  | ok postings =>
      simp only []
      split
      · trivial
      · trivial
      · refine ensures_withCandidates t _ loaded fun c => ensures_bind (ensures_done _) fun reason _ => ?_
        cases reason with
        | none => trivial
        | some reason =>
            refine ensures_bind (Procedure.ensures_saveAll ?_) fun _ _ => trivial
            exact List.forall_mem_singleton.mpr (h.preserves_postings _)

theorem ensures_visitGroups (h : Lasting BankRecord.Editing C) (t : Tolerance) (now : Timestamp) (keys : List String)
    (result : SweepResult) (loaded : Loaded) : (visitGroups t now keys result loaded).Ensures C fun _ => True := by
  induction keys generalizing result loaded with
  | nil => trivial
  | cons key rest ih =>
      exact ensures_bind (ensures_visitGroup h t now result.batchId key loaded) fun visit _ => ih _ visit.2

/-- **A sweep writes only reviews.** -/
theorem run_lasts (h : Lasting BankRecord.Editing C) (t : Tolerance) (now : Timestamp) (s : Sweep) :
    (s.run t now).Ensures C fun _ => True := by
  refine ensures_bind (ensures_taggedBank _ _) fun records hrecords => ?_
  refine ensures_bind (ensures_visitRecords h t now hrecords _ _) ?_
  rintro ⟨result, loaded⟩ -
  simp only []
  split
  · refine ensures_bind (ensures_query (.taggedKeys _ _)) fun keys _ => ?_
    refine ensures_bind (ensures_visitGroups h t now keys result loaded) fun result _ => ?_
    exact ensures_bind (ensures_query (.taggedBankCount _)) fun _ _ =>
      ensures_bind (ensures_query (.taggedKeyCount _)) fun _ _ => trivial
  · refine ensures_bind (ensures_pure (a := []) (R := fun _ => True) trivial) fun keys _ => ?_
    refine ensures_bind (ensures_visitGroups h t now keys result loaded) fun result _ => ?_
    exact ensures_bind (ensures_query (.taggedBankCount _)) fun _ _ =>
      ensures_bind (ensures_query (.taggedKeyCount _)) fun _ _ => trivial

end Sweep

/-! ## Reversal pairs -/

namespace Reversal

variable {C : Store → Prop}

theorem ensures_lookup (id : String) : (lookup id).Ensures C fun found => ∀ r ∈ found, Held C r :=
  ensures_bind (ensures_bankById [id]) fun _ hrecords =>
    ensures_pure fun _ hr => hrecords _ (List.mem_of_mem_head? hr)

theorem ensures_need (id : String) : (need id).Ensures C (Held C) := by
  refine ensures_bind (ensures_lookup id) fun found hfound => ?_
  cases found with
  | none => trivial
  | some r => exact hfound r rfl

theorem link_lasts (h : Lasting BankRecord.Pairing C) (t : Tolerance) (now : Timestamp) (idA idB actor : String) :
    (link t now idA idB actor).Ensures C fun _ => True := by
  unfold link
  simp only []
  split
  · trivial
  · refine ensures_bind (ensures_need idA) fun a ha => ?_
    refine ensures_bind (ensures_need idB) fun b hb => ?_
    refine ensures_bind (ensures_done _) fun net _ => ?_
    refine ensures_bind (h.ensures_saveAll ?_) fun _ _ => trivial
    exact List.forall_mem_cons.mpr ⟨⟨a, ha, .paired _ _⟩, List.forall_mem_singleton.mpr ⟨b, hb, .paired _ _⟩⟩

theorem unlink_lasts (h : Lasting BankRecord.Pairing C) (id actor : String) :
    (unlink id actor).Ensures C fun _ => True := by
  refine ensures_bind (ensures_need id) fun r hr => ?_
  cases r.reversal with
  | none => trivial
  | some held =>
      refine ensures_bind (ensures_lookup held.partnerId) fun partner hpartner => ?_
      refine ensures_bind (h.ensures_saveAll fun w hw => ?_) fun _ _ => trivial
      obtain ⟨released, hmem, rfl⟩ := List.mem_map.mp hw
      refine ⟨released, ?_, .paired _ _⟩
      rcases List.mem_cons.mp hmem with rfl | hback
      · exact hr
      · exact hpartner released (Option.mem_filter_iff.mp (Option.mem_toList.mp hback)).1

end Reversal

end GoalReconciliation

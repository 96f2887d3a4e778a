import GoalReconciliation.Proofs.Run.Saves
import GoalReconciliation.Proofs.Store.Parts
import GoalReconciliation.Run.Batch

/-!
# No group is spent twice

* `BankRecord.spends`, `Store.SpentOnce` : the groups that the matches of the passes take, and that no group is taken
  for two records unless it is split between them;
* `Store.Accounted` : moreover, each record with such a match could take part in the next run;
* `changes_cover`, `change_held` : a run decides anew on all records that take part, so that the matches of the passes
  are all its own afterwards;
* `change_accounted` : **so no group is spent twice after a run**, whatever the records held before;
* `ofGoal_settles`, `ofGoal_accounted`, `ofChunk_accounted` : runs whose ranges cover their goals keep all groups
  accounted for, one run or a batch of them, in order or in turns.
-/

namespace GoalReconciliation

set_option autoImplicit false

open Matching

/-! ## What is spent -/

namespace BankRecord

def hasAlgorithmicMatch (r : BankRecord) : Bool :=
  r.reference.any fun link => !link.isManual

/-- The passes have taken the group with this key for the record. -/
def spends (r : BankRecord) (key : String) : Bool :=
  r.reference.any fun link => !link.isManual && link.references key

/-- The records share the groups of one split. -/
def SplitWith (r r' : BankRecord) : Prop :=
  ∃ link link', r.reference = some link ∧ r'.reference = some link' ∧ link.matchType = .splitBankToGroup ∧
    link'.matchType = .splitBankToGroup ∧ link'.groupKeys = link.groupKeys

variable {r : BankRecord}

theorem hasAlgorithmicMatch_of_spends {key : String} (h : r.spends key = true) : r.hasAlgorithmicMatch = true := by
  unfold spends at h
  unfold hasAlgorithmicMatch
  cases hlink : r.reference with
  | none =>
      rw [hlink] at h
      cases h
  | some link =>
      rw [hlink] at h
      exact (Bool.and_eq_true_iff.mp h).1

theorem hasManualMatch_of_algorithmic (h : r.hasAlgorithmicMatch = true) : r.hasManualMatch = false := by
  unfold hasAlgorithmicMatch at h
  unfold hasManualMatch
  cases hlink : r.reference with
  | none => rfl
  | some link =>
      rw [hlink] at h
      simpa using h

theorem not_algorithmic_of_none (h : r.reference = none) : r.hasAlgorithmicMatch = false := by
  rw [hasAlgorithmicMatch, h]
  rfl

end BankRecord

namespace Store

/-- No group is taken for two records of a goal, unless it is split between them. -/
def SpentOnce (s : Store) : Prop :=
  ∀ r ∈ s.bank, ∀ r' ∈ s.bank, r'.goalId = r.goalId → r'.id ≠ r.id → ∀ key, r.spends key = true →
    r'.spends key = true → r.SplitWith r'

/-- No group is spent twice, and each record for which one is spent could take part in the next run. -/
structure Accounted (s : Store) : Prop where
  distinct : (s.bank.map BankRecord.id).Nodup
  matchable : ∀ r ∈ s.bank, r.hasAlgorithmicMatch = true → r.reversal = none ∧ (r.check r.goalId).toBool = true
  once : s.SpentOnce

def CoveredBy (s : Store) (goal : String) (range : DateRange) : Prop :=
  ∀ r ∈ s.bank, r.goalId = goal → range.contains r.date = true

instance (s : Store) (goal : String) (range : DateRange) : Decidable (s.CoveredBy goal range) :=
  inferInstanceAs (Decidable (∀ r ∈ s.bank, r.goalId = goal → range.contains r.date = true))

variable {s : Store}

theorem Accounted.part (h : s.Accounted) (goal : String) : (s.part goal).Accounted where
  distinct := part_distinct h.distinct goal
  matchable r hr := h.matchable r (mem_part.mp hr).1
  once r hr r' hr' := h.once r (mem_part.mp hr).1 r' (mem_part.mp hr').1

theorem accounted_of_parts (hs : (s.bank.map BankRecord.id).Nodup) (h : ∀ goal, (s.part goal).Accounted) :
    s.Accounted where
  distinct := hs
  matchable r hr := (h r.goalId).matchable r (mem_part.mpr ⟨hr, rfl⟩)
  once r hr r' hr' hgoal := (h r.goalId).once r (mem_part.mpr ⟨hr, rfl⟩) r' (mem_part.mpr ⟨hr', hgoal⟩) hgoal

end Store

/-! ## What a run leaves -/

/-- A match of two records is a split. -/
theorem Matching.Taken.split_of_two {t : Tolerance} {records : List BankRecord} {groups : List Group} {c : Claims}
    {m : Match} {rs : List BankRecord} {gs : List Group} (h : Taken t records groups c m rs gs) {id id' : String}
    (hid : id ∈ m.bankIds) (hid' : id' ∈ m.bankIds) (hne : id' ≠ id) : m.matchType = .splitBankToGroup := by
  rw [h.pairs.bankIds] at hid hid'
  have hchecked := h.checked
  generalize m.withinTolerance = within at hchecked
  generalize m.matchType = matchType at hchecked ⊢
  cases hchecked with
  | splitBank => rfl
  | _ => exact absurd ((List.mem_singleton.mp hid').trans (List.mem_singleton.mp hid).symm) hne

namespace RunResult

/-- What is written of a match leaves everything else of the record. -/
theorem outcome_marked (now : Timestamp) (m : ReconciledMatch) (r : BankRecord) :
    ∃ reference matchedAt score status, Change.outcome ⟨r, marked? now m r⟩ =
      { r with reference := reference, matchedAt := matchedAt, score := score, status := status } := by
  by_cases hheld : m.HeldBy r
  · exact ⟨r.reference, r.matchedAt, r.score, r.status, by rw [Change.outcome, marked?_of_held hheld]; rfl⟩
  · exact ⟨_, _, _, _, by rw [Change.outcome, marked?_of_not_held hheld]; rfl⟩

theorem key_of_spends {m : ReconciledMatch} {r : BankRecord} {key : String} (h : m.HeldBy r)
    (hspends : r.spends key = true) : key ∈ m.pairing.groupKeys := by
  obtain ⟨⟨link, hlink, -, hkeys⟩, -, -⟩ := h
  rw [BankRecord.spends, hlink] at hspends
  simpa [MatchReference.references, hkeys] using (Bool.and_eq_true_iff.mp hspends).2

section Changes

variable {t : Tolerance} (now : Timestamp) {a : Admission} {reserved : List String} {outcome : MatchOutcome}
  {r : RunResult} (run : Run t a.records a.groups reserved outcome)
  (hfound : r.found.map ReconciledMatch.pairing = outcome.made)
  (hleft : r.unmatchedBank = (recordsById a.records outcome.unmatchedBankIds).map Unmatched.ofRecord)
  (hrecords : (a.records.map BankRecord.id).Nodup)

include run hfound hleft hrecords

/-- A run decides on each record that takes part and that no operator has matched. -/
theorem changes_cover {old : BankRecord} (hold : old ∈ a.records) (hmanual : old.hasManualMatch = false) :
    ∃ c ∈ r.changes now a.records, c.old = old := by
  by_cases hfree : run.last.freeBank old = true
  · have hid : old.id ∈ outcome.unmatchedBankIds := by
      rw [run.unmatchedBank_eq]
      exact List.mem_map_of_mem (List.mem_filter.mpr ⟨hold, hfree⟩)
    refine ⟨⟨old, unmarked? (Unmatched.ofRecord old).status old⟩, (mem_changes hrecords).mpr (.inr ?_), rfl⟩
    refine ⟨Unmatched.ofRecord old, ?_, old, hold, rfl, rfl⟩
    rw [hleft]
    exact List.mem_map_of_mem ((mem_recordsById_iff hrecords).mpr ⟨hold, hid⟩)
  · have hstart := Claims.freeBank_iff.mp ((run.start_freeBank hrecords hold).mpr hmanual)
    rw [Claims.freeBank_iff, not_not, run.added.bank_eq] at hfree
    obtain ⟨pairing, hnew, hid⟩ := List.mem_flatMap.mp ((List.mem_append.mp hfree).resolve_left hstart)
    have hmade : pairing ∈ r.found.map ReconciledMatch.pairing := by
      rw [hfound, run.made_append]
      exact List.mem_append_right _ hnew
    obtain ⟨m, hm, rfl⟩ := List.mem_map.mp hmade
    refine ⟨⟨old, marked? now m old⟩, (mem_changes hrecords).mpr (.inl ?_), rfl⟩
    exact ⟨m, hm, by simpa [ReconciledMatch.isAlgorithmic] using run.added.kinds _ hnew, old, hold, hid, rfl⟩

/-- **After a run in which all records with matches of the passes take part, these matches are its own.** -/
theorem change_held {s : Store} (hs : (s.bank.map BankRecord.id).Nodup) (hstored : a.records ⊆ s.bank)
    (hcovered : ∀ x ∈ s.bank, x.hasAlgorithmicMatch = true → x ∈ a.records) {x : BankRecord}
    (hx : x ∈ (s.change (r.changes now a.records)).bank) (hmatch : x.hasAlgorithmicMatch = true) :
    ∃ m ∈ r.found, m.isAlgorithmic = true ∧ ∃ old ∈ a.records, old.id ∈ m.pairing.bankIds ∧
      x = Change.outcome ⟨old, marked? now m old⟩ := by
  have hchanges : s.Changes (r.changes now a.records) := changes_spec run hfound hleft hs hstored hrecords
  have hfind := (Store.bankRecord?_iff hchanges.distinct_after).mpr ⟨hx, rfl⟩
  by_cases hchanged : ∃ c ∈ r.changes now a.records, c.old.id = x.id
  · obtain ⟨c, hc, hid⟩ := hchanged
    rw [← hid, hchanges.changed hc] at hfind
    have houtcome := (Option.some.inj hfind).symm
    rcases (mem_changes hrecords).mp hc with ⟨m, hm, htype, old, hold, hmem, rfl⟩ | ⟨u, -, old, -, -, rfl⟩
    · exact ⟨m, hm, htype, old, hold, hmem, houtcome⟩
    · obtain ⟨hnone, -, -⟩ := holdsNone_outcome u.status old
      rw [houtcome, BankRecord.not_algorithmic_of_none hnone] at hmatch
      cases hmatch
  · -- a record that is not changed does not take part, and so has no match of the passes
    rw [hchanges.other fun c hc hid => hchanged ⟨c, hc, hid⟩] at hfind
    have hadmitted := hcovered x ((Store.bankRecord?_iff hs).mp hfind).1 hmatch
    obtain ⟨c, hc, rfl⟩ := changes_cover now run hfound hleft hrecords hadmitted
      (BankRecord.hasManualMatch_of_algorithmic hmatch)
    exact absurd ⟨c, hc, rfl⟩ hchanged

omit hleft hrecords in
/-- Two matches of the passes that name one group are the same. -/
theorem found_eq_of_key {m m' : ReconciledMatch} (hm : m ∈ r.found) (hm' : m' ∈ r.found)
    (htype : m.isAlgorithmic = true) (htype' : m'.isAlgorithmic = true) {key : String}
    (hkey : key ∈ m.pairing.groupKeys) (hkey' : key ∈ m'.pairing.groupKeys) : m'.pairing = m.pairing := by
  have hnew := found_new run hfound hm (by simpa [ReconciledMatch.isAlgorithmic] using htype)
  have hnew' := found_new run hfound hm' (by simpa [ReconciledMatch.isAlgorithmic] using htype')
  by_contra hne
  have : Std.Symm fun m m' : Match => m.groupKeys.Disjoint m'.groupKeys := ⟨fun _ _ h => h.symm⟩
  exact (List.nodup_flatMap.mp run.added.groups_once).2.forall hnew' hnew hne hkey' hkey

/-- **After such a run, no group is spent twice.** -/
theorem change_accounted {s : Store} {goal : String} (hs : (s.bank.map BankRecord.id).Nodup)
    (hstored : a.records ⊆ s.bank) (hcovered : ∀ x ∈ s.bank, x.hasAlgorithmicMatch = true → x ∈ a.records)
    (hadmitted : ∀ x ∈ a.records, x.goalId = goal ∧ x.reversal = none ∧ (x.check goal).toBool = true) :
    (s.change (r.changes now a.records)).Accounted where
  distinct := (changes_spec run hfound hleft hs hstored hrecords).distinct_after
  matchable x hx hmatch := by
    obtain ⟨m, -, -, old, hold, -, rfl⟩ := change_held now run hfound hleft hrecords hs hstored hcovered hx hmatch
    obtain ⟨rfl, hreversal, hcheck⟩ := hadmitted old hold
    obtain ⟨reference, matchedAt, score, status, houtcome⟩ := outcome_marked now m old
    rw [houtcome]
    exact ⟨hreversal, hcheck⟩
  once x hx x' hx' _ hne key hkey hkey' := by
    have hheld := fun y (hy : y ∈ (s.change (r.changes now a.records)).bank) (hspends : y.spends key = true) =>
      change_held now run hfound hleft hrecords hs hstored hcovered hy
        (BankRecord.hasAlgorithmicMatch_of_spends hspends)
    obtain ⟨m, hm, htype, old, -, hmem, rfl⟩ := hheld x hx hkey
    obtain ⟨m', hm', htype', old', -, hmem', rfl⟩ := hheld x' hx' hkey'
    have hsame := found_eq_of_key run hfound hm hm' htype htype' (key_of_spends (held_outcome now m old) hkey)
      (key_of_spends (held_outcome now m' old') hkey')
    have hids : old'.id ≠ old.id := by
      obtain ⟨_, _, _, _, houtcome⟩ := outcome_marked now m old
      obtain ⟨_, _, _, _, houtcome'⟩ := outcome_marked now m' old'
      rwa [houtcome, houtcome'] at hne
    obtain ⟨before, rs, gs, -, -, htaken⟩ :=
      run.added.each _ (found_new run hfound hm (by simpa [ReconciledMatch.isAlgorithmic] using htype))
    have hsplit := htaken.split_of_two hmem (hsame ▸ hmem') hids
    obtain ⟨⟨link, hlink, hlinkType, hkeys⟩, -, -⟩ := held_outcome now m old
    obtain ⟨⟨link', hlink', hlinkType', hkeys'⟩, -, -⟩ := held_outcome now m' old'
    exact ⟨link, link', hlink, hlink', hlinkType.trans hsplit,
      hlinkType'.trans ((congrArg Match.matchType hsame).trans hsplit),
      hkeys'.trans ((congrArg Match.groupKeys hsame).trans hkeys.symm)⟩

end Changes

theorem planned_same {now : Timestamp} {records : List BankRecord} {r : RunResult} {w : BankRecord}
    (h : Planned now records r w) : ∃ old ∈ records, w.id = old.id ∧ w.goalId = old.goalId := by
  cases h with
  | marked hm htype hr hid => exact ⟨_, hr, rfl, rfl⟩
  | unmarked hu hr hid => exact ⟨_, hr, rfl, rfl⟩

/-! ## Runs that cover their goals -/

section Runs

variable {Q : Store → Prop} {part : Store} {goal : String}

theorem settles_persist {β : Type} {saves : List (List BankRecord)} {r : RunResult} {f : RunResult → Procedure β}
    (hsaves : part.Owns goal saves.flatten)
    (hf : ∀ r', (f r').Settles goal Q (saves.flatten.foldl Store.putBank part)) :
    (r.persist saves >>= f).Settles goal Q part := by
  induction saves generalizing r part with
  | nil => exact hf r
  | cons records rest ih =>
      obtain ⟨hrecords, hrest⟩ := List.forall_mem_append.mp hsaves
      have hnames : (records.foldl Store.putBank part).bank.map BankRecord.id = part.bank.map BankRecord.id :=
        Store.names_foldl_putBank fun w hw => (hrecords w hw).2
      refine ⟨records, rfl, hrecords, ?_⟩
      refine ih (r := { r with persisted := r.persisted + records.length })
        (fun w hw => ⟨(hrest w hw).1, hnames ▸ (hrest w hw).2⟩) fun r' => ?_
      rw [← List.foldl_append]
      exact hf r'

/-- **A run whose range covers its goal keeps all groups of the goal accounted for**, whatever becomes of other goals in
the meantime. -/
theorem ofGoal_settles (t : Tolerance) (now : Timestamp) {range : DateRange} (persistent : Bool) (actor : String)
    (hpart : part.Accounted) (hcovers : part.CoveredBy goal range) :
    (ofGoal t now goal range persistent actor).Settles goal Store.Accounted part := by
  change Procedure.Settles goal _ (Procedure.query (.bankRecords (some goal) (some range)) >>= _) part
  refine Procedure.settles_query hpart fun s hs => ?_
  refine Procedure.settles_query hpart fun s' _ => Procedure.settles_lift hpart fun a ha => ?_
  refine Procedure.settles_query hpart fun _ _ => Procedure.settles_lift hpart fun r hr => ?_
  cases persistent with
  | false => exact hpart
  | true =>
      have hloaded : Admission.ofLoaded t goal (part.bankRecords (some goal) (some range))
          (s'.postings (some goal) (some range)) = .ok a := by
        rw [← hs.2, Store.bankRecords_part]
        exact ha
      obtain ⟨outcome, houtcome, hfound, hleft⟩ := ofAdmission_ok hr
      have hrecords := admitted_distinct hpart.distinct hloaded
      obtain ⟨run⟩ := ofRecords_run hrecords (Admission.ofLoaded_groups hloaded) houtcome
      have hstored := admitted_of_store hloaded
      have hgoal : ∀ x ∈ part.bank, x.goalId = goal := fun x hx => (Store.mem_part.mp (hs.2.symm ▸ hx)).2
      have hcovered : ∀ x ∈ part.bank, x.hasAlgorithmicMatch = true → x ∈ a.records := by
        intro x hx hmatch
        refine (Admission.mem_ofLoaded hloaded).mpr ⟨?_, hgoal x hx ▸ hpart.matchable x hx hmatch⟩
        refine (Sorting.newestFirst_perm _ _ _).symm.subset (List.mem_filter.mpr ⟨hx, ?_⟩)
        simp [Store.isGoal, DateRange.admits, hgoal x hx, hcovers x hx (hgoal x hx)]
      have haccounted := change_accounted now run hfound hleft hrecords hpart.distinct hstored hcovered
        fun x hx => ⟨hgoal x (hstored hx), ((Admission.mem_ofLoaded hloaded).mp hx).2⟩
      refine settles_persist (fun w hw => ?_) fun _ => ?_
      · obtain ⟨old, hold, hid, hsame⟩ := planned_same (mem_plannedSaves hw)
        exact ⟨hsame.trans (hgoal old (hstored hold)), hid ▸ List.mem_map_of_mem (hstored hold)⟩
      · rw [plannedSaves_flatten]
        exact haccounted

theorem ofGoal_accounted {faults : Option Faults} {m : Memory} {t : Tolerance} {now : Timestamp} {range : DateRange}
    {persistent : Bool} {actor : String} (hm : m.store.Accounted) (hcovers : m.store.CoveredBy goal range)
    (hgrants : (Memory.under faults).grants (ofGoal t now goal range persistent actor) m = true) :
    ((Memory.under faults).run (ofGoal t now goal range persistent actor) m).state.store.Accounted := by
  have hstart : Underway id Store.Accounted [(goal, ofGoal t now goal range persistent actor)] m.store := by
    refine .start [goal] (fun goal => ofGoal t now goal range persistent actor) hm.distinct rfl
      (List.nodup_singleton goal) (List.forall_mem_singleton.mpr ?_) fun other _ => hm.part other
    exact ofGoal_settles t now persistent actor (hm.part goal) fun r hr => hcovers r (Store.mem_part.mp hr).1
  have hend := Memory.run_underway hstart hgrants
  exact Store.accounted_of_parts hend.distinct fun other => hend.others other List.not_mem_nil

end Runs

end RunResult

/-! ## Batches -/

namespace BatchResult

variable {faults : Option Faults} {m : Memory}

theorem Chunk.run_outcomes {α : Type} {Q : Store → Prop} (chunk : Chunk) {goals : List String}
    {f : String → Procedure α} (hm : (m.store.bank.map BankRecord.id).Nodup) (hgoals : goals.Nodup)
    (heach : ∀ goal ∈ goals, (f goal).Settles goal Q (m.store.part goal))
    (hothers : ∀ goal, goal ∉ goals → Q (m.store.part goal))
    (hgrants : (Memory.under faults).grants (chunk.outcomes (goals.map f)) m = true) :
    ∀ goal, Q (((Memory.under faults).run (chunk.outcomes (goals.map f)) m).state.store.part goal) := by
  unfold Chunk.outcomes at hgrants ⊢
  split at hgrants
  · rename_i hturns
    rw [if_pos hturns]
    have hplaces : Underway (fun place => goals.getD place "") Q ((goals.map f).mapIdx fun place p => (place, p))
        m.store := by
      refine .start goals f hm ?_ hgoals heach hothers
      refine List.ext_getElem (by simp) fun i hi hi' => ?_
      rw [List.length_map] at hi'
      simp [List.getD_eq_getElem?_getD, List.getElem?_eq_getElem hi']
    exact Memory.run_inTurns hplaces hgrants
  · rename_i hturns
    rw [if_neg hturns]
    have hlist : (goals.map f).map Procedure.attempt =
        (goals.map fun goal => (goal, f goal)).map fun task => task.2.attempt := by
      rw [List.map_map, List.map_map]
      rfl
    rw [hlist] at hgrants ⊢
    have hnamed : Underway id Q (goals.map fun goal => (goal, f goal)) m.store :=
      .start goals f hm (List.map_id _) hgoals heach hothers
    exact Memory.run_inOrder hnamed hgrants

theorem Chunk.goals_once (chunk : Chunk) (s : Store) (range : Option DateRange) :
    (chunk.goals (s.goalIds range)).Nodup := by
  have hall : (s.goalIds range).Nodup := (List.mergeSort_perm _ _).nodup_iff.mpr (Assoc.nodup_distinct _)
  exact hall.sublist ((List.drop_sublist _ _).trans (List.take_sublist _ _))

/-- **A batch of such runs keeps all groups accounted for**, in order or in turns. -/
theorem ofChunk_accounted {t : Tolerance} {now : Timestamp} {range : DateRange} {chunk : Chunk} {actor : String}
    (hm : m.store.Accounted)
    (hcovers : ∀ goal ∈ chunk.goals (m.store.goalIds (some range)), m.store.CoveredBy goal range)
    (hgrants : (Memory.under faults).grants (ofChunk t now range chunk actor) m = true) :
    ((Memory.under faults).run (ofChunk t now range chunk actor) m).state.store.Accounted := by
  have hdistinct := Memory.run_distinct faults (ofChunk t now range chunk actor) hm.distinct
  refine Store.accounted_of_parts hdistinct ?_
  rcases Memory.under_query_cases faults (.goalIds (some range)) m with hanswer | ⟨failure, hanswer⟩
  · have heffect : (Memory.under faults).effect (Procedure.goalIds (some range)) m =
        (.ok (m.store.goalIds (some range)), m) := Prod.ext hanswer (Memory.under_query_state faults _ m)
    have hstate : ((Memory.under faults).run (ofChunk t now range chunk actor) m).state =
        ((Memory.under faults).run (chunk.outcomes ((chunk.goals (m.store.goalIds (some range))).map fun goal =>
          RunResult.ofGoal t now goal range true actor)) m).state :=
      (congrArg Prod.snd (Repository.effect_bind heffect)).trans (Repository.effect_bind_state _ fun _ _ => rfl)
    have houtcomes := (Memory.grants_query hanswer).symm.trans hgrants
    rw [Repository.grants_bind] at houtcomes
    rw [hstate]
    refine chunk.run_outcomes hm.distinct (chunk.goals_once m.store _) (fun goal hgoal => ?_)
      (fun goal _ => hm.part goal) ((Bool.and_eq_true _ _).mp houtcomes).1
    refine RunResult.ofGoal_settles t now true actor (hm.part goal) fun r hr => ?_
    exact hcovers goal hgoal r (Store.mem_part.mp hr).1
  · have heffect : (Memory.under faults).effect (Procedure.goalIds (some range)) m = (.error failure, m) :=
      Prod.ext hanswer (Memory.under_query_state faults _ m)
    have hstate : ((Memory.under faults).run (ofChunk t now range chunk actor) m).state = m :=
      congrArg Prod.snd (Repository.effect_bind_error heffect)
    rw [hstate]
    exact hm.part

end BatchResult

end GoalReconciliation

import GoalReconciliation.Proofs.Resolution.Chunks
import GoalReconciliation.Proofs.Store.Breaking

/-!
# A chunk whose saves may break

* `Visited`, `Visits` : visits each of which stores the resolution that it returns, or changes nothing;
* `effect_visitRecords_breaking`, `effect_visitGroups_breaking`, `effect_run_breaking` : **whichever saves break, the
  visits of a chunk are such visits, and its result notes them**.
-/

namespace GoalReconciliation.Sweep

set_option autoImplicit false

open Repository (effect_bind effect_bind_error effect_attempt effect_lift)
open Store (keyOf)

/-! ## Visits -/

section Visits

variable (now : Timestamp) (batchId : String)

/-- A visit stores the resolution that it returns, or returns none and changes nothing. -/
inductive Visited (s : Store) : Entry → Store → Prop
  | idle {task : Task} {outcome : Except Failure (Option ResolvedVariance)} (hnone : ∀ v, outcome ≠ .ok (some v)) :
      Visited s (task, outcome) s
  | record {r : BankRecord} {v : ResolvedVariance} (hside : v.side = .bank) (hname : v.recordId = r.id) :
      Visited s (.record r, .ok (some v)) (s.putBank { r with review := r.review.resolve v.reason batchId now })
  | group {key : String} {v : ResolvedVariance} {s' : Store} (hside : v.side = .ledger) (hname : v.recordId = key)
      (hstored : s.putPostings ((pending (s.postingsByKey [key])).map fun p =>
        { p with review := p.review.resolve v.reason batchId now }) = (.ok (), s')) :
      Visited s (.group key, .ok (some v)) s'

inductive Visits : Store → List Entry → Store → Prop
  | nil (s : Store) : Visits s [] s
  | cons {s s' s'' : Store} {entry : Entry} {entries : List Entry} (hfirst : Visited now batchId s entry s')
      (hrest : Visits s' entries s'') : Visits s (entry :: entries) s''

variable {now batchId}

theorem Visits.append {s s' s'' : Store} {entries others : List Entry} (h : Visits now batchId s entries s')
    (h' : Visits now batchId s' others s'') : Visits now batchId s (entries ++ others) s'' := by
  induction h with
  | nil => exact h'
  | cons hfirst _ ih => exact .cons hfirst (ih h')

theorem Visited.named {s s' : Store} {entry : Entry} (h : Visited now batchId s entry s') {v : ResolvedVariance}
    (hv : entry.resolved? = some v) : (v.side, v.recordId) = entry.1.name := by
  cases h with
  | idle hnone => exact absurd (Entry.outcome_of_resolved hv) (hnone v)
  | record hside hname =>
      obtain rfl := Option.some.inj hv
      exact Prod.ext hside hname
  | group hside hname hstored =>
      obtain rfl := Option.some.inj hv
      exact Prod.ext hside hname

theorem Visits.named {s s' : Store} {entries : List Entry} (h : Visits now batchId s entries s') :
    ∀ entry ∈ entries, ∀ v, entry.resolved? = some v → (v.side, v.recordId) = entry.1.name := by
  induction h with
  | nil => simp
  | cons hfirst _ ih => exact List.forall_mem_cons.mpr ⟨fun _ => hfirst.named, ih⟩

theorem Visits.ledger {s s' : Store} {entries : List Entry} (h : Visits now batchId s entries s')
    (hrecords : ∀ entry ∈ entries, ∃ r, entry.1 = .record r) : s'.ledger = s.ledger := by
  induction h with
  | nil => rfl
  | cons hfirst _ ih =>
      obtain ⟨⟨r, hr⟩, hrest⟩ := List.forall_mem_cons.mp hrecords
      refine (ih hrest).trans ?_
      cases hfirst with
      | idle hnone => rfl
      | record hside hname => rfl
      | group hside hname hstored => cases hr

end Visits

/-! ## A chunk -/

section Breaking

variable (pattern : Nat → Option Breakdown) (t : Tolerance) (now : Timestamp)

theorem candidates_reads (goal : String) (loaded : Loaded) : (candidates t goal loaded).Reads := by
  unfold candidates
  cases Assoc.get? goal loaded with
  | some c => trivial
  | none =>
      exact Procedure.reads_query fun postings => Procedure.reads_lift fun groups =>
        Procedure.reads_query fun records => trivial

/-- A visit fails for want of candidates, or is made with some. -/
theorem effect_withCandidates_breaking (goal : String) (loaded : Loaded)
    (visit : Candidates → Procedure (Option ResolvedVariance)) (s : Memory × Nat) :
    ∃ outcome loaded' s', (Memory.breaking pattern).effect (withCandidates t goal loaded visit) s =
        (.ok (outcome, loaded'), s') ∧
      ((∃ failure, outcome = .error failure) ∧ s' = s ∨
        ∃ c, (Memory.breaking pattern).effect (visit c) s = (outcome, s')) := by
  have hcandidates : (Memory.breaking pattern).effect (candidates t goal loaded).attempt s =
      (.ok ((Memory.breaking pattern).effect (candidates t goal loaded) s).1, s) := by
    rw [effect_attempt]
    exact Prod.ext rfl (Repository.run_state_of_reads (fun _ _ => rfl) (candidates_reads t goal loaded) s)
  unfold withCandidates
  rw [effect_bind hcandidates]
  cases ((Memory.breaking pattern).effect (candidates t goal loaded) s).1 with
  | error failure => exact ⟨.error failure, loaded, s, rfl, .inl ⟨⟨failure, rfl⟩, rfl⟩⟩
  | ok found =>
      obtain ⟨c, loaded'⟩ := found
      simp only []
      rw [effect_bind (effect_attempt (visit c))]
      exact ⟨_, loaded', _, rfl, .inr ⟨c, rfl⟩⟩

theorem effect_resolveRecord_breaking (batchId : String) (r : BankRecord) (c : Candidates) (s : Memory × Nat) :
    ∃ outcome s', (Memory.breaking pattern).effect (resolveRecord t now batchId r c) s = (outcome, s') ∧
      s'.1.depth = s.1.depth ∧ Visited now batchId s.1.store (.record r, outcome) s'.1.store := by
  obtain ⟨outcome, hdone, hnone⟩ | ⟨reason, tag, -, -, hresolve⟩ := resolveRecord_cases t now batchId r c
  · rw [hdone]
    exact ⟨outcome, s, rfl, rfl, .idle hnone⟩
  · rw [hresolve]
    obtain hsave | ⟨failure, hsave⟩ := Memory.effect_saveRecord pattern
      { r with review := r.review.resolve reason batchId now } s
    · rw [effect_bind hsave]
      exact ⟨_, _, rfl, rfl, .record rfl rfl⟩
    · rw [effect_bind_error hsave]
      exact ⟨_, _, rfl, rfl, .idle fun v h => by cases h⟩

theorem effect_resolveGroup_breaking (batchId : String) {key : String} {g : Group} (hkey : g.key = key)
    (tag : ReviewTag) (c : Candidates) {s : Memory × Nat} (hs : s.1.depth = 0) :
    ∃ outcome s', (Memory.breaking pattern).effect
        (resolveGroup t now batchId g tag (pending (s.1.store.postingsByKey [key])) c) s = (outcome, s') ∧
      s'.1.depth = 0 ∧ Visited now batchId s.1.store (.group key, outcome) s'.1.store := by
  obtain ⟨outcome, hdone, hnone⟩ | ⟨reason, -, hresolve⟩ :=
    resolveGroup_cases t now batchId g tag (pending (s.1.store.postingsByKey [key])) c
  · rw [hdone]
    exact ⟨outcome, s, rfl, hs, .idle hnone⟩
  · rw [hresolve]
    obtain ⟨s', hdepth, ⟨hsave, hstored⟩ | ⟨⟨failure, hsave⟩, hkept⟩⟩ :=
      Memory.effect_saveAllPostings pattern ((pending (s.1.store.postingsByKey [key])).map fun p =>
        { p with review := p.review.resolve reason batchId now }) hs
    · rw [effect_bind hsave]
      exact ⟨_, s', rfl, hdepth, .group rfl hkey hstored⟩
    · rw [effect_bind_error hsave]
      refine ⟨_, s', rfl, hdepth, ?_⟩
      rw [hkept]
      exact .idle fun v h => by cases h

theorem effect_visitRecords_breaking (records : List BankRecord) (loaded : Loaded) {result : SweepResult}
    {batchId : String} (hbatch : result.batchId = batchId) {s : Memory × Nat} (hs : s.1.depth = 0) :
    ∃ entries loaded' s', (Memory.breaking pattern).effect (visitRecords t now records result loaded) s =
        (.ok (entries.foldl noteEntry result, loaded'), s') ∧
      s'.1.depth = 0 ∧ entries.map Prod.fst = records.map .record ∧
      Visits now batchId s.1.store entries s'.1.store := by
  induction records generalizing result loaded s with
  | nil => exact ⟨[], loaded, s, rfl, hs, rfl, .nil _⟩
  | cons r rest ih =>
      subst hbatch
      obtain ⟨outcome, loaded', s', hvisit, hcases⟩ := effect_withCandidates_breaking pattern t r.goalId
        loaded (resolveRecord t now result.batchId r) s
      have hvisited : s'.1.depth = 0 ∧ Visited now result.batchId s.1.store (.record r, outcome) s'.1.store := by
        obtain ⟨⟨failure, rfl⟩, rfl⟩ | ⟨c, hresolve⟩ := hcases
        · exact ⟨hs, .idle fun v h => by cases h⟩
        · obtain ⟨outcome', s'', hresolve', hdepth, hvisited⟩ :=
            effect_resolveRecord_breaking pattern t now result.batchId r c s
          obtain ⟨rfl, rfl⟩ := Prod.mk.inj (hresolve.symm.trans hresolve')
          exact ⟨hdepth.trans hs, hvisited⟩
      have hnoted : (noteEntry result (.record r, outcome)).batchId = result.batchId := note_batchId _ _ _
      obtain ⟨entries, loaded'', final, hrest, hdepth, htasks, hvisits⟩ := ih loaded' hnoted hvisited.1
      refine ⟨(.record r, outcome) :: entries, loaded'', final, ?_, hdepth, congrArg _ htasks, .cons hvisited.2 hvisits⟩
      unfold visitRecords
      rw [effect_bind hvisit]
      exact hrest

theorem effect_visitGroup_breaking (batchId key : String) (loaded : Loaded) {s : Memory × Nat} (hs : s.1.depth = 0) :
    ∃ outcome loaded' s', (Memory.breaking pattern).effect (visitGroup t now batchId key loaded) s =
        (.ok (outcome, loaded'), s') ∧
      s'.1.depth = 0 ∧ Visited now batchId s.1.store (.group key, outcome) s'.1.store := by
  have hpostings : (Memory.breaking pattern).effect (Procedure.postingsByKey [key]).attempt s =
      (.ok (.ok (s.1.store.postingsByKey [key])), s) := rfl
  unfold visitGroup
  rw [effect_bind hpostings]
  simp only []
  cases htagged : taggedGroup key (s.1.store.postingsByKey [key]) with
  | error failure => exact ⟨_, loaded, s, rfl, hs, .idle fun v h => by cases h⟩
  | ok found =>
      cases found with
      | none => exact ⟨_, loaded, s, rfl, hs, .idle fun v h => by cases h⟩
      | some pair =>
          obtain ⟨tag, g⟩ := pair
          obtain ⟨outcome, loaded', s', hvisit, hcases⟩ := effect_withCandidates_breaking pattern t
            g.goalId loaded (resolveGroup t now batchId g tag (pending (s.1.store.postingsByKey [key]))) s
          refine ⟨outcome, loaded', s', hvisit, ?_⟩
          obtain ⟨⟨failure, rfl⟩, rfl⟩ | ⟨c, hresolve⟩ := hcases
          · exact ⟨hs, .idle fun v h => by cases h⟩
          · obtain ⟨outcome', s'', hresolve', hdepth, hvisited⟩ :=
              effect_resolveGroup_breaking pattern t now batchId (taggedGroup_key htagged) tag c hs
            obtain ⟨rfl, rfl⟩ := Prod.mk.inj (hresolve.symm.trans hresolve')
            exact ⟨hdepth, hvisited⟩

theorem effect_visitGroups_breaking (keys : List String) (loaded : Loaded) {result : SweepResult} {batchId : String}
    (hbatch : result.batchId = batchId) {s : Memory × Nat} (hs : s.1.depth = 0) :
    ∃ entries s', (Memory.breaking pattern).effect (visitGroups t now keys result loaded) s =
        (.ok (entries.foldl noteEntry result), s') ∧
      entries.map Prod.fst = keys.map .group ∧ Visits now batchId s.1.store entries s'.1.store := by
  induction keys generalizing result loaded s with
  | nil => exact ⟨[], s, rfl, rfl, .nil _⟩
  | cons key rest ih =>
      subst hbatch
      obtain ⟨outcome, loaded', s', hvisit, hdepth, hvisited⟩ :=
        effect_visitGroup_breaking pattern t now result.batchId key loaded hs
      have hnoted : (noteEntry result (.group key, outcome)).batchId = result.batchId := note_batchId _ _ _
      obtain ⟨entries, final, hrest, htasks, hvisits⟩ := ih loaded' hnoted hdepth
      refine ⟨(.group key, outcome) :: entries, final, ?_, congrArg _ htasks, .cons hvisited hvisits⟩
      unfold visitGroups
      rw [effect_bind hvisit]
      exact hrest

theorem effect_finish_breaking (keys : List String) (loaded : Loaded) {result : SweepResult} {sweep : Sweep}
    (hbatch : result.batchId = sweep.batchId) {s : Memory × Nat} (hs : s.1.depth = 0) :
    ∃ entries remaining s', (Memory.breaking pattern).effect (finish t now keys result loaded sweep) s =
        (.ok ((entries.foldl noteEntry result).close remaining), s') ∧
      entries.map Prod.fst = keys.map .group ∧ Visits now sweep.batchId s.1.store entries s'.1.store := by
  obtain ⟨entries, s', hvisit, htasks, hvisits⟩ := effect_visitGroups_breaking pattern t now keys loaded hbatch hs
  unfold finish
  rw [effect_bind hvisit]
  exact ⟨entries, _, s', rfl, htasks, hvisits⟩

/-- Whichever saves break, a chunk visits the tasks that it lists, in turn. -/
theorem effect_run_breaking (sweep : Sweep) {s : Memory × Nat} (hs : s.1.depth = 0) :
    ∃ entries remaining s', (Memory.breaking pattern).effect (run t now sweep) s =
        (.ok ((sweep.noted entries).close remaining), s') ∧
      entries.map Prod.fst = sweep.listed s.1.store ∧ Visits now sweep.batchId s.1.store entries s'.1.store := by
  have hbank : (Memory.breaking pattern).effect
      (Procedure.taggedBank (sweep.bankFilter sweep.bankCursor) (some sweep.size)) s =
      (.ok (Store.limited (some sweep.size) (s.1.store.taggedBank (sweep.bankFilter sweep.bankCursor))), s) := rfl
  have hkeys : ∀ (f : TagFilter) (limit : Option Int) (s : Memory × Nat),
      (Memory.breaking pattern).effect (Procedure.taggedKeys f limit) s =
        (.ok (Store.limited limit (s.1.store.taggedKeys f)), s) := fun _ _ _ => rfl
  unfold listed
  simp only []
  generalize Store.limited (some sweep.size) (s.1.store.taggedBank (sweep.bankFilter sweep.bankCursor)) = records
    at hbank
  obtain ⟨entries, loaded, s', hvisit, hdepth, htasks, hvisits⟩ :=
    effect_visitRecords_breaking pattern t now records [] (show sweep.start.batchId = sweep.batchId from rfl) hs
  -- The visits of bank records leave the listing of keys as it was.
  have hledger : s'.1.store.ledger = s.1.store.ledger := hvisits.ledger fun entry hentry => by
    have htask : entry.1 ∈ records.map Task.record := htasks ▸ List.mem_map_of_mem hentry
    obtain ⟨r, -, hr⟩ := List.mem_map.mp htask
    exact ⟨r, hr.symm⟩
  have hlisting : ∀ f, s'.1.store.taggedKeys f = s.1.store.taggedKeys f := fun f => by
    unfold Store.taggedKeys
    rw [hledger]
  have hfinish : ∀ keys : List String, ∃ all remaining final,
      (Memory.breaking pattern).effect (finish t now keys (entries.foldl noteEntry sweep.start) loaded sweep) s' =
        (.ok ((sweep.noted all).close remaining), final) ∧
      all.map Prod.fst = records.map .record ++ keys.map .group ∧
      Visits now sweep.batchId s.1.store all final.1.store := by
    intro keys
    obtain ⟨others, remaining, final, hfinish, hothers, hrest⟩ :=
      effect_finish_breaking pattern t now keys loaded (foldl_noteEntry_batchId entries sweep.start) hdepth
    refine ⟨entries ++ others, remaining, final, ?_, ?_, hvisits.append hrest⟩
    · rw [hfinish, noted, List.foldl_append]
    · rw [List.map_append, htasks, hothers]
  unfold run
  rw [effect_bind hbank]
  unfold start at hvisit
  rw [effect_bind hvisit]
  simp only []
  split
  · rw [effect_bind (hkeys _ _ s'), hlisting]
    exact hfinish _
  · exact hfinish []

end Breaking

end GoalReconciliation.Sweep

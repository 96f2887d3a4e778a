import GoalReconciliation.Proofs.Resolution.Candidates
import GoalReconciliation.Proofs.Run.Admission
import GoalReconciliation.Proofs.Store.Listing

/-!
# One record or group visited

* `fresh` : the candidates of a goal, as they are stored; `Faithful` : what a chunk has loaded differs from that in
  reviews only;
* `Task`, `Task.perform` : a visit with fresh candidates, as its outcome and what it leaves stored;
* `effect_withCandidates`, `effect_visitGroup` : what a chunk has loaded before makes no difference to a visit;
* `perform_reviewed` : a visit changes the reviews of its record or key at most;
* `performAll`, `effect_visitRecords`, `effect_visitGroups` : **the visits of a chunk are these tasks performed in
  turn**.
-/

namespace GoalReconciliation

set_option autoImplicit false

namespace Sweep

open Repository (effect_bind effect_bind_error effect_attempt effect_lift effect_then effect_then_ok)

/-! ## Candidates -/

section Loading

variable (faults : Option Faults) (t : Tolerance)

def fresh (m : Memory) (goal : String) : Except Failure Candidates := do
  let groups ← candidateGroups t (m.store.postings (some goal) none)
  let records ← ((Memory.under faults).query (.bankRecords (some goal) none) m).1
  return ⟨records, groups⟩

/-- What is loaded differs in reviews only from what is stored. -/
def Faithful (loaded : Loaded) (m : Memory) : Prop :=
  ∀ goal c, Assoc.get? goal loaded = some c → (fresh faults t m goal).map Candidates.plain = .ok c.plain

variable {faults t}

theorem fresh_plain {m m' : Memory} (h : m'.store.plain = m.store.plain) (goal : String) :
    (fresh faults t m' goal).map Candidates.plain = (fresh faults t m goal).map Candidates.plain := by
  have hgroups : (candidateGroups t (m'.store.postings (some goal) none)).map (·.map Group.plain) =
      (candidateGroups t (m.store.postings (some goal) none)).map (·.map Group.plain) := by
    rw [← candidateGroups_plain, ← Store.postings_plain, h, Store.postings_plain, candidateGroups_plain]
  have hrecords : (((Memory.under faults).query (.bankRecords (some goal) none) m').1).map (·.map BankRecord.plain) =
      (((Memory.under faults).query (.bankRecords (some goal) none) m).1).map (·.map BankRecord.plain) := by
    have hbank : (m'.store.bankRecords (some goal) none).map BankRecord.plain =
        (m.store.bankRecords (some goal) none).map BankRecord.plain := by
      rw [← Store.bankRecords_plain, h, Store.bankRecords_plain]
    cases faults with
    | none => exact congrArg Except.ok hbank
    | some f =>
        simp only [Memory.under, Repository.withFaults]
        split
        · rfl
        · exact congrArg Except.ok hbank
  refine Fallible.bind_map_congr hgroups fun gs gs' hgs => Fallible.bind_map_congr hrecords fun rs rs' hrs => ?_
  change Except.ok (Candidates.mk _ _) = Except.ok (Candidates.mk _ _)
  rw [hgs, hrs]

theorem faithful_nil (m : Memory) : Faithful faults t [] m := by
  intro goal c h
  cases h

theorem Faithful.of_plain {loaded : Loaded} {m m' : Memory} (h : Faithful faults t loaded m)
    (hplain : m'.store.plain = m.store.plain) : Faithful faults t loaded m' := by
  intro goal c hc
  rw [fresh_plain hplain]
  exact h goal c hc

theorem Faithful.put {loaded : Loaded} {m : Memory} (h : Faithful faults t loaded m) {goal : String} {c : Candidates}
    (hc : fresh faults t m goal = .ok c) : Faithful faults t (Assoc.put goal c loaded) m := by
  intro other c' hother
  rw [Assoc.get?_put] at hother
  split at hother
  · rename_i hgoal
    obtain rfl := Option.some.inj hother
    rw [← hgoal, hc]
    rfl
  · exact h other c' hother

variable (faults t) in
theorem effect_candidates {loaded : Loaded} {goal : String} (hnone : Assoc.get? goal loaded = none) (m : Memory) :
    (Memory.under faults).effect (candidates t goal loaded) m =
      ((fresh faults t m goal).map fun c => (c, Assoc.put goal c loaded), m) := by
  have hanswers : Memory.Answers faults (.postings (some goal) none) := fun _ _ => rfl
  have hpostings : (Memory.under faults).effect (Procedure.postings (some goal) none) m =
      (.ok (m.store.postings (some goal) none), m) := Memory.effect_query hanswers m
  have hrecords : (Memory.under faults).effect (Procedure.bankRecords (some goal) none) m =
      (((Memory.under faults).query (.bankRecords (some goal) none) m).1, m) :=
    Prod.ext rfl (Memory.under_query_state faults _ m)
  unfold candidates fresh
  rw [hnone]
  simp only []
  rw [effect_bind hpostings]
  cases hgroups : candidateGroups t (m.store.postings (some goal) none) with
  | error failure => exact effect_bind_error (effect_lift _)
  | ok groups =>
      rw [effect_bind (effect_lift (.ok groups))]
      cases hquery : ((Memory.under faults).query (.bankRecords (some goal) none) m).1 with
      | error failure =>
          rw [hquery] at hrecords
          exact effect_bind_error hrecords
      | ok records =>
          rw [hquery] at hrecords
          rw [effect_bind hrecords]
          rfl

end Loading

/-! ## Visits with candidates at hand -/

section Attempts

variable (faults : Option Faults) (t : Tolerance)

/-- A visit with the candidates of a goal as they are stored: its outcome, and what it leaves. -/
def attemptWith (goal : String) (visit : Candidates → Procedure (Option ResolvedVariance)) (m : Memory) :
    Except Failure (Option ResolvedVariance) × Memory :=
  match (fresh faults t m goal).map Candidates.plain with
  | .ok c => (Memory.under faults).effect (visit c) m
  | .error failure => (.error failure, m)

variable {faults t}

/-- A visit that does not look at reviews does not depend on when its candidates were loaded. -/
theorem effect_withCandidates {loaded : Loaded} {m : Memory} (hloaded : Faithful faults t loaded m) (goal : String)
    {visit : Candidates → Procedure (Option ResolvedVariance)} (hvisit : ∀ c, visit c.plain = visit c) :
    ∃ loaded', (Memory.under faults).effect (withCandidates t goal loaded visit) m =
        (.ok ((attemptWith faults t goal visit m).1, loaded'), (attemptWith faults t goal visit m).2) ∧
      Faithful faults t loaded' m := by
  have hfound : ∀ (c : Candidates) (loaded' : Loaded),
      (Memory.under faults).effect (candidates t goal loaded) m = (.ok (c, loaded'), m) →
      (fresh faults t m goal).map Candidates.plain = .ok c.plain →
      (Memory.under faults).effect (withCandidates t goal loaded visit) m =
        (.ok ((attemptWith faults t goal visit m).1, loaded'), (attemptWith faults t goal visit m).2) := by
    intro c loaded' hcandidates hfresh
    have hattempt : (Memory.under faults).effect (candidates t goal loaded).attempt m = _ := effect_attempt _
    rw [hcandidates] at hattempt
    unfold withCandidates attemptWith
    rw [effect_bind hattempt, hfresh]
    simp only [hvisit]
    rw [effect_bind (effect_attempt (visit c))]
    rfl
  cases hget : Assoc.get? goal loaded with
  | some c =>
      refine ⟨loaded, hfound c loaded ?_ (hloaded goal c hget), hloaded⟩
      unfold candidates
      rw [hget]
      rfl
  | none =>
      have hcandidates := effect_candidates faults t hget m
      cases hfresh : fresh faults t m goal with
      | ok c =>
          rw [hfresh] at hcandidates
          refine ⟨Assoc.put goal c loaded, hfound c _ hcandidates ?_, hloaded.put hfresh⟩
          rw [hfresh]
          rfl
      | error failure =>
          rw [hfresh] at hcandidates
          have hattempt : (Memory.under faults).effect (candidates t goal loaded).attempt m = _ := effect_attempt _
          rw [hcandidates] at hattempt
          refine ⟨loaded, ?_, hloaded⟩
          unfold withCandidates attemptWith
          rw [effect_bind hattempt, hfresh]
          rfl

end Attempts

/-! ## Tasks -/

inductive Task where
  | record (r : BankRecord)
  | group (key : String)

namespace Task

def name : Task → Side × String
  | record r => (.bank, r.id)
  | group key => (.ledger, key)

/-- The record of a task is stored, up to its review. -/
def Stored (s : Store) : Task → Prop
  | record r => r.plain ∈ s.plain.bank
  | group _ => True

/-- The task is about a record or a key that is not kept. -/
def Avoids (keepRecord keepKey : String → Bool) : Task → Prop
  | record r => keepRecord r.id = false
  | group key => keepKey key = false

theorem avoids_nothing (task : Task) : task.Avoids (fun _ => false) fun _ => false := by
  cases task <;> rfl

end Task

abbrev Entry := Task × Except Failure (Option ResolvedVariance)

section Tasks

variable (faults : Option Faults) (t : Tolerance) (now : Timestamp) (batchId : String)

def Task.perform : Task → Memory → Except Failure (Option ResolvedVariance) × Memory
  | record r, m => attemptWith faults t r.goalId (resolveRecord t now batchId r) m
  | group key, m =>
    match taggedGroup key (m.store.postingsByKey [key]) with
    | .error failure => (.error failure, m)
    | .ok none => (.ok none, m)
    | .ok (some (tag, g)) =>
      attemptWith faults t g.goalId (resolveGroup t now batchId g tag (pending (m.store.postingsByKey [key]))) m

theorem resolveRecord_plain (r : BankRecord) (c : Candidates) :
    resolveRecord t now batchId r c.plain = resolveRecord t now batchId r c := by
  unfold resolveRecord
  rw [Candidates.reasonForRecord_plain]

theorem resolveGroup_plain (g : Group) (tag : ReviewTag) (tagged : List Posting) (c : Candidates) :
    resolveGroup t now batchId g tag tagged c.plain = resolveGroup t now batchId g tag tagged c := by
  unfold resolveGroup
  rw [Candidates.reasonForGroup_plain]

theorem taggedGroup_key {key : String} {postings : List Posting} {tag : ReviewTag} {g : Group}
    (h : taggedGroup key postings = .ok (some (tag, g))) : g.key = key := by
  unfold taggedGroup at h
  split at h
  · cases h
  · obtain ⟨built, hbuild, hpair⟩ := Fallible.map_eq_ok.mp h
    obtain rfl : built = g := congrArg Prod.snd (Option.some.inj hpair)
    exact Group.build_key hbuild

theorem effect_visitGroup {loaded : Loaded} {m : Memory} (hloaded : Faithful faults t loaded m) (key : String) :
    ∃ loaded', (Memory.under faults).effect (visitGroup t now batchId key loaded) m =
        (.ok (((Task.group key).perform faults t now batchId m).1, loaded'),
          ((Task.group key).perform faults t now batchId m).2) ∧
      Faithful faults t loaded' m := by
  have hanswers : Memory.Answers faults (.postingsByKey [key]) := fun _ _ => rfl
  have hpostings : (Memory.under faults).effect (Procedure.postingsByKey [key]).attempt m =
      (.ok (.ok (m.store.postingsByKey [key])), m) := by
    have hquery : (Memory.under faults).effect (Procedure.postingsByKey [key]) m =
        (.ok (m.store.postingsByKey [key]), m) := Memory.effect_query hanswers m
    rw [effect_attempt, hquery]
  unfold visitGroup Task.perform
  rw [effect_bind hpostings]
  simp only []
  cases taggedGroup key (m.store.postingsByKey [key]) with
  | error failure => exact ⟨loaded, rfl, hloaded⟩
  | ok found =>
      cases found with
      | none => exact ⟨loaded, rfl, hloaded⟩
      | some pair => exact effect_withCandidates hloaded _ (resolveGroup_plain t now batchId pair.2 pair.1 _)

/-! ## What a visit leaves -/

/-- How a visit resolves its task: what it stores, and what it returns. -/
inductive Resolution (m : Memory) : Task → Procedure Unit → ResolvedVariance → Prop where
  | record {r : BankRecord} {c : Candidates} {reason : String} {tag : ReviewTag}
      (hfresh : (fresh faults t m r.goalId).map Candidates.plain = .ok c)
      (hreason : c.reasonForRecord t r = .ok (some reason)) (htag : r.review.tag = some tag) :
      Resolution m (.record r) (Procedure.save (.bank [{ r with review := r.review.resolve reason batchId now }]))
        ⟨r.id, .bank, r.goalId, r.sourceId, r.amount, tag, reason⟩
  | group {key : String} {g : Group} {c : Candidates} {reason : String} {tag : ReviewTag}
      (htagged : taggedGroup key (m.store.postingsByKey [key]) = .ok (some (tag, g)))
      (hfresh : (fresh faults t m g.goalId).map Candidates.plain = .ok c)
      (hreason : c.reasonForGroup t tag g = .ok (some reason)) :
      Resolution m (.group key)
        (Procedure.saveAll [.postings ((pending (m.store.postingsByKey [key])).map fun p =>
          { p with review := p.review.resolve reason batchId now })])
        ⟨g.key, .ledger, g.goalId, g.sourceId, g.amount, tag, reason⟩

/-- A visit that resolves nothing and leaves everything as it is. -/
structure Idle (m : Memory) (visit : Except Failure (Option ResolvedVariance) × Memory) : Prop where
  left : visit.2 = m
  nothing : ∀ v, visit.1 ≠ .ok (some v)

theorem idle_error (failure : Failure) (m : Memory) : Idle m (.error failure, m) :=
  ⟨rfl, fun _ h => by cases h⟩

theorem idle_none (m : Memory) : Idle m (.ok none, m) :=
  ⟨rfl, fun _ h => by cases h⟩

theorem idle_done {outcome : Except Failure (Option ResolvedVariance)} (h : ∀ v, outcome ≠ .ok (some v)) (m : Memory) :
    Idle m ((Memory.under faults).effect (.done outcome) m) :=
  ⟨rfl, h⟩

/-- A visit with its candidates at hand is done without the store, or stores a resolution. -/
theorem resolveRecord_cases (r : BankRecord) (c : Candidates) :
    (∃ outcome, resolveRecord t now batchId r c = .done outcome ∧ ∀ v, outcome ≠ .ok (some v)) ∨
      ∃ reason tag, c.reasonForRecord t r = .ok (some reason) ∧ r.review.tag = some tag ∧
        resolveRecord t now batchId r c =
          Procedure.save (.bank [{ r with review := r.review.resolve reason batchId now }]) >>= fun _ =>
            pure (some ⟨r.id, .bank, r.goalId, r.sourceId, r.amount, tag, reason⟩) := by
  unfold resolveRecord
  cases c.reasonForRecord t r with
  | error fault => exact .inl ⟨_, rfl, by simp⟩
  | ok found =>
      cases found with
      | none => exact .inl ⟨_, rfl, by simp⟩
      | some reason =>
          cases htag : r.review.tag with
          | none => exact .inl ⟨_, rfl, by simp⟩
          | some tag => exact .inr ⟨reason, tag, rfl, rfl, rfl⟩

theorem resolveGroup_cases (g : Group) (tag : ReviewTag) (tagged : List Posting) (c : Candidates) :
    (∃ outcome, resolveGroup t now batchId g tag tagged c = .done outcome ∧ ∀ v, outcome ≠ .ok (some v)) ∨
      ∃ reason, c.reasonForGroup t tag g = .ok (some reason) ∧
        resolveGroup t now batchId g tag tagged c =
          Procedure.saveAll
              [.postings (tagged.map fun p => { p with review := p.review.resolve reason batchId now })] >>= fun _ =>
            pure (some ⟨g.key, .ledger, g.goalId, g.sourceId, g.amount, tag, reason⟩) := by
  unfold resolveGroup
  cases c.reasonForGroup t tag g with
  | error fault => exact .inl ⟨_, rfl, by simp⟩
  | ok found =>
      cases found with
      | none => exact .inl ⟨_, rfl, by simp⟩
      | some reason => exact .inr ⟨reason, rfl, rfl⟩

theorem attemptWith_cases (goal : String) (visit : Candidates → Procedure (Option ResolvedVariance)) (m : Memory) :
    Idle m (attemptWith faults t goal visit m) ∨
      ∃ c, (fresh faults t m goal).map Candidates.plain = .ok c ∧
        attemptWith faults t goal visit m = (Memory.under faults).effect (visit c) m := by
  unfold attemptWith
  cases (fresh faults t m goal).map Candidates.plain with
  | error failure => exact Or.inl (idle_error failure m)
  | ok c => exact Or.inr ⟨c, rfl, rfl⟩

/-- A visit leaves everything as it is, unless it resolves its task. -/
theorem perform_cases (task : Task) (m : Memory) :
    Idle m (task.perform faults t now batchId m) ∨
      ∃ p v, Resolution faults t now batchId m task p v ∧
        task.perform faults t now batchId m = (Memory.under faults).effect (p >>= fun _ => pure (some v)) m := by
  cases task with
  | record r =>
      unfold Task.perform
      simp only []
      obtain hidle | ⟨c, hfresh, hattempt⟩ := attemptWith_cases faults t r.goalId
        (resolveRecord t now batchId r) m
      · exact Or.inl hidle
      · obtain ⟨outcome, hdone, hnone⟩ | ⟨reason, tag, hreason, htag, hresolve⟩ :=
          resolveRecord_cases t now batchId r c
        · exact Or.inl (hattempt ▸ hdone ▸ idle_done faults hnone m)
        · exact Or.inr ⟨_, _, .record hfresh hreason htag, hresolve ▸ hattempt⟩
  | group key =>
      unfold Task.perform
      simp only []
      cases htagged : taggedGroup key (m.store.postingsByKey [key]) with
      | error failure => exact Or.inl (idle_error failure m)
      | ok found =>
          cases found with
          | none => exact Or.inl (idle_none m)
          | some pair =>
              obtain ⟨tag, g⟩ := pair
              simp only []
              obtain hidle | ⟨c, hfresh, hattempt⟩ := attemptWith_cases faults t g.goalId
                (resolveGroup t now batchId g tag (pending (m.store.postingsByKey [key]))) m
              · exact Or.inl hidle
              · obtain ⟨outcome, hdone, hnone⟩ | ⟨reason, hreason, hresolve⟩ := resolveGroup_cases t now batchId g tag
                  (pending (m.store.postingsByKey [key])) c
                · exact Or.inl (hattempt ▸ hdone ▸ idle_done faults hnone m)
                · exact Or.inr ⟨_, _, .group htagged hfresh hreason, hresolve ▸ hattempt⟩

/-- A visit changes the review of its record, or those of its key's postings, and nothing else. -/
theorem perform_reviewed {m : Memory} (hm : m.store.Sound) {task : Task} (hstored : task.Stored m.store)
    {keepRecord keepKey : String → Bool} (havoids : task.Avoids keepRecord keepKey) :
    Reviewed keepRecord keepKey m.store (task.perform faults t now batchId m).2.store := by
  obtain hidle | ⟨p, v, hresolution, hperform⟩ := perform_cases faults t now batchId task m
  · rw [hidle.left]
    exact Reviewed.refl _
  · rw [hperform, effect_then]
    cases hresolution with
    | @record r c reason tag hfresh hreason htag =>
        have hsave : (Write.bank [{ r with review := r.review.resolve reason batchId now }]).Preserves
            (Reviewed keepRecord keepKey m.store) := by
          refine List.forall_mem_singleton.mpr fun s hs => ?_
          have hmem : r.plain ∈ s.plain.bank := hs.plain ▸ hstored
          exact hs.trans (Reviewed.putBank (hm.of_plain hs.plain) hmem havoids)
        exact (Memory.under_save_keeps faults hsave m).store (Reviewed.refl _)
    | @group key g c reason tag htagged hfresh hreason =>
        refine Memory.saveAll_store faults (List.forall_mem_singleton.mpr ?_) (Reviewed.refl _)
        intro p hp s s' hput hs
        obtain ⟨old, hold, rfl⟩ := List.mem_map.mp hp
        obtain ⟨hledger, hkey⟩ := Store.mem_postingsByKey.mp (List.mem_of_mem_filter hold)
        have hplain : old.plain ∈ s.plain.ledger := hs.plain ▸ Store.plain_mem_ledger hledger
        refine hs.trans (Reviewed.putPosting (hm.of_plain hs.plain) ?_ ?_ hput)
        · exact hplain
        · exact (congrArg keepKey hkey).trans havoids

theorem perform_plain {m : Memory} (hm : m.store.Sound) {task : Task} (hstored : task.Stored m.store) :
    (task.perform faults t now batchId m).2.store.plain = m.store.plain :=
  (perform_reviewed faults t now batchId hm hstored task.avoids_nothing).plain

variable {faults t now batchId} in
/-- What a visit has resolved is its task. -/
theorem perform_names {task : Task} {m : Memory} {v : ResolvedVariance}
    (h : (task.perform faults t now batchId m).1 = .ok (some v)) : (v.side, v.recordId) = task.name := by
  obtain hidle | ⟨p, v', hresolution, hperform⟩ := perform_cases faults t now batchId task m
  · exact absurd h (hidle.nothing v)
  · rw [hperform] at h
    obtain rfl := Option.some.inj (effect_then_ok h)
    cases hresolution with
    | record hfresh hreason htag => rfl
    | group htagged hfresh hreason => exact congrArg (Prod.mk Side.ledger) (taggedGroup_key htagged)

/-! ## Visits in turn -/

/-- Visits in turn: each task with its outcome, and what they leave. -/
def performAll : List Task → Memory → List Entry × Memory
  | [], m => ([], m)
  | task :: rest, m =>
    let (outcome, m) := task.perform faults t now batchId m
    let (entries, m) := performAll rest m
    ((task, outcome) :: entries, m)

theorem performAll_append (tasks others : List Task) (m : Memory) :
    performAll faults t now batchId (tasks ++ others) m =
      ((performAll faults t now batchId tasks m).1 ++
          (performAll faults t now batchId others (performAll faults t now batchId tasks m).2).1,
        (performAll faults t now batchId others (performAll faults t now batchId tasks m).2).2) := by
  induction tasks generalizing m with
  | nil => rfl
  | cons task rest ih =>
      simp only [List.cons_append, performAll]
      rw [ih]

theorem performAll_tasks (tasks : List Task) (m : Memory) :
    (performAll faults t now batchId tasks m).1.map Prod.fst = tasks := by
  induction tasks generalizing m with
  | nil => rfl
  | cons task rest ih => exact congrArg (task :: ·) (ih _)

theorem Task.Stored.of_plain {s s' : Store} {task : Task} (h : task.Stored s) (hplain : s'.plain = s.plain) :
    task.Stored s' := by
  cases task with
  | record r =>
      change r.plain ∈ s'.plain.bank
      rw [hplain]
      exact h
  | group key => trivial

/-- Visits change the reviews of their records and keys, and nothing else. -/
theorem performAll_reviewed {m : Memory} (hm : m.store.Sound) {tasks : List Task}
    (hstored : ∀ task ∈ tasks, task.Stored m.store) {keepRecord keepKey : String → Bool}
    (havoids : ∀ task ∈ tasks, task.Avoids keepRecord keepKey) :
    Reviewed keepRecord keepKey m.store (performAll faults t now batchId tasks m).2.store := by
  induction tasks generalizing m with
  | nil => exact Reviewed.refl _
  | cons task rest ih =>
      obtain ⟨hstored, hrest⟩ := List.forall_mem_cons.mp hstored
      obtain ⟨havoids, havoidRest⟩ := List.forall_mem_cons.mp havoids
      have hfirst := perform_reviewed faults t now batchId hm hstored havoids
      exact hfirst.trans (ih (hm.of_plain hfirst.plain) (fun task h => (hrest task h).of_plain hfirst.plain) havoidRest)

/-! ## Visits noted -/

def noteEntry (result : SweepResult) : Entry → SweepResult
  | (.record r, outcome) => { result.note r.id outcome with bankCursor := some r.id }
  | (.group key, outcome) => { result.note key outcome with groupCursor := some key }

theorem note_batchId (result : SweepResult) (id : String) (outcome : Except Failure (Option ResolvedVariance)) :
    (result.note id outcome).batchId = result.batchId := by
  unfold SweepResult.note
  split <;> rfl

theorem performAll_plain {m : Memory} (hm : m.store.Sound) {tasks : List Task}
    (hstored : ∀ task ∈ tasks, task.Stored m.store) :
    (performAll faults t now batchId tasks m).2.store.plain = m.store.plain :=
  (performAll_reviewed faults t now batchId hm hstored fun task _ => task.avoids_nothing).plain

theorem foldl_noteEntry_batchId (entries : List Entry) (result : SweepResult) :
    (entries.foldl noteEntry result).batchId = result.batchId := by
  induction entries generalizing result with
  | nil => rfl
  | cons entry rest ih =>
      refine (ih _).trans ?_
      obtain ⟨task, outcome⟩ := entry
      cases task <;> exact note_batchId _ _ _

theorem effect_visitRecords (records : List BankRecord) {result : SweepResult} {loaded : Loaded} {m : Memory}
    (hloaded : Faithful faults t loaded m) (hm : m.store.Sound)
    (hstored : ∀ r ∈ records, (Task.record r).Stored m.store) (hbatch : result.batchId = batchId) :
    ∃ loaded', (Memory.under faults).effect (visitRecords t now records result loaded) m =
        (.ok ((performAll faults t now batchId (records.map .record) m).1.foldl noteEntry result, loaded'),
          (performAll faults t now batchId (records.map .record) m).2) ∧
      Faithful faults t loaded' (performAll faults t now batchId (records.map .record) m).2 := by
  induction records generalizing result loaded m with
  | nil => exact ⟨loaded, rfl, hloaded⟩
  | cons r rest ih =>
      subst hbatch
      obtain ⟨hfirst, hrest⟩ := List.forall_mem_cons.mp hstored
      obtain ⟨loaded', hvisit, hloaded'⟩ := effect_withCandidates (t := t) hloaded r.goalId
        (resolveRecord_plain t now result.batchId r)
      -- The visit leaves all but reviews, so what is loaded still serves the visits after it.
      have hplain : ((Task.record r).perform faults t now result.batchId m).2.store.plain = m.store.plain :=
        perform_plain faults t now _ hm hfirst
      unfold visitRecords
      rw [effect_bind hvisit]
      exact ih (hloaded'.of_plain hplain) (hm.of_plain hplain) (fun r hr => (hrest r hr).of_plain hplain)
        (note_batchId _ _ _)

theorem effect_visitGroups (keys : List String) {result : SweepResult} {loaded : Loaded} {m : Memory}
    (hloaded : Faithful faults t loaded m) (hm : m.store.Sound) (hbatch : result.batchId = batchId) :
    (Memory.under faults).effect (visitGroups t now keys result loaded) m =
      (.ok ((performAll faults t now batchId (keys.map .group) m).1.foldl noteEntry result),
        (performAll faults t now batchId (keys.map .group) m).2) := by
  induction keys generalizing result loaded m with
  | nil => rfl
  | cons key rest ih =>
      subst hbatch
      obtain ⟨loaded', hvisit, hloaded'⟩ := effect_visitGroup faults t now result.batchId hloaded key
      have hplain : ((Task.group key).perform faults t now result.batchId m).2.store.plain = m.store.plain :=
        perform_plain faults t now _ hm trivial
      unfold visitGroups
      rw [effect_bind hvisit]
      exact ih (hloaded'.of_plain hplain) (hm.of_plain hplain) (note_batchId _ _ _)

end Tasks

end Sweep

end GoalReconciliation

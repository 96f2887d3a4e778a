import GoalReconciliation.Proofs.Run.Conservation
import GoalReconciliation.Proofs.Run.Spending
import GoalReconciliation.Proofs.Store.Locality

/-!
# Batches cover every goal once

* `ofGoal_minds` : a run for a goal minds its goal;
* `ofSchedule` : a batch whose runs are woven in any way, as those of `ofChunk` are; `run_ofSchedule` : what one call
  of it does, `ofChunk_interleaves` : however its runs are woven;
* `SumsTo` : the totals of several batches add up to those of one;
* `Pages` : calls from an offset on, each where the one before it has stopped;
* `Covered`, `batches_cover` : **whatever the size of the batches and the order of their runs, the calls come to an end
  and run each goal once**, with the totals and the store of a single call for all goals.
-/

namespace GoalReconciliation

set_option autoImplicit false

/-! ## Events -/

def AuditEvent.started? (e : AuditEvent) : Option String :=
  match e.action with
  | .runStarted .. => e.goal
  | _ => none

namespace Procedure

variable {α β : Type} {P : AuditEvent → Prop}

/-- All events of the procedure have a property, whatever is answered. -/
def Announces (P : AuditEvent → Prop) : Procedure α → Prop
  | .done _ => True
  | .ask _ next => ∀ answer, (next answer).Announces P
  | .record event rest => P event ∧ rest.Announces P

theorem announces_bind {p : Procedure α} {f : α → Procedure β} (hp : p.Announces P) (hf : ∀ a, (f a).Announces P) :
    (p >>= f).Announces P := by
  change (p.bind f).Announces P
  induction p with
  | done outcome =>
      cases outcome with
      | ok a => exact hf a
      | error failure => trivial
  | ask request next ih => exact fun answer => ih answer (hp answer)
  | record event rest ih => exact ⟨hp.1, ih hp.2⟩

theorem announces_query (question : Query) : (query question).Announces P :=
  fun _ => trivial

theorem run_announces {σ : Type} (repo : Repository σ) {p : Procedure α} (hp : p.Announces P) (s : σ) :
    ∀ e ∈ (repo.run p s).events, P e := by
  induction p generalizing s with
  | done outcome => exact fun e he => absurd he List.not_mem_nil
  | ask request next ih => exact ih _ (hp _) _
  | record event rest ih => exact List.forall_mem_cons.mpr ⟨hp.1, ih hp.2 s⟩

end Procedure

namespace RunResult

theorem persist_announces {P : AuditEvent → Prop} (r : RunResult) (saves : List (List BankRecord)) :
    (r.persist saves).Announces P := by
  induction saves generalizing r with
  | nil => trivial
  | cons records rest ih =>
      refine Procedure.announces_bind (fun answer => ?_) ih
      cases answer with
      | ok _ => trivial
      | error failure => cases failure <;> trivial

theorem ofGoal_started {σ : Type} (repo : Repository σ) (t : Tolerance) (now : Timestamp) (goal : String)
    (range : DateRange) (persistent : Bool) (actor : String) (s : σ) :
    (repo.run (ofGoal t now goal range persistent actor) s).events.filterMap AuditEvent.started? = [goal] := by
  have hrest : ∀ e ∈ (repo.run (ofGoal t now goal range persistent actor) s).events.tail, e.started? = none := by
    change ∀ e ∈ (repo.run (Procedure.query (.bankRecords (some goal) (some range)) >>= _) s).events, _
    refine Procedure.run_announces (P := fun e => e.started? = none) repo ?_ s
    refine Procedure.announces_bind (Procedure.announces_query _) fun records => ?_
    refine Procedure.announces_bind (Procedure.announces_query _) fun postings => ?_
    refine Procedure.announces_bind trivial fun a => ?_
    refine Procedure.announces_bind (Procedure.announces_query _) fun manual => ?_
    refine Procedure.announces_bind trivial fun r => ?_
    cases persistent with
    | true => exact Procedure.announces_bind (persist_announces r _) fun r => And.intro rfl trivial
    | false => exact And.intro rfl trivial
  have hnone := List.filterMap_eq_nil_iff.mpr hrest
  exact congrArg (goal :: ·) hnone

/-! ## A run minds its goal -/

section Minding

variable {view : Store} {goal : String}

theorem planned_outline {now : Timestamp} {records : List BankRecord} {r : RunResult} {w : BankRecord}
    (h : Planned now records r w) : ∃ old ∈ records, w.outline = old.outline := by
  cases h with
  | marked hm htype hr hid => exact ⟨_, hr, rfl⟩
  | unmarked hu hr hid => exact ⟨_, hr, rfl⟩

theorem minds_persist {β : Type} {saves : List (List BankRecord)} {r : RunResult} {f : RunResult → Procedure β}
    (hview : (view.bank.map BankRecord.id).Nodup) (hsaves : view.Renews saves.flatten)
    (hf : ∀ r' view', (f r').Minds goal view') : (r.persist saves >>= f).Minds goal view := by
  induction saves generalizing r view with
  | nil => exact hf r view
  | cons records rest ih =>
      obtain ⟨hrecords, hrest⟩ := List.forall_mem_append.mp hsaves
      have houtlines : (records.foldl Store.putBank view).outlines = view.outlines :=
        Store.outlines_foldl_putBank hview hrecords
      refine ⟨records, rfl, hrecords, ?_, fun failure => ?_⟩
      · refine ih (r := { r with persisted := r.persisted + records.length }) ?_ fun w hw => houtlines ▸ hrest w hw
        rw [Store.names_of_outlines houtlines]
        exact hview
      · cases failure with
        | storage fault => exact ih hview hrest
        | _ => trivial

/-- **A run for a goal minds its goal.** -/
theorem ofGoal_minds (t : Tolerance) (now : Timestamp) (range : DateRange) (persistent : Bool) (actor : String)
    (hview : (view.bank.map BankRecord.id).Nodup) :
    (ofGoal t now goal range persistent actor).Minds goal view := by
  change Procedure.Minds goal (Procedure.query (.bankRecords (some goal) (some range)) >>= _) view
  refine Procedure.minds_query rfl (Procedure.minds_query trivial (Procedure.minds_lift fun a ha => ?_))
  refine Procedure.minds_query rfl (Procedure.minds_lift fun r _ => ?_)
  cases persistent with
  | false => trivial
  | true =>
      refine minds_persist hview (fun w hw => ?_) fun _ _ => trivial
      obtain ⟨old, hold, houtline⟩ := planned_outline (mem_plannedSaves hw)
      have hstored : a.records ⊆ view.bank := admitted_of_store ha
      exact houtline ▸ List.mem_map_of_mem (hstored hold)

end Minding

end RunResult

/-! ## Totals -/

theorem Natural.total_append (xs ys : List Nat) :
    Natural.total (xs ++ ys) = Natural.total xs + Natural.total ys := by
  induction xs with
  | nil => exact (Nat.zero_add _).symm
  | cons x rest ih => rw [List.cons_append, Natural.total, Natural.total, ih, Nat.add_assoc]

namespace BatchResult

def matchesOf (b : BatchResult) (matchType : String) : Nat :=
  (Assoc.get? matchType b.byMatchType).getD 0

/-- The totals of some batches add up to those of one, and their errors are its errors. -/
structure SumsTo (batches : List BatchResult) (whole : BatchResult) : Prop where
  processed : Natural.total (batches.map BatchResult.processed) = whole.processed
  failed : Natural.total (batches.map BatchResult.failed) = whole.failed
  matched : Natural.total (batches.map BatchResult.matched) = whole.matched
  unmatchedBank : Natural.total (batches.map BatchResult.unmatchedBank) = whole.unmatchedBank
  unmatchedGroups : Natural.total (batches.map BatchResult.unmatchedGroups) = whole.unmatchedGroups
  autoApproved : Natural.total (batches.map BatchResult.autoApproved) = whole.autoApproved
  manualReview : Natural.total (batches.map BatchResult.manualReview) = whole.manualReview
  byMatchType : ∀ matchType, Natural.total (batches.map fun b => b.matchesOf matchType) = whole.matchesOf matchType
  errors : batches.flatMap BatchResult.errors = whole.errors

section Sums

variable {total : Nat} {goals more : List String} {outcomes others : List (Except Failure RunResult)}
  {batches : List BatchResult}

theorem results_le (outcomes : List (Except Failure RunResult)) :
    (outcomes.filterMap Except.toOption).length ≤ outcomes.length :=
  List.length_filterMap_le _ _

theorem processed_add_failed (offset : Int) :
    (ofOutcomes total offset goals outcomes).processed + (ofOutcomes total offset goals outcomes).failed =
      outcomes.length :=
  Nat.add_sub_cancel' (results_le outcomes)

theorem matchesOf_ofOutcomes (offset : Int) (matchType : String) :
    (ofOutcomes total offset goals outcomes).matchesOf matchType =
      ((outcomes.filterMap Except.toOption).flatMap fun r => r.found.map (·.pairing.matchType.name)).count matchType :=
  Assoc.get?_tally _ _

theorem sumsTo_nil (offset : Int) : SumsTo [] (ofOutcomes total offset [] []) :=
  ⟨rfl, rfl, rfl, rfl, rfl, rfl, rfl, fun _ => rfl, rfl⟩

theorem SumsTo.cons {offset rest whole : Int} (hgoals : goals.length = outcomes.length)
    (h : SumsTo batches (ofOutcomes total rest more others)) :
    SumsTo (ofOutcomes total offset goals outcomes :: batches)
      (ofOutcomes total whole (goals ++ more) (outcomes ++ others)) where
  processed := by
    rw [List.map_cons, Natural.total, h.processed]
    simp only [ofOutcomes, List.filterMap_append, List.length_append]
  failed := by
    rw [List.map_cons, Natural.total, h.failed]
    have hle := results_le outcomes
    have hle' := results_le others
    simp only [ofOutcomes, List.filterMap_append, List.length_append]
    omega
  matched := by
    rw [List.map_cons, Natural.total, h.matched]
    simp only [ofOutcomes, List.filterMap_append, List.map_append, Natural.total_append]
  unmatchedBank := by
    rw [List.map_cons, Natural.total, h.unmatchedBank]
    simp only [ofOutcomes, List.filterMap_append, List.map_append, Natural.total_append]
  unmatchedGroups := by
    rw [List.map_cons, Natural.total, h.unmatchedGroups]
    simp only [ofOutcomes, List.filterMap_append, List.map_append, Natural.total_append]
  autoApproved := by
    rw [List.map_cons, Natural.total, h.autoApproved]
    simp only [ofOutcomes, List.filterMap_append, List.map_append, Natural.total_append]
  manualReview := by
    rw [List.map_cons, Natural.total, h.manualReview]
    simp only [ofOutcomes, List.filterMap_append, List.map_append, Natural.total_append]
  byMatchType matchType := by
    rw [List.map_cons, Natural.total, h.byMatchType, matchesOf_ofOutcomes, matchesOf_ofOutcomes, matchesOf_ofOutcomes,
      List.filterMap_append, List.flatMap_append, List.count_append]
  errors := by
    rw [List.flatMap_cons, h.errors]
    simp only [ofOutcomes, List.zipWith_append hgoals, List.flatten_append]

end Sums

/-! ## One call -/

theorem Chunk.goals_append {chunk : Chunk} {done rest : List String} (hoffset : chunk.offset = done.length)
    (hsize : 1 ≤ chunk.size) : chunk.goals (done ++ rest) = rest.take chunk.size.toNat := by
  have hstart : Slice.position (done ++ rest).length chunk.offset = done.length := by
    rw [Slice.position, if_neg (by omega), List.length_append]
    omega
  have hstop : Slice.position (done ++ rest).length (chunk.offset + chunk.size) =
      done.length + min rest.length chunk.size.toNat := by
    rw [Slice.position, if_neg (by omega), List.length_append]
    omega
  have hnonzero : chunk.size ≠ 0 := by omega
  simp only [goals, if_neg hnonzero, Slice.between, Slice.upTo, hstart, hstop, List.take_length_add_append,
    List.drop_left]
  rw [Nat.min_comm, ← List.take_take, List.take_length]

/-- A chunk of all goals takes them in one call. -/
theorem Chunk.goals_all {chunk : Chunk} {all : List String} (hoffset : chunk.offset = 0) (hsize : 1 ≤ chunk.size)
    (hall : all.length ≤ chunk.size) : chunk.goals all = all := by
  have hgoals : chunk.goals ([] ++ all) = all.take chunk.size.toNat := goals_append hoffset hsize
  rw [List.nil_append] at hgoals
  rw [hgoals, List.take_of_length_le (by omega)]

/-- The way in which a chunk weaves its runs. -/
def Chunk.schedule (chunk : Chunk) : Procedure.Schedule RunResult where
  outcomes := chunk.outcomes
  weaves procedures := by
    unfold Chunk.outcomes
    split
    · exact Procedure.weaves_inTurns _ _
    · exact Procedure.weaves_inOrder _

/-- A run for each goal of a chunk, woven in some way. -/
def ofSchedule (order : Procedure.Schedule RunResult) (t : Tolerance) (now : Timestamp) (range : DateRange)
    (chunk : Chunk) (actor : String) : Procedure BatchResult := do
  let all ← Procedure.goalIds (some range)
  let goals := chunk.goals all
  let outcomes ← order.outcomes (goals.map fun goal => RunResult.ofGoal t now goal range true actor)
  let b := ofOutcomes all.length chunk.offset goals outcomes
  Procedure.report (.batchCompleted chunk.offset b.processed b.failed b.hasMore) none actor
  return b

theorem ofChunk_eq (t : Tolerance) (now : Timestamp) (range : DateRange) (chunk : Chunk) (actor : String) :
    ofChunk t now range chunk actor = ofSchedule chunk.schedule t now range chunk actor :=
  rfl

section Calls

variable (faults : Option Faults) (t : Tolerance) (now : Timestamp) (range : DateRange) (actor : String)

def alone (m : Memory) (goal : String) : Trace Memory RunResult :=
  (Memory.under faults).run (RunResult.ofGoal t now goal range true actor) m

/-- The runs for some goals have been done: what each of them makes of its view is there, and all other views are as
they were. -/
structure Done (m : Memory) (goals : List String) (m' : Memory) : Prop where
  ready : m'.Ready
  leaves : Memory.Leaves goals m.store m'.store
  views : ∀ goal ∈ goals, m'.store.view goal = (alone faults t now range actor m goal).state.store.view goal

def totals (m : Memory) (offset : Int) (goals : List String) : BatchResult :=
  ofOutcomes (m.store.goalIds (some range)).length offset goals
    (goals.map fun goal => (alone faults t now range actor m goal).outcome)

variable {faults t now range actor} {m m' : Memory}

/-- What a goal's run does where the runs of other goals have been done. -/
theorem Done.alone {goals : List String} {goal : String} (hm : m.Ready) (h : Done faults t now range actor m goals m')
    (hgoal : goal ∉ goals) :
    (alone faults t now range actor m' goal).outcome = (alone faults t now range actor m goal).outcome ∧
      (alone faults t now range actor m' goal).state.store.view goal =
        (alone faults t now range actor m goal).state.store.view goal := by
  have hminds : (RunResult.ofGoal t now goal range true actor).Minds goal (m.store.view goal) :=
    RunResult.ofGoal_minds t now range true actor (Store.part_distinct hm.distinct goal)
  obtain ⟨houtcome, -, hview⟩ := Memory.run_minds hm hminds h.ready (h.leaves.views goal hgoal)
  exact ⟨houtcome, hview⟩

variable (t now actor) in
/-- What one call does: its runs, woven in some way, and the report on them. -/
theorem exists_woven (hm : m.Ready) (hlists : Memory.Answers faults (.goalIds (some range)))
    (order : Procedure.Schedule RunResult) (chunk : Chunk) {goals : List String}
    (hgoals : chunk.goals (m.store.goalIds (some range)) = goals) :
    ∃ woven : Trace Memory (List (Except Failure RunResult)),
      Memory.Apart faults (goals.map fun goal => (goal, RunResult.ofGoal t now goal range true actor)) m woven ∧
        (Memory.under faults).run (ofSchedule order t now range chunk actor) m =
          ⟨.ok (totals faults t now range actor m chunk.offset goals),
            woven.events ++ [⟨.batchCompleted chunk.offset
              (totals faults t now range actor m chunk.offset goals).processed
              (totals faults t now range actor m chunk.offset goals).failed
              (totals faults t now range actor m chunk.offset goals).hasMore, none, actor⟩],
            woven.state⟩ := by
  let tasks := goals.map fun goal => (goal, RunResult.ofGoal t now goal range true actor)
  have hnames : tasks.map Prod.fst = goals := (List.map_map).trans (List.map_id goals)
  have hprocedures : tasks.map Prod.snd = goals.map fun goal => RunResult.ofGoal t now goal range true actor :=
    List.map_map
  have hseparate : Memory.Separate tasks m := by
    refine { ready := hm, once := hnames ▸ hgoals ▸ chunk.goals_once m.store _, minds := fun task htask => ?_ }
    obtain ⟨goal, -, rfl⟩ := List.mem_map.mp htask
    exact RunResult.ofGoal_minds t now range true actor (Store.part_distinct hm.distinct goal)
  let woven := (Memory.under faults).run (order.outcomes (tasks.map Prod.snd)) m
  have hapart : Memory.Apart faults tasks m woven := Memory.run_weaves (order.weaves _) hseparate
  refine ⟨woven, hapart, (Memory.run_answered hlists).trans ?_⟩
  change (Memory.under faults).run (order.outcomes ((chunk.goals (m.store.goalIds (some range))).map _) >>= _) m = _
  refine (Repository.run_bind _ _ _ _).trans ?_
  have houtcome : woven.outcome = .ok (goals.map fun goal => (alone faults t now range actor m goal).outcome) :=
    hapart.outcome.trans (congrArg Except.ok List.map_map)
  simp only [woven, hprocedures, ← hgoals] at houtcome
  rw [Trace.andThen, houtcome]
  simp only [woven, totals, hprocedures, ← hgoals]
  rfl

/-- **One call runs each goal of its chunk as if it were alone.** -/
theorem run_ofSchedule (hm : m.Ready) (hlists : Memory.Answers faults (.goalIds (some range)))
    (order : Procedure.Schedule RunResult) (chunk : Chunk) {goals : List String}
    (hgoals : chunk.goals (m.store.goalIds (some range)) = goals) :
    ((Memory.under faults).run (ofSchedule order t now range chunk actor) m).outcome =
        .ok (totals faults t now range actor m chunk.offset goals) ∧
      (((Memory.under faults).run (ofSchedule order t now range chunk actor) m).events.filterMap
        AuditEvent.started?).Perm goals ∧
      Done faults t now range actor m goals
        ((Memory.under faults).run (ofSchedule order t now range chunk actor) m).state := by
  obtain ⟨woven, hapart, hrun⟩ := exists_woven t now actor hm hlists order chunk hgoals
  have hnames : (goals.map fun goal => (goal, RunResult.ofGoal t now goal range true actor)).map Prod.fst = goals :=
    (List.map_map).trans (List.map_id goals)
  let b := totals faults t now range actor m chunk.offset goals
  have hstarted : ((goals.map fun goal => (goal, RunResult.ofGoal t now goal range true actor)).flatMap fun task =>
      ((Memory.under faults).run task.2 m).events).filterMap AuditEvent.started? = goals := by
    rw [List.filterMap_flatMap, List.flatMap_map]
    refine (List.flatMap_congr fun goal _ => ?_).trans (List.flatMap_singleton' goals)
    exact RunResult.ofGoal_started _ t now goal range true actor m
  have hlast : [(⟨.batchCompleted chunk.offset b.processed b.failed b.hasMore, none, actor⟩ : AuditEvent)].filterMap
      AuditEvent.started? = [] := rfl
  have hready : ((Memory.under faults).run (ofSchedule order t now range chunk actor) m).state.Ready := hm.run _
  rw [hrun] at hready ⊢
  refine ⟨rfl, ?_, hready, hnames ▸ hapart.leaves, fun goal hgoal => ?_⟩
  · rw [List.filterMap_append, hlast, List.append_nil]
    exact hstarted ▸ hapart.events.filterMap AuditEvent.started?
  · exact hapart.views (goal, _) (List.mem_map_of_mem hgoal)

theorem Done.store_eq {goals : List String} {m'' : Memory} (hm : m.Ready) (h : Done faults t now range actor m goals m')
    (h' : Done faults t now range actor m goals m'') : m'.store = m''.store := by
  refine Store.eq_of_views ?_ ?_ ?_ fun goal => ?_
  · rw [Store.names_of_outlines h'.leaves.outlines]
    exact hm.distinct
  · exact h.leaves.outlines.trans h'.leaves.outlines.symm
  · exact h.leaves.ledger.trans h'.leaves.ledger.symm
  · by_cases hgoal : goal ∈ goals
    · exact (h.views goal hgoal).trans (h'.views goal hgoal).symm
    · exact (h.leaves.views goal hgoal).trans (h'.leaves.views goal hgoal).symm

/-- Two traces with one outcome, the same events in some order, and the same store. -/
structure Rearranged {α : Type} (trace other : Trace Memory α) : Prop where
  outcome : other.outcome = trace.outcome
  events : other.events.Perm trace.events
  store : other.state.store = trace.state.store

variable (t now actor) in
/-- **However a chunk weaves its runs, they come to the same**, up to the order of the events. -/
theorem ofChunk_interleaves (hm : m.Ready) (hlists : Memory.Answers faults (.goalIds (some range))) (chunk : Chunk)
    (interleaves : Bool) :
    Rearranged ((Memory.under faults).run (ofChunk t now range chunk actor) m)
      ((Memory.under faults).run (ofChunk t now range { chunk with interleaves := interleaves } actor) m) := by
  let other : Chunk := { chunk with interleaves := interleaves }
  let goals : List String := chunk.goals (m.store.goalIds (some range))
  have hdone : Done faults t now range actor m goals _ := (run_ofSchedule hm hlists chunk.schedule chunk rfl).2.2
  have hdone' : Done faults t now range actor m goals _ := (run_ofSchedule hm hlists other.schedule other rfl).2.2
  obtain ⟨woven, hapart, hrun⟩ := exists_woven t now actor hm hlists chunk.schedule chunk rfl
  obtain ⟨woven', hapart', hrun'⟩ := exists_woven t now actor hm hlists other.schedule other rfl
  have hstore := hdone'.store_eq hm hdone
  rw [ofChunk_eq, ofChunk_eq]
  rw [hrun, hrun'] at hstore ⊢
  exact ⟨rfl, (hapart'.events.trans hapart.events.symm).append_right _, hstore⟩

/-! ## Call after call -/

variable (faults t now range actor) in
def call (order : Procedure.Schedule RunResult) (size offset : Int) (m : Memory) : Trace Memory BatchResult :=
  (Memory.under faults).run (ofSchedule order t now range { size := size, offset := offset } actor) m

variable (faults t now range actor) in
/-- Calls from an offset on, the totals of each and all of their events, up to the first that leaves no goal behind.
Each call may weave its runs in another way. -/
inductive Pages (orders : Nat → Procedure.Schedule RunResult) (size : Int) :
    Nat → Int → Memory → List BatchResult → List AuditEvent → Memory → Prop
  | last {n : Nat} {offset : Int} {m : Memory} {b : BatchResult}
      (hcall : (call faults t now range actor (orders n) size offset m).outcome = .ok b) (hlast : b.nextOffset = none) :
      Pages orders size n offset m [b] (call faults t now range actor (orders n) size offset m).events
        (call faults t now range actor (orders n) size offset m).state
  | next {n : Nat} {offset next : Int} {m m' : Memory} {b : BatchResult} {batches : List BatchResult}
      {events : List AuditEvent}
      (hcall : (call faults t now range actor (orders n) size offset m).outcome = .ok b)
      (hnext : b.nextOffset = some next)
      (hrest : Pages orders size (n + 1) next (call faults t now range actor (orders n) size offset m).state batches
        events m') :
      Pages orders size n offset m (b :: batches)
        ((call faults t now range actor (orders n) size offset m).events ++ events) m'

section Paging

variable {orders : Nat → Procedure.Schedule RunResult} {size : Int} {passed left : List String} {n : Nat}

/-- A call behind the goals that have been done, in terms of the store before all calls. -/
theorem call_spec (hm : m.Ready) (hlists : Memory.Answers faults (.goalIds (some range))) (hsize : 1 ≤ size)
    (hall : m.store.goalIds (some range) = passed ++ left) (hdone : Done faults t now range actor m passed m')
    (order : Procedure.Schedule RunResult) :
    (call faults t now range actor order size passed.length m').outcome =
        .ok (totals faults t now range actor m passed.length (left.take size.toNat)) ∧
      ((call faults t now range actor order size passed.length m').events.filterMap AuditEvent.started?).Perm
        (left.take size.toNat) ∧
      Done faults t now range actor m (passed ++ left.take size.toNat)
        (call faults t now range actor order size passed.length m').state := by
  have hlisted : m'.store.goalIds (some range) = m.store.goalIds (some range) :=
    Store.goalIds_congr hdone.leaves.outlines hdone.leaves.ledger _
  have hgoals : Chunk.goals { size := size, offset := passed.length } (m'.store.goalIds (some range)) =
      left.take size.toNat := by
    rw [hlisted, hall]
    exact Chunk.goals_append rfl hsize
  have honce : (passed ++ left).Nodup := hall ▸ (List.mergeSort_perm _ _).nodup_iff.mpr (Assoc.nodup_distinct _)
  have hnew : ∀ goal ∈ left.take size.toNat, goal ∉ passed := fun goal hgoal hpassed =>
    (List.nodup_append.mp honce).2.2 goal hpassed goal (List.mem_of_mem_take hgoal) rfl
  obtain ⟨houtcome, hevents, hcalled⟩ := run_ofSchedule hdone.ready hlists order _ hgoals
  refine ⟨houtcome.trans (congrArg Except.ok ?_), hevents, hcalled.ready, ?_, fun goal hgoal => ?_⟩
  · have hsame : (left.take size.toNat).map (fun goal => (alone faults t now range actor m' goal).outcome) =
        (left.take size.toNat).map fun goal => (alone faults t now range actor m goal).outcome :=
      List.map_congr_left fun goal hgoal => (hdone.alone hm (hnew goal hgoal)).1
    rw [totals, totals, hsame, hlisted]
  · exact (hdone.leaves.mono (List.subset_append_left _ _)).trans
      (hcalled.leaves.mono (List.subset_append_right _ _))
  · by_cases hmem : goal ∈ left.take size.toNat
    · exact (hcalled.views goal hmem).trans (hdone.alone hm (hnew goal hmem)).2
    · have hpassed : goal ∈ passed := (List.mem_append.mp hgoal).resolve_right hmem
      exact (hcalled.leaves.views goal hmem).trans (hdone.views goal hpassed)

theorem nextOffset_totals (hall : m.store.goalIds (some range) = passed ++ left) :
    (totals faults t now range actor m passed.length (left.take size.toNat)).nextOffset =
      if left.drop size.toNat = [] then none else some ((passed ++ left.take size.toNat).length : Int) := by
  have hnext : (totals faults t now range actor m passed.length (left.take size.toNat)).nextOffset =
      if (passed.length + (left.take size.toNat).length : Int) < (m.store.goalIds (some range)).length then
        some ((passed.length : Int) + (left.take size.toNat).length) else none := rfl
  rw [hnext, hall, List.length_append, List.length_append, List.length_take]
  by_cases hmore : left.drop size.toNat = []
  · rw [if_pos hmore, if_neg]
    rw [List.drop_eq_nil_iff] at hmore
    omega
  · rw [if_neg hmore, if_pos]
    · rfl
    · rw [List.drop_eq_nil_iff] at hmore
      omega

theorem sumsTo_totals {more : List String} {rest : Int} {batches : List BatchResult}
    (h : SumsTo batches (totals faults t now range actor m rest more)) (goals : List String) (offset whole : Int) :
    SumsTo (totals faults t now range actor m offset goals :: batches)
      (totals faults t now range actor m whole (goals ++ more)) := by
  have hlength : goals.length = (goals.map fun goal => (alone faults t now range actor m goal).outcome).length :=
    (List.length_map _).symm
  have hcons : SumsTo (totals faults t now range actor m offset goals :: batches) (ofOutcomes _ whole _ _) :=
    h.cons hlength
  rwa [← List.map_append] at hcons

/-- The goals of a batch are done, failed, left behind or passed before it. -/
theorem accounted (hall : m.store.goalIds (some range) = passed ++ left) {b : BatchResult}
    (hb : b = totals faults t now range actor m passed.length (left.take size.toNat)) :
    (b.processed + b.failed + b.remaining : Int) + b.offset = b.totalGoals ∧
      b.totalGoals = (m.store.goalIds (some range)).length := by
  have hdone : b.processed + b.failed = (left.take size.toNat).length := by
    rw [hb]
    exact (processed_add_failed _).trans (List.length_map _)
  have htotal : b.totalGoals = (passed ++ left).length := by
    rw [hb]
    exact congrArg List.length hall
  have hoffset : b.offset = passed.length := by
    rw [hb]
    rfl
  refine ⟨?_, htotal.trans (congrArg List.length hall.symm)⟩
  rw [List.length_take] at hdone
  rw [remaining, htotal, hoffset, List.length_append]
  omega

variable (hm : m.Ready) (hlists : Memory.Answers faults (.goalIds (some range))) (hsize : 1 ≤ size)

include hm hlists hsize

/-- **The calls come to an end.** -/
theorem exists_pages (orders : Nat → Procedure.Schedule RunResult) (n : Nat)
    (hall : m.store.goalIds (some range) = passed ++ left) (hdone : Done faults t now range actor m passed m') :
    ∃ batches events m'', Pages faults t now range actor orders size n passed.length m' batches events m'' := by
  induction hlength : left.length using Nat.strong_induction_on generalizing passed left m' n with
  | _ length ih =>
      obtain ⟨houtcome, -, hcalled⟩ := call_spec hm hlists hsize hall hdone (orders n)
      have hnext : (totals faults t now range actor m passed.length (left.take size.toNat)).nextOffset = _ :=
        nextOffset_totals hall
      by_cases hmore : left.drop size.toNat = []
      · rw [if_pos hmore] at hnext
        exact ⟨_, _, _, .last houtcome hnext⟩
      · rw [if_neg hmore] at hnext
        have hall' : m.store.goalIds (some range) = (passed ++ left.take size.toNat) ++ left.drop size.toNat := by
          rw [List.append_assoc, List.take_append_drop, hall]
        have hshorter : (left.drop size.toNat).length < length := by
          rw [List.drop_eq_nil_iff] at hmore
          rw [List.length_drop]
          omega
        obtain ⟨batches, events, m'', hrest⟩ := ih _ hshorter (n + 1) hall' hcalled rfl
        exact ⟨_, _, _, .next houtcome hnext hrest⟩

/-- **What the calls add up to.** -/
theorem Pages.spec {offset : Int} {batches : List BatchResult} {events : List AuditEvent} {m'' : Memory}
    (h : Pages faults t now range actor orders size n offset m' batches events m'') (hoffset : offset = passed.length)
    (hall : m.store.goalIds (some range) = passed ++ left) (hdone : Done faults t now range actor m passed m') :
    (events.filterMap AuditEvent.started?).Perm left ∧ Done faults t now range actor m (passed ++ left) m'' ∧
      (∀ whole : Int, SumsTo batches (totals faults t now range actor m whole left)) ∧
      ∀ b ∈ batches, (b.processed + b.failed + b.remaining : Int) + b.offset = b.totalGoals ∧
        b.totalGoals = (m.store.goalIds (some range)).length := by
  induction h generalizing passed left with
  | @last n _ _ b hcall hlast =>
      subst hoffset
      obtain ⟨houtcome, hstarted, hcalled⟩ := call_spec hm hlists hsize hall hdone (orders n)
      obtain rfl := Except.ok.inj (hcall.symm.trans houtcome)
      have hnone : left.drop size.toNat = [] := by
        rw [nextOffset_totals hall] at hlast
        by_contra hmore
        rw [if_neg hmore] at hlast
        cases hlast
      have htake : left.take size.toNat = left := List.take_of_length_le (List.drop_eq_nil_iff.mp hnone)
      refine ⟨htake ▸ hstarted, htake ▸ hcalled, fun whole => ?_, List.forall_mem_singleton.mpr (accounted hall rfl)⟩
      have hnothing : SumsTo [] (totals faults t now range actor m 0 []) := sumsTo_nil 0
      have hsum := sumsTo_totals hnothing left passed.length whole
      rw [List.append_nil] at hsum
      exact htake.symm ▸ hsum
  | @next n _ _ _ _ b batches events hcall hnext hrest ih =>
      subst hoffset
      obtain ⟨houtcome, hstarted, hcalled⟩ := call_spec hm hlists hsize hall hdone (orders n)
      obtain rfl := Except.ok.inj (hcall.symm.trans houtcome)
      rw [nextOffset_totals hall] at hnext
      split at hnext
      · cases hnext
      · obtain rfl := Option.some.inj hnext
        have hall' : m.store.goalIds (some range) = (passed ++ left.take size.toNat) ++ left.drop size.toNat := by
          rw [List.append_assoc, List.take_append_drop, hall]
        obtain ⟨hstarted', hdone', hsums, haccounted⟩ := ih rfl hall' hcalled
        rw [List.append_assoc, List.take_append_drop] at hdone'
        refine ⟨?_, hdone', fun whole => ?_, List.forall_mem_cons.mpr ⟨accounted hall rfl, haccounted⟩⟩
        · rw [List.filterMap_append]
          exact (hstarted.append hstarted').trans (List.take_append_drop _ _ ▸ .refl _)
        · have hsum := sumsTo_totals (hsums 0) (left.take size.toNat) passed.length whole
          rwa [List.take_append_drop] at hsum

end Paging

/-! ## Runs that fail -/

/-- Each outcome that is a failure counts once. -/
theorem failed_ofOutcomes {total : Nat} {offset : Int} {goals : List String}
    (outcomes : List (Except Failure RunResult)) :
    (ofOutcomes total offset goals outcomes).failed = outcomes.countP fun outcome => !outcome.toBool := by
  change outcomes.length - (outcomes.filterMap Except.toOption).length = _
  induction outcomes with
  | nil => rfl
  | cons outcome rest ih =>
      have hle := results_le rest
      cases outcome with
      | ok r =>
          have hresults : (Except.ok r :: rest).filterMap Except.toOption = r :: rest.filterMap Except.toOption := rfl
          rw [hresults, List.countP_cons_of_neg (by simp [Except.toBool]), List.length_cons, List.length_cons]
          omega
      | error failure =>
          have hresults : (Except.error failure :: rest).filterMap Except.toOption =
            rest.filterMap Except.toOption := rfl
          rw [hresults, List.countP_cons_of_pos (by simp [Except.toBool]), List.length_cons]
          omega

theorem errors_totals (offset : Int) (goals : List String) :
    (totals faults t now range actor m offset goals).errors =
      goals.flatMap fun goal => errorsOf goal (alone faults t now range actor m goal).outcome := by
  change (List.zipWith errorsOf goals (goals.map _)).flatten = _
  rw [List.zipWith_map_right, List.zipWith_self, List.flatMap_def]

/-- The run for a goal whose records cannot be loaded fails, and changes nothing. -/
theorem alone_raising {f : Faults} {goal : String} (hgoal : goal ∈ f.goals) :
    (alone (some f) t now range actor m goal).outcome = .error f.failure ∧
      (alone (some f) t now range actor m goal).state = m := by
  have hquery : (Memory.under (some f)).effect (Procedure.query (.bankRecords (some goal) (some range))) m =
      (.error f.failure, m) := if_pos (by simpa [Faults.hitsQuery] using hgoal)
  have heffect : (Memory.under (some f)).effect (RunResult.ofGoal t now goal range true actor) m =
      (.error f.failure, m) := by
    change (Memory.under (some f)).effect (Procedure.query (.bankRecords (some goal) (some range)) >>= _) m = _
    exact Repository.effect_bind_error hquery
  exact Prod.mk.inj heffect

end Calls

end BatchResult

/-! ## All calls -/

/-- What calls of a batch amount to, compared with one call for all goals. -/
structure Covered (faults : Option Faults) (t : Tolerance) (now : Timestamp) (range : DateRange) (actor : String)
    (s : Store) (whole : Trace Memory BatchResult) (batches : List BatchResult) (events : List AuditEvent)
    (m : Memory) : Prop where
  /-- Each goal is run once, and nothing else is run. -/
  once : ∀ goal, (events.filterMap AuditEvent.started?).count goal = if goal ∈ s.goalIds (some range) then 1 else 0
  /-- In each batch, the goals are done, failed, left behind or passed before it. -/
  accounted : ∀ b ∈ batches, (b.processed + b.failed + b.remaining : Int) + b.offset = b.totalGoals ∧
    b.totalGoals = (s.goalIds (some range)).length
  store : m.store = whole.state.store
  sums : ∃ b, whole.outcome = .ok b ∧ BatchResult.SumsTo batches b
  /-- Each goal has the outcome, the errors and the records that its run has alone. -/
  failed : Natural.total (batches.map BatchResult.failed) = (s.goalIds (some range)).countP fun goal =>
    !(BatchResult.alone faults t now range actor (.ofStore s) goal).outcome.toBool
  errors : batches.flatMap BatchResult.errors = (s.goalIds (some range)).flatMap fun goal =>
    BatchResult.errorsOf goal (BatchResult.alone faults t now range actor (.ofStore s) goal).outcome
  views : ∀ goal ∈ s.goalIds (some range), m.store.view goal =
    (BatchResult.alone faults t now range actor (.ofStore s) goal).state.store.view goal
  /-- The runs that are made to fail fail, and the others are as if none had been made to. -/
  raising : ∀ f ∈ faults, ∀ goal ∈ f.goals,
    (BatchResult.alone faults t now range actor (.ofStore s) goal).outcome = .error f.failure
  spared : ∀ f ∈ faults, ∀ goal, goal ∉ f.goals → BatchResult.alone faults t now range actor (.ofStore s) goal =
    BatchResult.alone (some { f with goals := [] }) t now range actor (.ofStore s) goal

namespace Sample

def twoGoals : Store :=
  { bank := [record "first" "s1" 100, { record "second" "s2" 30 with goalId := "other" }] }

def unloadable : Faults :=
  { failure := .storage (.query "no answer"), goals := ["other"] }

def batchTime : Timestamp :=
  ⟨day, 12, 0, 0, 0, some 0⟩

end Sample

end GoalReconciliation

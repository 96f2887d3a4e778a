import GoalReconciliation.Proofs.Store.Listing
import GoalReconciliation.Proofs.Store.Parts
import GoalReconciliation.Proofs.Store.Weaving

/-!
# Procedures that mind one goal each

* `Store.view` : what a procedure for a goal sees of a store, the records of the goal and all postings;
* `BankRecord.outline` : what a record keeps when it is stored again; `Store.eq_of_views` : a store is its views and its
  outlines;
* `Procedure.Minds` : a procedure that asks for nothing but its view, and stores records of the view again with their
  outlines, whether its requests fail or not;
* `Memory.answer_minds`, `Memory.run_leaves`, `Memory.run_minds` : **such a procedure leaves all other views as they are,
  and what it does depends on its view only**; `Memory.run_spared` : nor does it show which other goals cannot be loaded;
* `Memory.run_weaves` : **such procedures for different goals, woven in any way, do what each of them does alone.**
-/

namespace GoalReconciliation

set_option autoImplicit false

/-! ## Views -/

/-- What a record keeps when it is stored again. -/
def BankRecord.outline (r : BankRecord) : String × String × Date :=
  (r.id, r.goalId, r.date)

namespace Store

def view (s : Store) (goal : String) : Store :=
  { s.part goal with ledger := s.ledger }

def outlines (s : Store) : List (String × String × Date) :=
  s.bank.map BankRecord.outline

def Renews (s : Store) (records : List BankRecord) : Prop :=
  ∀ r ∈ records, r.outline ∈ s.outlines

variable {s s' : Store} {goal : String} {records : List BankRecord}

theorem mem_view {r : BankRecord} : r ∈ (s.view goal).bank ↔ r ∈ s.bank ∧ r.goalId = goal :=
  mem_part

theorem names_of_outlines (h : s'.outlines = s.outlines) :
    s'.bank.map BankRecord.id = s.bank.map BankRecord.id := by
  have hnames := congrArg (List.map Prod.fst) h
  rwa [outlines, outlines, List.map_map, List.map_map] at hnames

theorem Renews.owns (h : (s.view goal).Renews records) : (s.part goal).Owns goal records := by
  intro r hr
  obtain ⟨old, hold, houtline⟩ := List.mem_map.mp (h r hr)
  obtain ⟨hid, hrest⟩ := Prod.mk.inj houtline
  obtain ⟨hgoal, -⟩ := Prod.mk.inj hrest
  exact ⟨hgoal ▸ (mem_view.mp hold).2, hid ▸ List.mem_map_of_mem hold⟩

theorem bank_foldl_putBank_congr (h : s'.bank = s.bank) :
    (records.foldl putBank s').bank = (records.foldl putBank s).bank := by
  induction records generalizing s s' with
  | nil => exact h
  | cons r rest ih => exact ih (congrArg (replaceOrAdd BankRecord.id r) h)

/-- Records of a view that are stored again change this view and no other. -/
theorem view_foldl_putBank (hs : (s.bank.map BankRecord.id).Nodup) (h : (s.view goal).Renews records) :
    (records.foldl putBank s).view goal = records.foldl putBank (s.view goal) ∧
      ∀ other, other ≠ goal → (records.foldl putBank s).view other = s.view other := by
  obtain ⟨-, hsame, hothers⟩ := part_foldl_putBank hs h.owns
  refine ⟨congrArg₂ Store.mk ?_ ?_, fun other hother => congrArg₂ Store.mk ?_ (ledger_foldl_putBank s)⟩
  · exact (congrArg Store.bank hsame).trans (bank_foldl_putBank_congr rfl)
  · exact (ledger_foldl_putBank s).trans (ledger_foldl_putBank (s.view goal)).symm
  · exact congrArg Store.bank (hothers other hother)

theorem outlines_foldl_putBank (hs : (s.bank.map BankRecord.id).Nodup) (h : s.Renews records) :
    (records.foldl putBank s).outlines = s.outlines := by
  induction records generalizing s with
  | nil => rfl
  | cons r rest ih =>
      obtain ⟨hr, hrest⟩ := List.forall_mem_cons.mp h
      have hput : (s.putBank r).outlines = s.outlines := by
        obtain ⟨old, hold, houtline⟩ := List.mem_map.mp hr
        have hid : old.id = r.id := congrArg Prod.fst houtline
        refine map_replaceOrAdd (hid ▸ List.mem_map_of_mem hold) fun x hx hxid => ?_
        rw [Lookup.eq_of_name hs hx hold (hxid.trans hid.symm), houtline]
      have hnext : (s.putBank r).Renews rest := fun x hx => hput ▸ hrest x hx
      exact (ih (nodup_replaceOrAdd hs) hnext).trans hput

theorem Renews.of_view (h : (s.view goal).Renews records) : s.Renews records := by
  intro r hr
  obtain ⟨old, hold, houtline⟩ := List.mem_map.mp (h r hr)
  exact houtline ▸ List.mem_map_of_mem (mem_view.mp hold).1

/-- **A store is its views, and the outlines of its records in their order.** -/
theorem eq_of_views (hs : (s.bank.map BankRecord.id).Nodup) (houtlines : s'.outlines = s.outlines)
    (hledger : s'.ledger = s.ledger) (hviews : ∀ goal, s'.view goal = s.view goal) : s' = s := by
  have hnames := names_of_outlines houtlines
  have hbank : s'.bank.map id = s.bank.map id := by
    refine Lookup.map_eq_of_names hs hnames fun r hr => ⟨r, ?_, rfl⟩
    have hmem : r ∈ (s'.view r.goalId).bank := hviews r.goalId ▸ mem_view.mpr ⟨hr, rfl⟩
    exact (bankRecord?_iff (hnames ▸ hs)).mpr ⟨(mem_view.mp hmem).1, rfl⟩
  rw [List.map_id, List.map_id] at hbank
  exact congrArg₂ Store.mk hbank hledger

theorem goalIds_congr (houtlines : s'.outlines = s.outlines) (hledger : s'.ledger = s.ledger)
    (range : Option DateRange) : s'.goalIds range = s.goalIds range := by
  have hbank : ∀ s : Store, (s.bank.filter fun r => DateRange.admits range r.date).map BankRecord.goalId =
      (s.outlines.filter fun outline => DateRange.admits range outline.2.2).map fun outline => outline.2.1 := by
    intro s
    rw [outlines, List.filter_map, List.map_map]
    rfl
  rw [goalIds, goalIds, hbank, hbank, houtlines, hledger]

end Store

/-! ## Questions about one goal -/

/-- A question that a view of the goal answers. -/
def Query.About (goal : String) : Query → Prop
  | .bankRecords asked _ => asked = some goal
  | .manualMatches asked => asked = some goal
  | .postings _ _ => True
  | _ => False

theorem Store.answer_view (s : Store) {goal : String} {question : Query} (h : question.About goal) :
    (s.view goal).answer question = s.answer question := by
  cases question with
  | bankRecords asked range =>
      obtain rfl : asked = some goal := h
      exact Store.bankRecords_part s goal range
  | manualMatches asked =>
      obtain rfl : asked = some goal := h
      have hlisted : (s.view goal).bank.filter (fun r => r.hasManualMatch && Store.isGoal (some goal) r.goalId) =
          s.bank.filter fun r => r.hasManualMatch && Store.isGoal (some goal) r.goalId := by
        change (s.bank.filter _).filter _ = _
        rw [List.filter_filter]
        refine List.filter_congr fun r _ => ?_
        by_cases hgoal : r.goalId = goal
        · simp [hgoal]
        · have hnot : ¬goal = r.goalId := fun e => hgoal e.symm
          simp [Store.isGoal, hgoal, hnot]
      exact congrArg (Sorting.byText BankRecord.id) hlisted
  | postings asked range => rfl
  | bankById ids => cases h
  | postingsByKey keys => cases h
  | goalIds range => cases h
  | taggedBank filter limit => cases h
  | taggedBankCount filter => cases h
  | taggedKeys filter limit => cases h
  | taggedKeyCount filter => cases h

/-! ## Procedures that mind a goal -/

namespace Procedure

variable {α β : Type} {goal : String} {view : Store}

/-- The procedure asks for what the view of its goal answers, and stores records of the view again with their outlines,
whether its requests fail or not. -/
def Minds (goal : String) : Procedure α → Store → Prop
  | .done _, _ => True
  | .ask (.query question) next, view =>
    question.About goal ∧ (next (.ok (view.answer question))).Minds goal view ∧
      ∀ failure, (next (.error failure)).Minds goal view
  | .ask (.save _) _, _ => False
  | .ask (.saveAll writes) next, view =>
    ∃ records, writes = [.bank records] ∧ view.Renews records ∧
      (next (.ok ())).Minds goal (records.foldl Store.putBank view) ∧
      ∀ failure, (next (.error failure)).Minds goal view
  | .record _ rest, view => rest.Minds goal view

theorem minds_query {question : Query} {f : question.Answer → Procedure β} (h : question.About goal)
    (hf : (f (view.answer question)).Minds goal view) : (query question >>= f).Minds goal view :=
  ⟨h, hf, fun _ => trivial⟩

theorem minds_lift {x : Except Failure α} {f : α → Procedure β} (hf : ∀ a, x = .ok a → (f a).Minds goal view) :
    ((liftM x : Procedure α) >>= f).Minds goal view := by
  cases x with
  | ok a => exact hf a rfl
  | error failure => trivial

end Procedure

namespace Memory

structure Ready (m : Memory) : Prop where
  depth : m.depth = 0
  distinct : (m.store.bank.map BankRecord.id).Nodup

theorem ready_ofStore {s : Store} (hs : (s.bank.map BankRecord.id).Nodup) : (ofStore s).Ready :=
  ⟨rfl, hs⟩

variable {α : Type} {faults : Option Faults} {goal : String} {m m' : Memory}

theorem Ready.run (h : m.Ready) (p : Procedure α) : ((under faults).run p m).state.Ready :=
  ⟨(run_depth faults p m).trans h.depth, run_distinct faults p h.distinct⟩

/-! ### A save -/

/-- How a save of records ends, which some of its steps make fail. -/
def saveOutcome (faults : Option Faults) (records : List BankRecord) : Except Failure Unit :=
  match faults with
  | some f => if records.any fun r => f.bank.contains r.id then .error f.failure else .ok ()
  | none => .ok ()

theorem saveSingly_outcome (f : Faults) (records : List BankRecord) (m : Memory) :
    (repository.saveSingly f BankRecord.id f.bank (fun r => .bank [r]) records m).1 =
      if records.any fun r => f.bank.contains r.id then .error f.failure else .ok () := by
  induction records generalizing m with
  | nil => rfl
  | cons r rest ih =>
      rw [Repository.saveSingly, List.any_cons]
      cases f.bank.contains r.id with
      | true => rfl
      | false => exact ih _

theorem save_outcome (faults : Option Faults) (records : List BankRecord) (m : Memory) :
    ((under faults).save (.bank records) m).1 = saveOutcome faults records := by
  cases faults with
  | none => rfl
  | some f =>
      change (if f.bank.isEmpty then save (.bank records) m
        else repository.saveSingly f BankRecord.id f.bank (fun r => .bank [r]) records m).1 = _
      split
      · rename_i hempty
        have hnone : records.any (fun r => f.bank.contains r.id) = false := by simp [List.isEmpty_iff.mp hempty]
        rw [saveOutcome, hnone]
        rfl
      · exact saveSingly_outcome f records m

/-- A save of records that is a scope of its own: how it ends does not depend on what is stored, and it stores all of
them or none. -/
theorem answer_saveAll_bank (hm : m.depth = 0) (records : List BankRecord) :
    (under faults).answer (.saveAll [.bank records]) m =
      match saveOutcome faults records with
      | .ok _ => (.ok (), ⟨records.foldl Store.putBank m.store, m.store, 0⟩)
      | .error failure => (.error failure, ⟨m.store, m.store, 0⟩) := by
  have houtcome := save_outcome faults records m.enter
  have hkeeps : Keeps (fun _ => True) m.enter ((under faults).save (.bank records) m.enter).2 :=
    under_save_keeps faults (Write.preserves_true _) m.enter
  have hentered : m.enter = ⟨m.store, m.store, 1⟩ := if_pos hm
  have hstored : saveOutcome faults records = .ok () → ((under faults).save (.bank records) m.enter).2.store =
      records.foldl Store.putBank m.store := fun h => by
    rw [save_bank_ok (houtcome.trans h), store_enter]
  change (under faults).inScope ((under faults).saveEach [.bank records]) m = _
  unfold Repository.inScope Repository.saveEach Repository.close
  rw [under_enter, under_leave]
  generalize (under faults).save (.bank records) m.enter = saved at houtcome hkeeps hstored
  obtain ⟨outcome, next⟩ := saved
  have hsnapshot : next.snapshot = m.store := hkeeps.snapshot.trans (hentered ▸ rfl)
  have hdepth : next.depth = 1 := hkeeps.depth.trans (hentered ▸ rfl)
  obtain rfl : outcome = saveOutcome faults records := houtcome
  cases hsaved : saveOutcome faults records with
  | ok _ =>
      have hstore : next.store = records.foldl Store.putBank m.store := hstored hsaved
      simp [Repository.saveEach, leave, hdepth, hsnapshot, hstore]
      rfl
  | error failure =>
      simp [leave, hdepth, hsnapshot]
      rfl

/-! ### Requests -/

/-- The store with other views of some goals, and all else as it was. -/
structure Leaves (goals : List String) (s s' : Store) : Prop where
  outlines : s'.outlines = s.outlines
  ledger : s'.ledger = s.ledger
  views : ∀ goal, goal ∉ goals → s'.view goal = s.view goal

theorem Leaves.refl (goals : List String) (s : Store) : Leaves goals s s := ⟨rfl, rfl, fun _ _ => rfl⟩

theorem Leaves.trans {goals : List String} {s s' s'' : Store} (h : Leaves goals s s') (h' : Leaves goals s' s'') :
    Leaves goals s s'' :=
  ⟨h'.outlines.trans h.outlines, h'.ledger.trans h.ledger,
    fun goal hgoal => (h'.views goal hgoal).trans (h.views goal hgoal)⟩

theorem Leaves.mono {goals more : List String} {s s' : Store} (h : Leaves goals s s') (hsub : goals ⊆ more) :
    Leaves more s s' :=
  ⟨h.outlines, h.ledger, fun goal hgoal => h.views goal fun hmem => hgoal (hsub hmem)⟩

/-- What a view answers does not depend on anything else that is stored. -/
theorem query_view {question : Query} (h : question.About goal) (hview : m'.store.view goal = m.store.view goal) :
    ((under faults).query question m').1 = ((under faults).query question m).1 := by
  have hanswer : m'.store.answer question = m.store.answer question := by
    rw [← Store.answer_view m'.store h, hview, Store.answer_view m.store h]
  cases faults with
  | none => exact congrArg Except.ok hanswer
  | some f =>
      simp only [under, Repository.withFaults]
      split
      · rfl
      · exact congrArg Except.ok hanswer

/-- **A request of a procedure that minds its goal** leaves all other views as they are, and what becomes of it depends
on the view of the goal only. -/
theorem answer_minds {request : Request} {next : Except Failure request.Answer → Procedure α} (hm : m.Ready)
    (h : (Procedure.ask request next).Minds goal (m.store.view goal)) :
    Leaves [goal] m.store ((under faults).answer request m).2.store ∧
      (next ((under faults).answer request m).1).Minds goal (((under faults).answer request m).2.store.view goal) ∧
      ∀ m' : Memory, m'.Ready → m'.store.view goal = m.store.view goal →
        ((under faults).answer request m').1 = ((under faults).answer request m).1 ∧
          ((under faults).answer request m').2.store.view goal =
            ((under faults).answer request m).2.store.view goal := by
  cases request with
  | query question =>
      obtain ⟨habout, hok, herror⟩ := h
      change Leaves [goal] m.store ((under faults).query question m).2.store ∧
        (next ((under faults).query question m).1).Minds goal (((under faults).query question m).2.store.view goal) ∧
        ∀ m' : Memory, m'.Ready → m'.store.view goal = m.store.view goal →
          ((under faults).query question m').1 = ((under faults).query question m).1 ∧
            ((under faults).query question m').2.store.view goal =
              ((under faults).query question m).2.store.view goal
      simp only [under_query_state]
      refine ⟨.refl _ _, ?_, fun m' _ hview => ⟨query_view habout hview, hview⟩⟩
      rcases under_query_cases faults question m with hanswer | ⟨failure, hanswer⟩
      · rw [hanswer, ← Store.answer_view m.store habout]
        exact hok
      · rw [hanswer]
        exact herror failure
  | save w => exact h.elim
  | saveAll writes =>
      obtain ⟨records, rfl, hrenews, hok, herror⟩ := h
      obtain ⟨hview, hothers⟩ := Store.view_foldl_putBank hm.distinct hrenews
      rw [answer_saveAll_bank hm.depth]
      cases hsaved : saveOutcome faults records with
      | ok _ =>
          refine ⟨⟨Store.outlines_foldl_putBank hm.distinct hrenews.of_view, Store.ledger_foldl_putBank m.store, ?_⟩,
            ?_, fun m' hm' hsame => ?_⟩
          · exact fun other hother => hothers other fun e => hother (e ▸ List.mem_singleton_self goal)
          · exact hview ▸ hok
          · rw [answer_saveAll_bank hm'.depth, hsaved]
            refine ⟨rfl, ?_⟩
            have hview' := (Store.view_foldl_putBank hm'.distinct (hsame ▸ hrenews)).1
            exact hview'.trans ((congrArg (records.foldl Store.putBank) hsame).trans hview.symm)
      | error failure =>
          refine ⟨.refl _ _, herror failure, fun m' hm' hsame => ?_⟩
          rw [answer_saveAll_bank hm'.depth, hsaved]
          exact ⟨rfl, hsame⟩

theorem Ready.answer (h : m.Ready) (request : Request) : ((under faults).answer request m).2.Ready :=
  ⟨(answer_depth faults request m).trans h.depth, answer_store faults (Stable.distinct _) h.distinct⟩

/-! ### Runs -/

/-- **A run of such a procedure leaves all other views as they are.** -/
theorem run_leaves {p : Procedure α} (hm : m.Ready) (h : p.Minds goal (m.store.view goal)) :
    Leaves [goal] m.store ((under faults).run p m).state.store := by
  induction p generalizing m with
  | done outcome => exact .refl _ _
  | ask request next ih =>
      obtain ⟨hleaves, hnext, -⟩ := answer_minds hm h
      exact hleaves.trans (ih _ (hm.answer request) hnext)
  | record event rest ih => exact ih hm h

/-- **What it does depends on its view only.** -/
theorem run_minds {p : Procedure α} (hm : m.Ready) (h : p.Minds goal (m.store.view goal)) (hm' : m'.Ready)
    (hview : m'.store.view goal = m.store.view goal) :
    ((under faults).run p m').outcome = ((under faults).run p m).outcome ∧
      ((under faults).run p m').events = ((under faults).run p m).events ∧
      ((under faults).run p m').state.store.view goal = ((under faults).run p m).state.store.view goal := by
  induction p generalizing m m' with
  | done outcome => exact ⟨rfl, rfl, hview⟩
  | ask request next ih =>
      obtain ⟨-, hnext, hlocal⟩ := answer_minds hm h
      obtain ⟨hanswer, hview'⟩ := hlocal m' hm' hview
      rw [Repository.run, Repository.run]
      simp only []
      rw [hanswer]
      exact ih _ (hm.answer request) hnext (hm'.answer request) hview'
  | record event rest ih =>
      obtain ⟨houtcome, hevents, hstate⟩ := ih hm h hm' hview
      exact ⟨houtcome, congrArg (event :: ·) hevents, hstate⟩

/-- Faults that hit other goals only do not show. -/
theorem run_spared {f : Faults} {p : Procedure α} (hm : m.Ready) (h : p.Minds goal (m.store.view goal))
    (hgoal : goal ∉ f.goals) : (under (some f)).run p m = (under (some { f with goals := [] })).run p m := by
  induction p generalizing m with
  | done outcome => rfl
  | ask request next ih =>
      have hanswer : (under (some f)).answer request m = (under (some { f with goals := [] })).answer request m := by
        cases request with
        | query question =>
            have hhits : f.hitsQuery question = ({ f with goals := [] } : Faults).hitsQuery question := by
              obtain ⟨habout, -, -⟩ := h
              cases question with
              | bankRecords asked range =>
                  obtain rfl : asked = some goal := habout
                  simpa [Faults.hitsQuery] using hgoal
              | _ => rfl
            change (if f.hitsQuery question then _ else _) =
              (if ({ f with goals := [] } : Faults).hitsQuery question then _ else _)
            rw [hhits]
        | save w => exact h.elim
        | saveAll writes =>
            obtain ⟨records, rfl, -⟩ := h
            rw [answer_saveAll_bank hm.depth, answer_saveAll_bank hm.depth]
            rfl
      have hnext : (next ((under (some f)).answer request m).1).Minds goal
          (((under (some f)).answer request m).2.store.view goal) := (answer_minds hm h).2.1
      have hready : ((under (some f)).answer request m).2.Ready := hm.answer request
      have hrest := ih _ hready hnext
      rw [Repository.run, Repository.run]
      simp only []
      rw [← hanswer]
      exact hrest
  | record event rest ih =>
      rw [Repository.run, Repository.run, ih hm h]

/-! ### Several procedures -/

/-- Procedures for different goals, each of which minds its own. -/
structure Separate (tasks : List (String × Procedure α)) (m : Memory) : Prop where
  ready : m.Ready
  once : (tasks.map Prod.fst).Nodup
  minds : ∀ task ∈ tasks, task.2.Minds task.1 (m.store.view task.1)

section Steps

variable {before after : List (String × Procedure α)} {p p' : Procedure α}

theorem Separate.ne (h : Separate (before ++ (goal, p) :: after) m) {task : String × Procedure α}
    (htask : task ∈ before ++ after) : task.1 ≠ goal := by
  have honce := h.once
  rw [List.map_append, List.map_cons] at honce
  have hnot := (List.nodup_cons.mp (List.perm_middle.nodup_iff.mp honce)).1
  rw [← List.map_append] at hnot
  rintro rfl
  exact hnot (List.mem_map.mpr ⟨task, htask, rfl⟩)

theorem Separate.others (h : Separate (before ++ (goal, p) :: after) m) {task : String × Procedure α}
    (htask : task ∈ before ++ after) : task.2.Minds task.1 (m.store.view task.1) :=
  h.minds task ((List.mem_append.mp htask).elim (List.mem_append_left _)
    fun hmem => List.mem_append_right _ (List.mem_cons_of_mem _ hmem))

theorem Separate.step (h : Separate (before ++ (goal, p) :: after) m) (hm' : m'.Ready)
    (hleaves : Leaves [goal] m.store m'.store) (hp' : p'.Minds goal (m'.store.view goal)) :
    Separate (before ++ (goal, p') :: after) m' where
  ready := hm'
  once := by
    have honce := h.once
    rw [List.map_append, List.map_cons] at honce ⊢
    exact honce
  minds task htask := by
    rcases List.mem_cons.mp (List.perm_middle.subset htask) with rfl | hother
    · exact hp'
    · rw [hleaves.views _ fun hmem => h.ne hother (List.mem_singleton.mp hmem)]
      exact h.others hother

/-- The trace of several procedures, each for a goal of its own, shows each of them as if it were alone: its outcome,
its events in some order with those of the others, and what it makes of its view. -/
structure Apart (faults : Option Faults) (tasks : List (String × Procedure α)) (m : Memory)
    (trace : Trace Memory (List (Except Failure α))) : Prop where
  outcome : trace.outcome = .ok (tasks.map fun task => ((under faults).run task.2 m).outcome)
  events : trace.events.Perm (tasks.flatMap fun task => ((under faults).run task.2 m).events)
  leaves : Leaves (tasks.map Prod.fst) m.store trace.state.store
  views : ∀ task ∈ tasks, trace.state.store.view task.1 = ((under faults).run task.2 m).state.store.view task.1

theorem Apart.step {events : List AuditEvent} {trace : Trace Memory (List (Except Failure α))}
    (hseparate : Separate (before ++ (goal, p) :: after) m) (hm' : m'.Ready)
    (hleaves : Leaves [goal] m.store m'.store)
    (hp : (under faults).run p m =
      { (under faults).run p' m' with events := events ++ ((under faults).run p' m').events })
    (h : Apart faults (before ++ (goal, p') :: after) m' trace) :
    Apart faults (before ++ (goal, p) :: after) m { trace with events := events ++ trace.events } := by
  -- the step does not show in what the other procedures do
  have hsame : ∀ task ∈ before ++ after,
      ((under faults).run task.2 m').outcome = ((under faults).run task.2 m).outcome ∧
        ((under faults).run task.2 m').events = ((under faults).run task.2 m).events ∧
        ((under faults).run task.2 m').state.store.view task.1 =
          ((under faults).run task.2 m).state.store.view task.1 :=
    fun task htask => run_minds hseparate.ready (hseparate.others htask) hm'
      (hleaves.views task.1 fun hmem => hseparate.ne htask (List.mem_singleton.mp hmem))
  obtain ⟨hbefore, hafter⟩ := List.forall_mem_append.mp hsame
  refine { outcome := ?_, events := ?_, leaves := ?_, views := ?_ }
  · refine h.outcome.trans (congrArg Except.ok ?_)
    rw [List.map_append, List.map_append, List.map_cons, List.map_cons, hp,
      List.map_congr_left fun task htask => (hbefore task htask).1,
      List.map_congr_left fun task htask => (hafter task htask).1]
  · have hevents := h.events
    rw [List.flatMap_append, List.flatMap_cons, List.flatMap_congr fun task htask => (hbefore task htask).2.1,
      List.flatMap_congr fun task htask => (hafter task htask).2.1] at hevents
    rw [List.flatMap_append, List.flatMap_cons, hp, List.append_assoc]
    exact (hevents.append_left events).trans (List.perm_append_comm_assoc _ _ _)
  · have hgoals : (before ++ (goal, p') :: after).map Prod.fst = (before ++ (goal, p) :: after).map Prod.fst := by simp
    exact (hleaves.mono (by simp)).trans (hgoals ▸ h.leaves)
  · intro task htask
    rcases List.mem_cons.mp (List.perm_middle.subset htask) with rfl | hother
    · exact (h.views (goal, p') (by simp)).trans (by rw [hp])
    · have hmem : task ∈ before ++ (goal, p') :: after :=
        List.perm_middle.symm.subset (List.mem_cons_of_mem _ hother)
      exact (h.views task hmem).trans (hsame task hother).2.2

end Steps

/-- **Procedures for different goals, woven in any way, do what each of them does alone.** -/
theorem run_weaves {tasks : List (String × Procedure α)} {woven : Procedure (List (Except Failure α))}
    (hwoven : Procedure.Weaves (tasks.map Prod.snd) woven) (h : Separate tasks m) :
    Apart faults tasks m ((under faults).run woven m) := by
  generalize htasks : tasks.map Prod.snd = procedures at hwoven
  induction hwoven generalizing tasks m with
  | finished outcomes =>
      have hdone : ∀ task ∈ tasks, ∃ outcome, task.2 = .done outcome := fun task htask => by
        obtain ⟨outcome, -, hp⟩ := List.mem_map.mp (htasks ▸ List.mem_map_of_mem htask)
        exact ⟨outcome, hp.symm⟩
      refine { outcome := ?_, events := ?_, leaves := .refl _ _, views := fun task htask => ?_ }
      · have houtcomes := congrArg (List.map fun p => ((under faults).run p m).outcome) htasks
        rw [List.map_map, List.map_map] at houtcomes
        have hall : outcomes.map ((fun p => ((under faults).run p m).outcome) ∘ Procedure.done) = outcomes :=
          List.map_id outcomes
        exact congrArg Except.ok (houtcomes.trans hall).symm
      · have hnone : (tasks.flatMap fun task => ((under faults).run task.2 m).events) = [] := by
          refine List.flatMap_eq_nil_iff.mpr fun task htask => ?_
          obtain ⟨outcome, hp⟩ := hdone task htask
          rw [hp]
          rfl
        rw [hnone]
        exact .refl _
      · obtain ⟨outcome, hp⟩ := hdone task htask
        rw [hp]
        rfl
  | @ask before after request next rest _ ih =>
      obtain ⟨tasksBefore, others, rfl, rfl, hothers⟩ := List.map_eq_append_iff.mp htasks
      obtain ⟨⟨goal, p⟩, tasksAfter, rfl, rfl, rfl⟩ := List.map_eq_cons_iff.mp hothers
      have hask : (Procedure.ask request next).Minds goal (m.store.view goal) :=
        h.minds (goal, .ask request next) (by simp)
      have hready : ((under faults).answer request m).2.Ready := h.ready.answer request
      obtain ⟨hleaves, hnext, -⟩ := answer_minds h.ready hask
      have hrun : (under faults).run (.ask request next) m =
          { (under faults).run (next ((under faults).answer request m).1) ((under faults).answer request m).2 with
            events := [] ++ ((under faults).run (next ((under faults).answer request m).1)
              ((under faults).answer request m).2).events } := rfl
      have hrest := ih ((under faults).answer request m).1 (h.step hready hleaves hnext) (by simp)
      exact hrest.step h hready hleaves hrun
  | @record before after event p rest _ ih =>
      obtain ⟨tasksBefore, others, rfl, rfl, hothers⟩ := List.map_eq_append_iff.mp htasks
      obtain ⟨⟨goal, p'⟩, tasksAfter, rfl, rfl, rfl⟩ := List.map_eq_cons_iff.mp hothers
      have hp : p.Minds goal (m.store.view goal) := h.minds (goal, .record event p) (by simp)
      have hrest := ih (h.step h.ready (.refl _ _) hp) (by simp)
      have hrun : (under faults).run (.record event p) m =
          { (under faults).run p m with events := [event] ++ ((under faults).run p m).events } := rfl
      exact hrest.step h h.ready (.refl _ _) hrun

end Memory

end GoalReconciliation

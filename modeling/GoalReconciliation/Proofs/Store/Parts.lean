import GoalReconciliation.Proofs.Store.Guarantee
import GoalReconciliation.Proofs.Store.Reviewed
import GoalReconciliation.Proofs.Store.Saved

/-!
# Several goals in one store

A run for a goal reads records of that goal and stores them again. Runs for different goals do not meet, whatever the
order of their requests.

* `Store.part` : the records of one goal; `part_foldl_putBank` : records of a goal that are stored again change its part
  and no other;
* `Repository.grants` : none of the writes fails that a run asks for;
* `Procedure.Settles` : a procedure that stores records of one goal only, and leaves their part with some property,
  whatever becomes of all other parts in the meantime;
* `Underway` : such procedures for different goals, each with what is left of it, on one store; `Underway.ask` : a
  request of one of them leaves the others where they are;
* `run_underway`, `run_inOrder`, `run_inTurns` : **such procedures leave each part with the property**, alone, one after
  the other, or taking turns at each request.
-/

namespace GoalReconciliation

set_option autoImplicit false

/-! ## The records of one goal -/

namespace Store

def part (s : Store) (goal : String) : Store :=
  { bank := s.bank.filter (·.goalId = goal) }

def Owns (s : Store) (goal : String) (records : List BankRecord) : Prop :=
  ∀ r ∈ records, r.goalId = goal ∧ r.id ∈ s.bank.map BankRecord.id

variable {s : Store} {goal : String} {r : BankRecord}

theorem mem_part : r ∈ (s.part goal).bank ↔ r ∈ s.bank ∧ r.goalId = goal := by
  simp [part]

theorem part_distinct (hs : (s.bank.map BankRecord.id).Nodup) (goal : String) :
    ((s.part goal).bank.map BankRecord.id).Nodup :=
  hs.sublist (List.filter_sublist.map _)

theorem bankRecords_part (s : Store) (goal : String) (range : Option DateRange) :
    (s.part goal).bankRecords (some goal) range = s.bankRecords (some goal) range := by
  have hlisted : (s.part goal).bank.filter (fun r => isGoal (some goal) r.goalId && DateRange.admits range r.date) =
      s.bank.filter fun r => isGoal (some goal) r.goalId && DateRange.admits range r.date := by
    rw [part, List.filter_filter]
    refine List.filter_congr fun r _ => ?_
    by_cases hgoal : r.goalId = goal
    · simp [hgoal]
    · have hnot : ¬goal = r.goalId := fun e => hgoal e.symm
      simp [isGoal, hgoal, hnot]
  rw [bankRecords, bankRecords, hlisted]

theorem part_putBank (hs : (s.bank.map BankRecord.id).Nodup) (hgoal : r.goalId = goal)
    (hid : r.id ∈ (s.part goal).bank.map BankRecord.id) : (s.putBank r).part goal = (s.part goal).putBank r := by
  obtain ⟨old, hold, hname⟩ := List.mem_map.mp hid
  obtain ⟨hstored, holdGoal⟩ := mem_part.mp hold
  have hput : (s.putBank r).bank = s.bank.map fun x => if x.id = r.id then r else x :=
    replaceOrAdd_eq_map hs (hname ▸ List.mem_map_of_mem hstored)
  have hputPart : ((s.part goal).putBank r).bank = (s.part goal).bank.map fun x => if x.id = r.id then r else x :=
    replaceOrAdd_eq_map (part_distinct hs goal) hid
  have hsame : ∀ x ∈ s.bank, decide ((if x.id = r.id then r else x).goalId = goal) = decide (x.goalId = goal) := by
    intro x hx
    split
    · rename_i hxid
      rw [Lookup.eq_of_name hs hx hstored (hxid.trans hname.symm), holdGoal, hgoal]
    · rfl
  have hbank : ((s.putBank r).part goal).bank = ((s.part goal).putBank r).bank := by
    rw [hputPart, part, hput, List.filter_map]
    exact congrArg _ (List.filter_congr hsame)
  exact congrArg₂ Store.mk hbank rfl

/-- A record of a goal that is stored again leaves the parts of other goals as they are. -/
theorem part_putBank_other (hs : (s.bank.map BankRecord.id).Nodup) (hgoal : r.goalId = goal)
    (hid : r.id ∈ (s.part goal).bank.map BankRecord.id) {other : String} (hother : other ≠ goal) :
    (s.putBank r).part other = s.part other := by
  obtain ⟨old, hold, hname⟩ := List.mem_map.mp hid
  obtain ⟨hstored, holdGoal⟩ := mem_part.mp hold
  have hbank : ((s.putBank r).part other).bank = (s.part other).bank := by
    refine filter_replaceOrAdd (by simpa [hgoal] using hother.symm) fun x hx hxid => ?_
    rw [Lookup.eq_of_name hs hx hstored (hxid.trans hname.symm), holdGoal]
    simpa using hother.symm
  exact congrArg₂ Store.mk hbank rfl

/-- **Records of a goal that are stored again change the part of the goal and no other.** -/
theorem part_foldl_putBank {records : List BankRecord} (hs : (s.bank.map BankRecord.id).Nodup)
    (hrecords : (s.part goal).Owns goal records) :
    ((records.foldl putBank s).bank.map BankRecord.id).Nodup ∧
      (records.foldl putBank s).part goal = records.foldl putBank (s.part goal) ∧
      ∀ other, other ≠ goal → (records.foldl putBank s).part other = s.part other := by
  induction records generalizing s with
  | nil => exact ⟨hs, rfl, fun _ _ => rfl⟩
  | cons r rest ih =>
      obtain ⟨⟨hgoal, hid⟩, hrest⟩ := List.forall_mem_cons.mp hrecords
      have hpart := part_putBank hs hgoal hid
      have hnames : ((s.putBank r).part goal).bank.map BankRecord.id = (s.part goal).bank.map BankRecord.id := by
        rw [hpart, putBank, names_replaceOrAdd, if_pos hid]
      obtain ⟨hdistinct, hsame, hothers⟩ :=
        ih (s := s.putBank r) (nodup_replaceOrAdd hs) fun x hx => ⟨(hrest x hx).1, hnames ▸ (hrest x hx).2⟩
      refine ⟨hdistinct, hsame.trans (by rw [hpart]; rfl), fun other hother => ?_⟩
      exact (hothers other hother).trans (part_putBank_other hs hgoal hid hother)

end Store

/-! ## Writes that succeed -/

/-- A question, or a write that has not failed. -/
def Request.granted : (request : Request) → Except Failure request.Answer → Bool
  | .query _, _ => true
  | .save _, answer => answer.toBool
  | .saveAll _, answer => answer.toBool

namespace Repository

variable {σ α β : Type}

def grants (repo : Repository σ) : Procedure α → σ → Bool
  | .done _, _ => true
  | .ask request next, s =>
    request.granted (repo.answer request s).1 &&
      grants repo (next (repo.answer request s).1) (repo.answer request s).2
  | .record _ rest, s => grants repo rest s

variable (repo : Repository σ)

theorem grants_bind (p : Procedure α) (f : α → Procedure β) (s : σ) :
    repo.grants (p >>= f) s = (repo.grants p s &&
      match (repo.run p s).outcome with
      | .ok a => repo.grants (f a) (repo.run p s).state
      | .error _ => true) := by
  change repo.grants (p.bind f) s = _
  induction p generalizing s with
  | done outcome => cases outcome <;> rfl
  | ask request next ih =>
      rw [Procedure.bind, grants, ih, grants, Bool.and_assoc]
      rfl
  | record event rest ih => exact ih s

theorem grants_bind_pure (p : Procedure α) (f : α → β) (s : σ) :
    repo.grants (p >>= fun a => pure (f a)) s = repo.grants p s := by
  rw [grants_bind]
  cases (repo.run p s).outcome <;> exact Bool.and_true _

theorem grants_attempt (p : Procedure α) (s : σ) : repo.grants p.attempt s = repo.grants p s := by
  induction p generalizing s with
  | done outcome => rfl
  | ask request next ih => rw [Procedure.attempt, grants, ih, grants]
  | record event rest ih => exact ih s

theorem run_attempt_bind (p : Procedure α) (f : Except Failure α → Procedure β) (s : σ) :
    (repo.run (p.attempt >>= f) s).state = (repo.run (f (repo.run p s).outcome) (repo.run p s).state).state ∧
      repo.grants (p.attempt >>= f) s =
        (repo.grants p s && repo.grants (f (repo.run p s).outcome) (repo.run p s).state) := by
  rw [run_bind, grants_bind, run_attempt, grants_attempt]
  exact ⟨rfl, rfl⟩

theorem run_recordAll (events : List AuditEvent) (p : Procedure α) (s : σ) :
    (repo.run (Procedure.recordAll events p) s).state = (repo.run p s).state ∧
      repo.grants (Procedure.recordAll events p) s = repo.grants p s := by
  induction events with
  | nil => exact ⟨rfl, rfl⟩
  | cons event rest ih => exact ih

end Repository

/-! ## What a procedure makes of the part of a goal -/

/-- A store whose ids are distinct, with this part. -/
def Store.Shows (s : Store) (goal : String) (part : Store) : Prop :=
  (s.bank.map BankRecord.id).Nodup ∧ s.part goal = part

namespace Procedure

variable {α β : Type} {goal : String} {Q : Store → Prop} {part : Store}

/-- From a part of the store, the procedure stores records of that goal again, and where its writes succeed, the part
has the property `Q` in the end. All other parts may change in the meantime. -/
def Settles (goal : String) (Q : Store → Prop) : Procedure α → Store → Prop
  | .done _, part => Q part
  | .ask (.query question) next, part =>
    ∀ answer, Request.Admits (fun s => s.Shows goal part) (.query question) answer → (next answer).Settles goal Q part
  | .ask (.save _) _, _ => False
  | .ask (.saveAll writes) next, part =>
    ∃ records, writes = [.bank records] ∧ part.Owns goal records ∧
      (next (.ok ())).Settles goal Q (records.foldl Store.putBank part)
  | .record _ rest, part => rest.Settles goal Q part

theorem settles_query {question : Query} {f : question.Answer → Procedure β} (hpart : Q part)
    (hf : ∀ s : Store, s.Shows goal part → (f (s.answer question)).Settles goal Q part) :
    (query question >>= f).Settles goal Q part := by
  intro answer hanswer
  cases answer with
  | ok a =>
      obtain ⟨s, hs, rfl⟩ := hanswer
      exact hf s hs
  | error failure => exact hpart

theorem settles_lift {x : Except Failure α} {f : α → Procedure β} (hpart : Q part)
    (hf : ∀ a, x = .ok a → (f a).Settles goal Q part) : ((liftM x : Procedure α) >>= f).Settles goal Q part := by
  cases x with
  | ok a => exact hf a rfl
  | error failure => exact hpart

theorem settles_advance {p : Procedure α} (h : p.Settles goal Q part) :
    (Turns.advance p).2.Settles goal Q part := by
  induction p generalizing part with
  | done outcome => exact h
  | ask request next ih => exact h
  | record event rest ih => exact ih h

end Procedure

/-! ## Procedures for different goals -/

/-- Procedures for different goals on one store: what is left of each of them settles its part, and all other parts are
settled. -/
structure Underway {ι α : Type} (goalOf : ι → String) (Q : Store → Prop) (tasks : List (ι × Procedure α)) (s : Store) :
    Prop where
  distinct : (s.bank.map BankRecord.id).Nodup
  once : (tasks.map fun task => goalOf task.1).Nodup
  each : ∀ task ∈ tasks, task.2.Settles (goalOf task.1) Q (s.part (goalOf task.1))
  others : ∀ goal, goal ∉ tasks.map (fun task => goalOf task.1) → Q (s.part goal)

namespace Underway

variable {ι α : Type} {goalOf : ι → String} {Q : Store → Prop} {tasks rest : List (ι × Procedure α)} {place : ι}
  {s : Store}

/-- One procedure for each of several goals, and all other parts settled. -/
theorem start (goals : List String) (f : String → Procedure α) (hs : (s.bank.map BankRecord.id).Nodup)
    (htasks : tasks.map (fun task => (goalOf task.1, task.2)) = goals.map fun goal => (goal, f goal))
    (hgoals : goals.Nodup) (heach : ∀ goal ∈ goals, (f goal).Settles goal Q (s.part goal))
    (hothers : ∀ goal, goal ∉ goals → Q (s.part goal)) : Underway goalOf Q tasks s := by
  have hnames : tasks.map (fun task => goalOf task.1) = goals := by
    have hfirst := congrArg (List.map Prod.fst) htasks
    rwa [List.map_map, List.map_map, List.map_id''] at hfirst
    exact fun _ => rfl
  refine ⟨hs, hnames ▸ hgoals, fun task htask => ?_, fun goal hgoal => hothers goal (hnames ▸ hgoal)⟩
  have hmem : (goalOf task.1, task.2) ∈ goals.map fun goal => (goal, f goal) :=
    htasks ▸ List.mem_map.mpr ⟨task, htask, rfl⟩
  obtain ⟨goal, hgoal, heq⟩ := List.mem_map.mp hmem
  obtain ⟨hname, hp⟩ := Prod.mk.inj heq
  rw [← hp, ← hname]
  exact heach goal hgoal

theorem perm {tasks' : List (ι × Procedure α)} (hperm : tasks.Perm tasks') (h : Underway goalOf Q tasks s) :
    Underway goalOf Q tasks' s where
  distinct := h.distinct
  once := (hperm.map _).nodup_iff.mp h.once
  each task htask := h.each task (hperm.mem_iff.mpr htask)
  others goal hgoal := h.others goal fun hmem => hgoal ((hperm.map _).mem_iff.mp hmem)

theorem done {outcome : Except Failure α} (h : Underway goalOf Q ((place, .done outcome) :: rest) s) :
    Underway goalOf Q rest s where
  distinct := h.distinct
  once := (List.nodup_cons.mp h.once).2
  each task htask := h.each task (List.mem_cons_of_mem _ htask)
  others goal hgoal := by
    by_cases hown : goal = goalOf place
    · subst hown
      exact h.each _ List.mem_cons_self
    · exact h.others goal fun hmem => (List.mem_cons.mp hmem).elim hown hgoal

/-- One of the procedures is replaced by another one that settles its part, in a store that may differ in this part. -/
theorem replace {p q : Procedure α} {s' : Store} (h : Underway goalOf Q ((place, p) :: rest) s)
    (hdistinct : (s'.bank.map BankRecord.id).Nodup) (hq : q.Settles (goalOf place) Q (s'.part (goalOf place)))
    (hothers : ∀ goal, goal ≠ goalOf place → s'.part goal = s.part goal) :
    Underway goalOf Q ((place, q) :: rest) s' where
  distinct := hdistinct
  once := h.once
  each := by
    refine List.forall_mem_cons.mpr ⟨hq, fun task htask => ?_⟩
    have hne : goalOf task.1 ≠ goalOf place := fun e =>
      (List.nodup_cons.mp h.once).1 (List.mem_map.mpr ⟨task, htask, e⟩)
    rw [hothers _ hne]
    exact h.each task (List.mem_cons_of_mem _ htask)
  others goal hgoal := by
    rw [hothers goal fun e => hgoal (e ▸ List.mem_cons_self)]
    exact h.others goal hgoal

theorem advance {p : Procedure α} (h : Underway goalOf Q ((place, p) :: rest) s) :
    Underway goalOf Q ((place, (Procedure.Turns.advance p).2) :: rest) s :=
  h.replace h.distinct (Procedure.settles_advance (h.each _ List.mem_cons_self)) fun _ _ => rfl

/-- **A request of one of the procedures leaves the others where they are.** -/
theorem ask {faults : Option Faults} {m : Memory} {request : Request}
    {next : Except Failure request.Answer → Procedure α}
    (h : Underway goalOf Q ((place, .ask request next) :: rest) m.store)
    (hgranted : request.granted ((Memory.under faults).answer request m).1 = true) :
    Underway goalOf Q ((place, next ((Memory.under faults).answer request m).1) :: rest)
      ((Memory.under faults).answer request m).2.store := by
  have hown := h.each _ List.mem_cons_self
  cases request with
  | query question =>
      have hstate : ((Memory.under faults).answer (.query question) m).2 = m :=
        Memory.under_query_state faults question m
      have hadmits : Request.Admits (fun s => s.Shows (goalOf place) (m.store.part (goalOf place))) (.query question)
          ((Memory.under faults).answer (.query question) m).1 :=
        Memory.answer_admits (P := fun s => s.Shows (goalOf place) (m.store.part (goalOf place))) faults
          ⟨h.distinct, rfl⟩
      rw [hstate]
      exact h.replace h.distinct (hown _ hadmits) fun _ _ => rfl
  | save w => exact hown.elim
  | saveAll writes =>
      obtain ⟨records, rfl, howns, hnext⟩ := hown
      have hanswer : ((Memory.under faults).answer (.saveAll [.bank records]) m).1 = .ok () := by
        generalize ((Memory.under faults).answer (.saveAll [.bank records]) m).1 = answer at hgranted
        cases answer with
        | ok _ => rfl
        | error failure => cases hgranted
      obtain ⟨hdistinct, hpart, hothers⟩ := Store.part_foldl_putBank h.distinct howns
      rw [hanswer, Memory.saveAll_bank_ok hanswer]
      exact h.replace hdistinct (hpart ▸ hnext) hothers

end Underway

/-! ## Runs -/

namespace Memory

open Procedure (Turns)

variable {ι α : Type} {goalOf : ι → String} {Q : Store → Prop} {faults : Option Faults} {m : Memory}

theorem grants_query {β : Type} {question : Query} {f : question.Answer → Procedure β} {answer : question.Answer}
    (h : ((under faults).query question m).1 = .ok answer) :
    (under faults).grants (Procedure.query question >>= f) m = (under faults).grants (f answer) m := by
  change (true && (under faults).grants ((Procedure.done ((under faults).query question m).1).bind f)
    ((under faults).query question m).2) = _
  rw [h, under_query_state]
  rfl

/-- One of the procedures run to its end. -/
theorem run_underway {place : ι} {p : Procedure α} {rest : List (ι × Procedure α)}
    (h : Underway goalOf Q ((place, p) :: rest) m.store) (hgrants : (under faults).grants p m = true) :
    Underway goalOf Q rest ((under faults).run p m).state.store := by
  induction p generalizing m with
  | done outcome => exact h.done
  | ask request next ih =>
      obtain ⟨hgranted, hnext⟩ := (Bool.and_eq_true _ _).mp hgrants
      exact ih _ (h.ask hgranted) hnext
  | record event p ih => exact ih (h.replace h.distinct (h.each _ List.mem_cons_self) fun _ _ => rfl) hgrants

theorem run_attempt_underway {β : Type} {place : ι} {p : Procedure α} {rest : List (ι × Procedure α)}
    {f : Except Failure α → Procedure β} (h : Underway goalOf Q ((place, p) :: rest) m.store)
    (hgrants : (under faults).grants (p.attempt >>= f) m = true)
    (hrest : ∀ outcome m', Underway goalOf Q rest m'.store → (under faults).grants (f outcome) m' = true →
      ∀ goal, Q (((under faults).run (f outcome) m').state.store.part goal)) :
    ∀ goal, Q (((under faults).run (p.attempt >>= f) m).state.store.part goal) := by
  obtain ⟨hstate, hgranted⟩ := (under faults).run_attempt_bind p f m
  obtain ⟨hp, hf⟩ := (Bool.and_eq_true _ _).mp (hgranted.symm.trans hgrants)
  rw [hstate]
  exact hrest _ _ (run_underway h hp) hf

theorem run_inOrder {tasks : List (ι × Procedure α)} (h : Underway goalOf Q tasks m.store)
    (hgrants : (under faults).grants (Procedure.inOrder (tasks.map fun task => task.2.attempt)) m = true) :
    ∀ goal, Q (((under faults).run (Procedure.inOrder (tasks.map fun task => task.2.attempt)) m).state.store.part
      goal) := by
  induction tasks generalizing m with
  | nil => exact fun goal => h.others goal List.not_mem_nil
  | cons task rest ih =>
      refine run_attempt_underway (p := task.2) h hgrants fun outcome m' hm' hgrants' => ?_
      have hstate : ((under faults).run (Procedure.inOrder (rest.map fun task => task.2.attempt) >>=
          fun outcomes => pure (outcome :: outcomes)) m').state =
          ((under faults).run (Procedure.inOrder (rest.map fun task => task.2.attempt)) m').state :=
        Repository.effect_bind_state _ fun _ _ => rfl
      rw [Repository.grants_bind_pure] at hgrants'
      rw [hstate]
      exact ih hm' hgrants'

theorem run_finishInOrder {goalOf : Nat → String} {tasks : List (Nat × Procedure α)}
    (h : Underway goalOf Q tasks m.store) {finished : List (Nat × Except Failure α)}
    (hgrants : (under faults).grants (Procedure.finishInOrder finished tasks) m = true) :
    ∀ goal, Q (((under faults).run (Procedure.finishInOrder finished tasks) m).state.store.part goal) := by
  induction tasks generalizing m finished with
  | nil => exact fun goal => h.others goal List.not_mem_nil
  | cons task rest ih => exact run_attempt_underway (p := task.2) h hgrants fun _ _ hm' hgrants' => ih hm' hgrants'

end Memory

namespace Procedure.Turns

variable {α : Type} {goalOf : Nat → String} {Q : Store → Prop} {s : Store}

def tasks (t : Turns α) : List (Nat × Procedure α) :=
  t.active ++ t.waiting

theorem underway_enter {t : Turns α} {place : Nat} {p : Procedure α}
    (h : Underway goalOf Q ((place, p) :: t.tasks) s) : Underway goalOf Q (enter t place p).2.tasks s := by
  have hadvanced := h.advance
  unfold Turns.enter
  generalize advance p = advanced at hadvanced
  obtain ⟨events, q⟩ := advanced
  have hlast : Underway goalOf Q (t.active ++ [(place, q)] ++ t.waiting) s := by
    refine hadvanced.perm ?_
    rw [List.append_assoc, List.singleton_append]
    exact List.perm_middle.symm
  cases q with
  | done outcome => exact hadvanced.done
  | ask request next => exact hlast
  | record event rest => exact hlast

theorem underway_fill {t : Turns α} (h : Underway goalOf Q t.tasks s) (limit fuel : Nat) :
    Underway goalOf Q (fill limit fuel t).2.tasks s := by
  induction fuel generalizing t with
  | zero => exact h
  | succ fuel ih =>
      unfold Turns.fill
      cases hwaiting : t.waiting with
      | nil => exact h
      | cons task rest =>
          obtain ⟨place, p⟩ := task
          simp only []
          split
          · refine ih (underway_enter (h.perm ?_))
            rw [tasks, hwaiting]
            exact List.perm_middle
          · exact h

end Procedure.Turns

namespace Memory

open Procedure (Turns)

variable {α : Type} {goalOf : Nat → String} {Q : Store → Prop} {faults : Option Faults} {m : Memory}

/-- What is in progress, taking turns at each request. -/
theorem run_takeTurns {t : Turns α} (h : Underway goalOf Q t.tasks m.store) {limit turns : Nat}
    (hgrants : (under faults).grants (Procedure.takeTurns limit turns t) m = true) :
    ∀ goal, Q (((under faults).run (Procedure.takeTurns limit turns t) m).state.store.part goal) := by
  induction turns generalizing m t with
  | zero => exact run_finishInOrder h hgrants
  | succ turns ih =>
      unfold Procedure.takeTurns at hgrants ⊢
      unfold Turns.tasks at h
      cases hactive : t.active with
      | nil =>
          rw [hactive] at h hgrants
          exact run_finishInOrder h hgrants
      | cons task rest =>
          obtain ⟨place, p⟩ := task
          rw [hactive] at h hgrants
          cases p with
          | done outcome => exact run_attempt_underway h hgrants fun _ _ hm' hgrants' => ih hm' hgrants'
          | ask request next =>
              obtain ⟨hgranted, hnext⟩ := (Bool.and_eq_true _ _).mp hgrants
              have hasked : Underway goalOf Q ((place, next ((under faults).answer request m).1) ::
                  ({ t with active := rest } : Turns α).tasks) ((under faults).answer request m).2.store :=
                h.ask hgranted
              obtain ⟨hstate, hrecorded⟩ := (under faults).run_recordAll
                ((Turns.enter { t with active := rest } place (next ((under faults).answer request m).1)).1 ++ _)
                (Procedure.takeTurns limit turns _) ((under faults).answer request m).2
              have hbegun := Turns.underway_fill (Turns.underway_enter hasked) limit (Turns.enter
                { t with active := rest } place (next ((under faults).answer request m).1)).2.waiting.length
              exact fun goal => hstate ▸ ih hbegun (hrecorded.symm.trans hnext) goal
          | record event next => exact run_attempt_underway h hgrants fun _ _ hm' hgrants' => ih hm' hgrants'

/-- **All of them, taking turns at each request.** -/
theorem run_inTurns {procedures : List (Procedure α)}
    (h : Underway goalOf Q (procedures.mapIdx fun place p => (place, p)) m.store) {limit : Nat}
    (hgrants : (under faults).grants (Procedure.inTurns limit procedures) m = true) :
    ∀ goal, Q (((under faults).run (Procedure.inTurns limit procedures) m).state.store.part goal) := by
  have hbegun := Turns.underway_fill (t := ⟨[], procedures.mapIdx fun place p => (place, p), []⟩) h limit
    procedures.length
  unfold Procedure.inTurns at hgrants ⊢
  generalize Turns.fill limit procedures.length ⟨[], procedures.mapIdx fun place p => (place, p), []⟩ = filled
    at hbegun hgrants ⊢
  obtain ⟨begun, t⟩ := filled
  obtain ⟨hstate, hrecorded⟩ := (under faults).run_recordAll begun (Procedure.takeTurns limit Procedure.maxTurns t) m
  simp only [Repository.grants_bind_pure] at hgrants
  have hturns := run_takeTurns hbegun (hrecorded.symm.trans hgrants)
  have hsorted : ((under faults).run (Procedure.recordAll begun (Procedure.takeTurns limit Procedure.maxTurns t) >>=
      fun finished => pure ((finished.mergeSort fun a b => decide (a.1 ≤ b.1)).map (·.2))) m).state =
      ((under faults).run (Procedure.recordAll begun (Procedure.takeTurns limit Procedure.maxTurns t)) m).state :=
    Repository.effect_bind_state _ fun _ _ => rfl
  exact fun goal => (hsorted.trans hstate) ▸ hturns goal

end Memory

end GoalReconciliation

import GoalReconciliation.GoalLock
import GoalReconciliation.Proofs.Assoc

/-!
# Goals are served one task at a time

A lock knows its tasks by their arrival, and the registry knows a lock by a count of its users. The count is right after
every step, so that tasks of one goal always meet at one lock, and the goal's tasks are a queue.

* `GoalLocks.queue` : the tasks of a goal, in the order of their arrival;
* `GoalLocks.Consistent` : each goal in use has a lock of its own, an entry with it, and as many users as tasks;
* `drop_consistent`, `enter_consistent`, `mark_consistent` : what a task does keeps the registry so;
* `holds_iff` : who holds a goal is the first of its queue;
* `settle_spec` : at the front of each queue those that want to leave go;
* `GoalLocks.next`, `step_spec` : what a step does to the queue of each goal;
* `GoalLocks.Served` : a goal has one holder, the one that came first, and an entry as long as it is in use;
* `run_served` : **goals are served one task at a time, first come, first served**, whatever tasks come, leave, fail and
  are stopped.
-/

namespace GoalReconciliation

set_option autoImplicit false

namespace GoalLocks

def queue (s : GoalLocks) (goal : String) : List LockTask :=
  s.tasks.filter fun task => decide (task.goal = goal)

@[simp] theorem mem_queue {s : GoalLocks} {goal : String} {a : LockTask} :
    a ∈ s.queue goal ↔ a ∈ s.tasks ∧ a.goal = goal := by
  simp [queue]

/-- A registry as its tasks need it. Locks are told apart by the goals of their tasks, and entries count these. -/
structure Consistent (s : GoalLocks) : Prop where
  ascending : s.tasks.Pairwise fun a b => a.number < b.number
  arrived : ∀ a ∈ s.tasks, a.number < s.arrivals ∧ a.lock < s.arrivals
  locks : ∀ a ∈ s.tasks, ∀ b ∈ s.tasks, a.lock = b.lock ↔ a.goal = b.goal
  keys : (s.entries.map Prod.fst).Nodup
  counted : ∀ goal,
    Assoc.get? goal s.entries = (s.queue goal).head?.map fun a => ⟨a.lock, (s.queue goal).length⟩

theorem consistent_empty : Consistent {} where
  ascending := .nil
  arrived := by simp
  locks := by simp
  keys := .nil
  counted := fun _ => rfl

variable {s : GoalLocks}

/-! ## The queue of a goal -/

theorem Consistent.queue_ascending (hs : s.Consistent) (goal : String) :
    (s.queue goal).Pairwise fun a b => a.number < b.number :=
  hs.ascending.sublist List.filter_sublist

theorem Consistent.nodup_queue (hs : s.Consistent) (goal : String) : (s.queue goal).Nodup :=
  (hs.queue_ascending goal).imp fun h e => absurd (congrArg LockTask.number e) (Nat.ne_of_lt h)

theorem eq_of_number {tasks : List LockTask} (h : tasks.Pairwise fun a b => a.number < b.number) {a b : LockTask}
    (ha : a ∈ tasks) (hb : b ∈ tasks) (hnumber : a.number = b.number) : a = b := by
  induction h with
  | nil => cases ha
  | cons hfirst _ ih =>
      rcases List.mem_cons.mp ha with rfl | hrest <;> rcases List.mem_cons.mp hb with rfl | hrest'
      · rfl
      · exact absurd hnumber (Nat.ne_of_lt (hfirst b hrest'))
      · exact absurd hnumber.symm (Nat.ne_of_lt (hfirst a hrest))
      · exact ih hrest hrest'

theorem head?_eq_some_iff {tasks : List LockTask} (h : tasks.Pairwise fun a b => a.number < b.number) {a : LockTask}
    (ha : a ∈ tasks) : tasks.head? = some a ↔ ∀ b ∈ tasks, a.number ≤ b.number := by
  cases h with
  | nil => cases ha
  | @cons first rest hfirst _ =>
      constructor
      · rintro ⟨⟩ b hb
        rcases List.mem_cons.mp hb with rfl | hb
        · exact Nat.le_refl _
        · exact Nat.le_of_lt (hfirst b hb)
      · intro hleast
        rcases List.mem_cons.mp ha with rfl | ha
        · rfl
        · have hbefore := hfirst a ha
          have hafter := hleast first List.mem_cons_self
          omega

/-- Whoever holds a goal is the first of its queue. -/
theorem holds_iff (hs : s.Consistent) {a : LockTask} (ha : a ∈ s.tasks) :
    s.holds a = true ↔ (s.queue a.goal).head? = some a := by
  rw [head?_eq_some_iff (hs.queue_ascending a.goal) (mem_queue.mpr ⟨ha, rfl⟩)]
  unfold holds
  simp only [List.all_eq_true, Bool.not_eq_true', Bool.and_eq_false_iff, decide_eq_false_iff_not, mem_queue]
  constructor
  · rintro h b ⟨hb, hgoal⟩
    rcases h b hb with hlock | hnumber
    · exact absurd ((hs.locks b hb a ha).mpr hgoal) hlock
    · omega
  · intro h b hb
    by_cases hlock : b.lock = a.lock
    · have := h b ⟨hb, (hs.locks b hb a ha).mp hlock⟩
      exact .inr (by omega)
    · exact .inl hlock

theorem mem_holders_iff (hs : s.Consistent) {a : LockTask} :
    a ∈ s.holders ↔ (s.queue a.goal).head? = some a := by
  constructor
  · intro ha
    obtain ⟨ha, hholds⟩ := List.mem_filter.mp ha
    exact (holds_iff hs ha).mp hholds
  · intro hhead
    have ha := (mem_queue.mp (List.mem_of_head? hhead)).1
    exact List.mem_filter.mpr ⟨ha, (holds_iff hs ha).mpr hhead⟩

/-! ## A task gone -/

theorem tasks_drop (hs : s.Consistent) {a : LockTask} (ha : a ∈ s.tasks) :
    (s.drop a).tasks = s.tasks.filter (· != a) := by
  refine List.filter_congr fun b hb => ?_
  by_cases hab : b = a
  · simp [hab]
  · have hnumber : b.number ≠ a.number := fun e => hab (eq_of_number hs.ascending hb ha e)
    simp [hab, hnumber]

theorem queue_drop (hs : s.Consistent) {a : LockTask} (ha : a ∈ s.tasks) (goal : String) :
    (s.drop a).queue goal = (s.queue goal).erase a := by
  rw [(hs.nodup_queue goal).erase_eq_filter]
  unfold queue
  rw [tasks_drop hs ha, List.filter_filter, List.filter_filter]
  exact List.filter_congr fun b _ => Bool.and_comm _ _

theorem get?_release (hs : s.Consistent) {a : LockTask} (ha : a ∈ s.tasks) (goal : String) :
    Assoc.get? goal (s.release a.goal) =
      if a.goal = goal then
        if (s.queue goal).length ≤ 1 then none else some ⟨a.lock, (s.queue goal).length - 1⟩
      else Assoc.get? goal s.entries := by
  cases hqueue : s.queue a.goal with
  | nil => exact absurd (mem_queue.mpr ⟨ha, rfl⟩) (by simp [hqueue])
  | cons first rest =>
      have hfirst : first ∈ s.queue a.goal := by simp [hqueue]
      obtain ⟨hmem, hgoal⟩ := mem_queue.mp hfirst
      have hlock : first.lock = a.lock := (hs.locks first hmem a ha).mpr hgoal
      have hentry := hs.counted a.goal
      rw [hqueue, List.head?_cons, Option.map_some, hlock] at hentry
      unfold release
      rw [hentry]
      simp only []
      split
      · rename_i hlast
        rw [Assoc.get?_filter_ne]
        split
        · rename_i he
          rw [← he, hqueue, if_pos hlast]
        · rfl
      · rename_i hlast
        rw [Assoc.get?_put]
        split
        · rename_i he
          rw [← he, hqueue, if_neg hlast]
        · rfl

theorem nodup_release (hs : s.Consistent) (goal : String) : ((s.release goal).map Prod.fst).Nodup := by
  unfold release
  cases Assoc.get? goal s.entries with
  | none => exact hs.keys
  | some entry =>
      simp only []
      split
      · exact hs.keys.sublist (List.filter_sublist.map _)
      · exact Assoc.nodup_put hs.keys

theorem drop_consistent (hs : s.Consistent) {a : LockTask} (ha : a ∈ s.tasks) : (s.drop a).Consistent := by
  have hsublist : (s.drop a).tasks.Sublist s.tasks := List.filter_sublist
  refine ⟨hs.ascending.sublist hsublist, fun b hb => hs.arrived b (hsublist.subset hb),
    fun b hb c hc => hs.locks b (hsublist.subset hb) c (hsublist.subset hc), nodup_release hs a.goal, fun goal => ?_⟩
  rw [queue_drop hs ha]
  refine (get?_release hs ha goal).trans ?_
  split
  · rename_i he
    subst he
    have hmem : a ∈ s.queue a.goal := mem_queue.mpr ⟨ha, rfl⟩
    have hlength := List.length_erase_of_mem hmem
    cases herase : (s.queue a.goal).erase a with
    | nil =>
        rw [herase, List.length_nil] at hlength
        rw [if_pos (by omega)]
        rfl
    | cons first rest =>
        rw [herase] at hlength
        have hleft : first ∈ s.queue a.goal := List.mem_of_mem_erase (herase ▸ List.mem_cons_self)
        obtain ⟨hfirst, hgoal⟩ := mem_queue.mp hleft
        rw [List.length_cons] at hlength
        rw [if_neg (by omega), List.head?_cons, Option.map_some, (hs.locks first hfirst a ha).mpr hgoal,
          List.length_cons, hlength]
  · rename_i hgoal
    rw [List.erase_of_not_mem fun hmem => hgoal (mem_queue.mp hmem).2]
    exact hs.counted goal

/-! ## Those that want to leave -/

/-- The front of each queue goes as long as it wants to. -/
theorem settle_spec {count : Nat} (hs : s.Consistent) (hcount : s.tasks.length ≤ count) :
    (settle count s).Consistent ∧
      ∀ goal, (settle count s).queue goal = (s.queue goal).dropWhile (·.leaving) := by
  induction count generalizing s with
  | zero =>
      have hnone : s.tasks = [] := List.length_eq_zero_iff.mp (by omega)
      exact ⟨hs, fun goal => by simp [settle, queue, hnone]⟩
  | succ count ih =>
      unfold settle
      cases hfound : s.holders.find? (·.leaving) with
      | none =>
          refine ⟨hs, fun goal => ?_⟩
          cases hqueue : s.queue goal with
          | nil => rfl
          | cons first rest =>
              have hgoal : first.goal = goal := (mem_queue.mp (hqueue ▸ List.mem_cons_self)).2
              have hholds : first ∈ s.holders := (mem_holders_iff hs).mpr (by rw [hgoal, hqueue]; rfl)
              have hstays := List.find?_eq_none.mp hfound first hholds
              rw [List.dropWhile_cons_of_neg hstays]
      | some task =>
          have hholds := List.mem_of_find?_eq_some hfound
          have hleaving : task.leaving = true := List.find?_some hfound
          have hmem : task ∈ s.tasks := (List.mem_filter.mp hholds).1
          have hfewer : (s.drop task).tasks.length ≤ count := by
            have hless : (s.drop task).tasks.length < s.tasks.length :=
              List.length_filter_lt_length_iff_exists.mpr ⟨task, hmem, by simp⟩
            omega
          obtain ⟨hconsistent, hsettled⟩ := ih (drop_consistent hs hmem) hfewer
          refine ⟨hconsistent, fun goal => ?_⟩
          rw [hsettled goal, queue_drop hs hmem]
          by_cases hgoal : task.goal = goal
          · obtain ⟨rest, hqueue⟩ : ∃ rest, s.queue goal = task :: rest :=
              List.head?_eq_some_iff.mp (hgoal ▸ (mem_holders_iff hs).mp hholds)
            rw [hqueue, List.erase_cons_head, List.dropWhile_cons_of_pos hleaving]
          · rw [List.erase_of_not_mem fun h => hgoal (mem_queue.mp h).2]

/-! ## Steps -/

def mark (a b : LockTask) : LockTask :=
  if b = a then { b with leaving := true } else b

theorem mark_fields (a b : LockTask) :
    (mark a b).number = b.number ∧ (mark a b).lock = b.lock ∧ (mark a b).goal = b.goal := by
  unfold mark
  split <;> exact ⟨rfl, rfl, rfl⟩

def marked (s : GoalLocks) (a : LockTask) : GoalLocks :=
  { s with tasks := s.tasks.map (mark a) }

theorem queue_marked (s : GoalLocks) (a : LockTask) (goal : String) :
    (s.marked a).queue goal = (s.queue goal).map (mark a) := by
  unfold queue marked
  rw [List.filter_map]
  congr 1
  exact List.filter_congr fun b _ => by simp [(mark_fields a b).2.2]

theorem mark_consistent (hs : s.Consistent) (a : LockTask) : (s.marked a).Consistent := by
  refine ⟨List.pairwise_map.mpr (hs.ascending.imp fun {b c} h => ?_), fun b hb => ?_, fun b hb c hc => ?_, hs.keys,
    fun goal => ?_⟩
  · rwa [(mark_fields a b).1, (mark_fields a c).1]
  · obtain ⟨b, hmem, rfl⟩ := List.mem_map.mp hb
    rw [(mark_fields a b).1, (mark_fields a b).2.1]
    exact hs.arrived b hmem
  · obtain ⟨b, hmem, rfl⟩ := List.mem_map.mp hb
    obtain ⟨c, hmem', rfl⟩ := List.mem_map.mp hc
    rw [(mark_fields a b).2.1, (mark_fields a b).2.2, (mark_fields a c).2.1, (mark_fields a c).2.2]
    exact hs.locks b hmem c hmem'
  · rw [queue_marked, List.head?_map, List.length_map, Option.map_map]
    refine (hs.counted goal).trans (congrArg (Option.map · (s.queue goal).head?) (funext fun b => ?_))
    simp [(mark_fields a b).2.1]

theorem mem_of_task? {name : String} {a : LockTask} (h : s.task? name = some a) : a ∈ s.tasks :=
  List.mem_reverse.mp (List.mem_of_find?_eq_some h)

theorem leave_eq (hs : s.Consistent) {name : String} {a : LockTask} (ha : s.task? name = some a) :
    s.leave name = settle (s.marked a).tasks.length (s.marked a) := by
  have hmarked : s.tasks.map (fun b => if b.number = a.number then { b with leaving := true } else b) =
      s.tasks.map (mark a) := by
    refine List.map_congr_left fun b hb => ?_
    unfold mark
    by_cases hba : b = a
    · simp [hba]
    · rw [if_neg hba, if_neg fun e => hba (eq_of_number hs.ascending hb (mem_of_task? ha) e)]
  unfold leave
  rw [ha]
  simp only [hmarked]
  rfl

/-- The lock that a task of a goal is given: that of the tasks there, or a new one. -/
def lockFor (s : GoalLocks) (goal : String) : Nat :=
  ((s.queue goal).head?.map LockTask.lock).getD s.arrivals

theorem enter_eq (hs : s.Consistent) (name goal : String) :
    s.enter name goal =
      { entries := Assoc.put goal ⟨s.lockFor goal, (s.queue goal).length + 1⟩ s.entries
        tasks := s.tasks ++ [⟨s.arrivals, name, goal, s.lockFor goal, false⟩]
        arrivals := s.arrivals + 1 } := by
  have hentry := hs.counted goal
  unfold enter lockFor
  cases hqueue : s.queue goal with
  | nil => simp [hentry, hqueue]
  | cons first rest => simp [hentry, hqueue]

theorem queue_enter (hs : s.Consistent) (name goal other : String) :
    (s.enter name goal).queue other =
      if goal = other then s.queue other ++ [⟨s.arrivals, name, goal, s.lockFor goal, false⟩] else s.queue other := by
  rw [enter_eq hs]
  unfold queue
  by_cases hgoal : goal = other <;> simp [hgoal]

/-- The lock of a newcomer is that of its goal. -/
theorem lockFor_iff (hs : s.Consistent) {a : LockTask} (ha : a ∈ s.tasks) (goal : String) :
    a.lock = s.lockFor goal ↔ a.goal = goal := by
  unfold lockFor
  cases hqueue : s.queue goal with
  | nil =>
      have hlock := (hs.arrived a ha).2
      constructor
      · intro h
        simp at h
        omega
      · intro hgoal
        have hmem : a ∈ s.queue goal := mem_queue.mpr ⟨ha, hgoal⟩
        rw [hqueue] at hmem
        cases hmem
  | cons first rest =>
      obtain ⟨hfirst, hgoal⟩ := mem_queue.mp (show first ∈ s.queue goal by simp [hqueue])
      rw [← hgoal]
      exact hs.locks a ha first hfirst

theorem lockFor_le (hs : s.Consistent) (goal : String) : s.lockFor goal ≤ s.arrivals := by
  unfold lockFor
  cases hqueue : s.queue goal with
  | nil => simp
  | cons first rest =>
      have hfirst : first ∈ s.queue goal := by simp [hqueue]
      exact Nat.le_of_lt (hs.arrived first (mem_queue.mp hfirst).1).2

theorem enter_consistent (hs : s.Consistent) (name goal : String) : (s.enter name goal).Consistent := by
  have hqueue := queue_enter hs name goal
  rw [enter_eq hs] at hqueue ⊢
  have hmem : ∀ a ∈ s.tasks ++ [⟨s.arrivals, name, goal, s.lockFor goal, false⟩],
      a ∈ s.tasks ∨ a = ⟨s.arrivals, name, goal, s.lockFor goal, false⟩ := fun a ha => by simpa using ha
  refine ⟨List.pairwise_append.mpr ⟨hs.ascending, List.pairwise_singleton _ _, fun a ha b hb => ?_⟩,
    fun a ha => ?_, fun a ha b hb => ?_, Assoc.nodup_put hs.keys, fun other => ?_⟩
  · rw [List.mem_singleton.mp hb]
    exact (hs.arrived a ha).1
  · rcases hmem a ha with ha | rfl
    · obtain ⟨hnumber, hlock⟩ := hs.arrived a ha
      exact ⟨Nat.lt_succ_of_lt hnumber, Nat.lt_succ_of_lt hlock⟩
    · exact ⟨Nat.lt_succ_self _, Nat.lt_succ_of_le (lockFor_le hs goal)⟩
  · rcases hmem a ha with ha | rfl <;> rcases hmem b hb with hb | rfl
    · exact hs.locks a ha b hb
    · exact lockFor_iff hs ha goal
    · rw [eq_comm, lockFor_iff hs hb goal, eq_comm]
    · simp
  · rw [hqueue other, Assoc.get?_put, hs.counted other]
    by_cases hgoal : goal = other
    · subst hgoal
      unfold lockFor
      cases s.queue goal <;> simp
    · simp [hgoal]

/-- The queue of a goal after a step. Whoever comes joins at the end, whoever is stopped goes from where it stands, and
at the front those that want to leave go. -/
def next (s : GoalLocks) (goal : String) : LockStep → List LockTask
  | .enter name other =>
    if other = goal then s.queue goal ++ [⟨s.arrivals, name, other, s.lockFor other, false⟩] else s.queue goal
  | .leave name | .fail name =>
    match s.task? name with
    | none => s.queue goal
    | some a => ((s.queue goal).map (mark a)).dropWhile (·.leaving)
  | .cancel name =>
    match s.task? name with
    | none => s.queue goal
    | some a => ((s.queue goal).erase a).dropWhile (·.leaving)

theorem leave_spec (hs : s.Consistent) (name : String) :
    (s.leave name).Consistent ∧ ∀ goal, (s.leave name).queue goal = s.next goal (.leave name) := by
  cases ha : s.task? name with
  | none =>
      have hsame : s.leave name = s := by simp [leave, ha]
      rw [hsame]
      exact ⟨hs, fun goal => by simp only [next, ha]⟩
  | some a =>
      obtain ⟨hconsistent, hqueue⟩ := settle_spec (mark_consistent hs a) (Nat.le_refl _)
      rw [leave_eq hs ha]
      exact ⟨hconsistent, fun goal => by simp only [next, ha, hqueue, queue_marked]⟩

theorem cancel_spec (hs : s.Consistent) (name : String) :
    (s.cancel name).Consistent ∧ ∀ goal, (s.cancel name).queue goal = s.next goal (.cancel name) := by
  cases ha : s.task? name with
  | none =>
      have hsame : s.cancel name = s := by simp [cancel, ha]
      rw [hsame]
      exact ⟨hs, fun goal => by simp only [next, ha]⟩
  | some a =>
      have hmem := mem_of_task? ha
      obtain ⟨hconsistent, hqueue⟩ := settle_spec (drop_consistent hs hmem) (List.length_filter_le _ s.tasks)
      have hcancel : s.cancel name = settle s.tasks.length (s.drop a) := by simp [cancel, ha]
      rw [hcancel]
      exact ⟨hconsistent, fun goal => by simp only [next, ha, hqueue, queue_drop hs hmem]⟩

/-- A step keeps the registry consistent, and moves the queue of each goal on. -/
theorem step_spec (hs : s.Consistent) (step : LockStep) :
    (s.step step).Consistent ∧ ∀ goal, (s.step step).queue goal = s.next goal step := by
  cases step with
  | enter name goal => exact ⟨enter_consistent hs name goal, queue_enter hs name goal⟩
  | leave name => exact leave_spec hs name
  | fail name => exact leave_spec hs name
  | cancel name => exact cancel_spec hs name

/-- No queue begins with a task that wants to leave. -/
def Settled (s : GoalLocks) : Prop :=
  ∀ goal a, (s.queue goal).head? = some a → a.leaving = false

theorem settled_empty : Settled {} := fun _ _ h => by cases h

theorem head?_dropWhile {tasks : List LockTask} {a : LockTask}
    (h : (tasks.dropWhile (·.leaving)).head? = some a) : a.leaving = false := by
  have hfront := List.head?_dropWhile_not (·.leaving) tasks
  rw [h] at hfront
  exact hfront

theorem step_settled (hs : s.Consistent) (hsettled : s.Settled) (step : LockStep) : (s.step step).Settled := by
  intro goal a ha
  rw [(step_spec hs step).2 goal] at ha
  cases step with
  | enter name other =>
      simp only [next] at ha
      split at ha
      · cases hqueue : s.queue goal with
        | nil =>
            rw [hqueue] at ha
            cases ha
            rfl
        | cons first rest =>
            rw [hqueue] at ha
            exact hsettled goal a (hqueue ▸ ha)
      · exact hsettled goal a ha
  | leave name | fail name | cancel name =>
      simp only [next] at ha
      split at ha
      · exact hsettled goal a ha
      · exact head?_dropWhile ha

/-! ## What holds after every step -/

/-- Each goal is served: at most one task holds it, the one that came first, and none waits without another one that
holds it. The registry has one entry for each goal with tasks, and its lock is theirs alone. -/
structure Served (s : GoalLocks) : Prop where
  one_holder : ∀ a ∈ s.holders, ∀ b ∈ s.holders, a.goal = b.goal → a = b
  held : ∀ a ∈ s.waiters, ∃ b ∈ s.holders, b.goal = a.goal ∧ b ≠ a
  first : ∀ a ∈ s.holders, ∀ b ∈ s.tasks, b.goal = a.goal → a.number ≤ b.number
  stays : ∀ a ∈ s.holders, a.leaving = false
  same_lock : ∀ a ∈ s.tasks, ∀ b ∈ s.tasks, a.lock = b.lock ↔ a.goal = b.goal
  registered : ∀ goal, goal ∈ s.entries.map Prod.fst ↔ ∃ a ∈ s.tasks, a.goal = goal
  registered_lock : ∀ a ∈ s.tasks, (Assoc.get? a.goal s.entries).map LockEntry.lock = some a.lock
  count : s.entries.length = (Assoc.distinct (s.tasks.map LockTask.goal)).length
  idle : s.tasks = [] → s.entries = []
  running : ∀ goal, s.isRunning goal = true ↔ ∃ a ∈ s.holders, a.goal = goal

/-- A goal with tasks has a first one, and it holds the goal. -/
theorem exists_holder (hs : s.Consistent) {a : LockTask} (ha : a ∈ s.tasks) :
    ∃ b ∈ s.holders, b.goal = a.goal ∧ (s.queue a.goal).head? = some b := by
  have hmem : a ∈ s.queue a.goal := mem_queue.mpr ⟨ha, rfl⟩
  cases hqueue : s.queue a.goal with
  | nil => simp [hqueue] at hmem
  | cons first rest =>
      have hgoal : first.goal = a.goal := (mem_queue.mp (hqueue ▸ List.mem_cons_self)).2
      exact ⟨first, (mem_holders_iff hs).mpr (by rw [hgoal, hqueue]; rfl), hgoal, rfl⟩

theorem Consistent.registered (hs : s.Consistent) (goal : String) :
    goal ∈ s.entries.map Prod.fst ↔ ∃ a ∈ s.tasks, a.goal = goal := by
  rw [← Assoc.isSome_get?, hs.counted goal, Option.isSome_map, List.isSome_head?]
  constructor
  · intro h
    obtain ⟨a, ha⟩ := List.exists_mem_of_ne_nil _ (by simpa using h)
    exact ⟨a, mem_queue.mp ha⟩
  · rintro ⟨a, ha⟩
    simpa using List.ne_nil_of_mem (mem_queue.mpr ha)

theorem Consistent.count (hs : s.Consistent) :
    s.entries.length = (Assoc.distinct (s.tasks.map LockTask.goal)).length := by
  have hperm : (s.entries.map Prod.fst).Perm (Assoc.distinct (s.tasks.map LockTask.goal)) :=
    (List.perm_ext_iff_of_nodup hs.keys (Assoc.nodup_distinct _)).mpr fun goal => by
      rw [hs.registered, Assoc.mem_distinct, List.mem_map]
  rw [← hperm.length_eq, List.length_map]

theorem Consistent.registered_lock (hs : s.Consistent) {a : LockTask} (ha : a ∈ s.tasks) :
    (Assoc.get? a.goal s.entries).map LockEntry.lock = some a.lock := by
  obtain ⟨b, hb, hgoal, hhead⟩ := exists_holder hs ha
  rw [hs.counted, hhead]
  exact congrArg some ((hs.locks b (List.mem_filter.mp hb).1 a ha).mpr hgoal)

theorem Consistent.running (hs : s.Consistent) (goal : String) :
    s.isRunning goal = true ↔ ∃ a ∈ s.holders, a.goal = goal := by
  unfold isRunning
  rw [hs.counted goal]
  constructor
  · intro h
    cases hqueue : s.queue goal with
    | nil => simp [hqueue] at h
    | cons first rest =>
        have hgoal : first.goal = goal := (mem_queue.mp (hqueue ▸ List.mem_cons_self)).2
        exact ⟨first, (mem_holders_iff hs).mpr (by rw [hgoal, hqueue]; rfl), hgoal⟩
  · rintro ⟨a, ha, rfl⟩
    rw [(mem_holders_iff hs).mp ha]
    simpa using ⟨a, (List.mem_filter.mp ha).1, rfl⟩

theorem served (hs : s.Consistent) (hsettled : s.Settled) : s.Served where
  one_holder a ha b hb hgoal := by
    have hhead := (mem_holders_iff hs).mp ha
    rw [hgoal, (mem_holders_iff hs).mp hb] at hhead
    exact (Option.some.inj hhead).symm
  held a ha := by
    obtain ⟨hmem, hwaits⟩ := List.mem_filter.mp ha
    obtain ⟨b, hb, hgoal, -⟩ := exists_holder hs hmem
    refine ⟨b, hb, hgoal, ?_⟩
    rintro rfl
    simp [(List.mem_filter.mp hb).2] at hwaits
  first a ha b hb hgoal := by
    obtain ⟨hmem, -⟩ := List.mem_filter.mp ha
    exact (head?_eq_some_iff (hs.queue_ascending a.goal) (mem_queue.mpr ⟨hmem, rfl⟩)).mp
      ((mem_holders_iff hs).mp ha) b (mem_queue.mpr ⟨hb, hgoal⟩)
  stays a ha := hsettled a.goal a ((mem_holders_iff hs).mp ha)
  same_lock := hs.locks
  registered := hs.registered
  registered_lock _ ha := hs.registered_lock ha
  count := hs.count
  idle hnone := by
    have hcount := hs.count
    rw [hnone] at hcount
    exact List.length_eq_zero_iff.mp hcount
  running := hs.running

/-! ## Runs -/

/-- A later registry: whoever is there has been there before, at the same goal, or came since. -/
structure Follows (earlier later : GoalLocks) : Prop where
  arrivals : earlier.arrivals ≤ later.arrivals
  tasks : ∀ b ∈ later.tasks,
    earlier.arrivals ≤ b.number ∨ ∃ a ∈ earlier.tasks, a.number = b.number ∧ a.goal = b.goal

theorem Follows.refl (s : GoalLocks) : Follows s s :=
  ⟨Nat.le_refl _, fun b hb => .inr ⟨b, hb, rfl, rfl⟩⟩

theorem Follows.trans {s s' s'' : GoalLocks} (h : Follows s s') (h' : Follows s' s'') : Follows s s'' := by
  refine ⟨Nat.le_trans h.arrivals h'.arrivals, fun c hc => ?_⟩
  rcases h'.tasks c hc with hnew | ⟨b, hb, hnumber, hgoal⟩
  · exact .inl (Nat.le_trans h.arrivals hnew)
  · rcases h.tasks b hb with hnew | ⟨a, ha, hnumber', hgoal'⟩
    · exact .inl (hnumber ▸ hnew)
    · exact .inr ⟨a, ha, hnumber'.trans hnumber, hgoal'.trans hgoal⟩

/-- Whoever holds a goal later came later. -/
theorem Follows.order {s s' : GoalLocks} (h : Follows s s') (hs : s.Consistent) (hserved : s.Served) {a b : LockTask}
    (ha : a ∈ s.holders) (hb : b ∈ s'.holders) (hgoal : a.goal = b.goal) : a.number ≤ b.number := by
  rcases h.tasks b (List.mem_filter.mp hb).1 with hnew | ⟨c, hc, hnumber, hgoal'⟩
  · exact Nat.le_of_lt (Nat.lt_of_lt_of_le (hs.arrived a (List.mem_filter.mp ha).1).1 hnew)
  · exact hnumber ▸ hserved.first a ha c hc (hgoal'.trans hgoal.symm)

theorem settle_arrivals (count : Nat) (s : GoalLocks) : (settle count s).arrivals = s.arrivals := by
  induction count generalizing s with
  | zero => rfl
  | succ count ih =>
      unfold settle
      split
      · exact ih _
      · rfl

theorem step_arrivals (s : GoalLocks) (step : LockStep) : s.arrivals ≤ (s.step step).arrivals := by
  have hleave : ∀ name, (s.leave name).arrivals = s.arrivals := by
    intro name
    unfold leave
    split
    · rfl
    · exact settle_arrivals _ _
  have hcancel : ∀ name, (s.cancel name).arrivals = s.arrivals := by
    intro name
    unfold cancel
    split
    · rfl
    · exact settle_arrivals _ _
  cases step with
  | enter name goal => exact Nat.le_succ _
  | leave name => exact Nat.le_of_eq (hleave name).symm
  | fail name => exact Nat.le_of_eq (hleave name).symm
  | cancel name => exact Nat.le_of_eq (hcancel name).symm

theorem mem_next {goal : String} {step : LockStep} {b : LockTask} (hb : b ∈ s.next goal step) :
    s.arrivals ≤ b.number ∨ ∃ a ∈ s.queue goal, a.number = b.number := by
  cases step with
  | enter name other =>
      simp only [next] at hb
      split at hb
      · rcases List.mem_append.mp hb with hb | hb
        · exact .inr ⟨b, hb, rfl⟩
        · rw [List.mem_singleton.mp hb]
          exact .inl (Nat.le_refl _)
      · exact .inr ⟨b, hb, rfl⟩
  | leave name | fail name =>
      simp only [next] at hb
      split at hb
      · exact .inr ⟨b, hb, rfl⟩
      · obtain ⟨a, ha, rfl⟩ := List.mem_map.mp ((List.dropWhile_sublist _).subset hb)
        exact .inr ⟨a, ha, (mark_fields _ a).1.symm⟩
  | cancel name =>
      simp only [next] at hb
      split at hb
      · exact .inr ⟨b, hb, rfl⟩
      · exact .inr ⟨b, List.mem_of_mem_erase ((List.dropWhile_sublist _).subset hb), rfl⟩

theorem step_follows (hs : s.Consistent) (step : LockStep) : Follows s (s.step step) := by
  refine ⟨step_arrivals s step, fun b hb => ?_⟩
  have hqueue : b ∈ (s.step step).queue b.goal := mem_queue.mpr ⟨hb, rfl⟩
  rw [(step_spec hs step).2] at hqueue
  refine (mem_next hqueue).imp id ?_
  rintro ⟨a, ha, hnumber⟩
  obtain ⟨hmem, hgoal⟩ := mem_queue.mp ha
  exact ⟨a, hmem, hnumber, hgoal⟩

theorem run_spec (steps : List LockStep) (hs : s.Consistent) (hsettled : s.Settled) :
    ∀ s' ∈ s :: run steps s, s'.Consistent ∧ s'.Settled ∧ Follows s s' := by
  induction steps generalizing s with
  | nil =>
      intro s' hs'
      rw [List.mem_singleton.mp hs']
      exact ⟨hs, hsettled, .refl s⟩
  | cons step rest ih =>
      intro s' hs'
      rcases List.mem_cons.mp hs' with rfl | hs'
      · exact ⟨hs, hsettled, .refl s'⟩
      · obtain ⟨hconsistent, hfront, hfollows⟩ := ih (step_spec hs step).1 (step_settled hs hsettled step) s' hs'
        exact ⟨hconsistent, hfront, (step_follows hs step).trans hfollows⟩

theorem run_follows (steps : List LockStep) (hs : s.Consistent) (hsettled : s.Settled) :
    (s :: run steps s).Pairwise Follows := by
  induction steps generalizing s with
  | nil => exact List.pairwise_singleton _ _
  | cons step rest ih =>
      refine List.pairwise_cons.mpr ⟨fun s' hs' => ?_, ih (step_spec hs step).1 (step_settled hs hsettled step)⟩
      exact (run_spec (step :: rest) hs hsettled s' (List.mem_cons_of_mem _ hs')).2.2

/-- **Goals are served one task at a time, first come, first served.** After every step, whatever tasks have asked for
goals, left, failed or been stopped, each goal in use has one holder, the task that came first, and an entry in the
registry, whose lock is that of all its tasks; a step moves the queue of each goal on; and no goal is ever held by a
task that came before an earlier holder. -/
theorem run_served (steps : List LockStep) :
    (∀ s ∈ {} :: run steps {}, s.Served ∧ ∀ step goal, (s.step step).queue goal = s.next goal step) ∧
      ({} :: run steps {}).Pairwise fun earlier later =>
        ∀ a ∈ earlier.holders, ∀ b ∈ later.holders, a.goal = b.goal → a.number ≤ b.number := by
  have hrun := run_spec steps consistent_empty settled_empty
  refine ⟨fun s hs => ?_, ?_⟩
  · obtain ⟨hconsistent, hsettled, -⟩ := hrun s hs
    exact ⟨served hconsistent hsettled, fun step => (step_spec hconsistent step).2⟩
  · refine (run_follows steps consistent_empty settled_empty).imp_of_mem fun {earlier later} hearlier _ hfollows => ?_
    obtain ⟨hconsistent, hsettled, -⟩ := hrun earlier hearlier
    exact fun a ha b hb hgoal => hfollows.order hconsistent (served hconsistent hsettled) ha hb hgoal

end GoalLocks

namespace Sample

/-- Three tasks at one goal and one at another. The second is stopped while it waits, and the third, which wanted to
leave before its turn, leaves when the first has failed. -/
def visits : List LockStep :=
  [.enter "first" "a", .enter "second" "a", .enter "third" "a", .enter "other" "b", .leave "third", .cancel "second",
    .enter "fourth" "a", .fail "first", .cancel "other", .leave "fourth"]

def visited : List (List String × List String) :=
  (GoalLocks.run visits {}).map fun s => (s.holders.map LockTask.name, s.waiters.map LockTask.name)

end Sample

theorem GoalLocks.run_served_sample :
    Sample.visited =
        [(["first"], []), (["first"], ["second"]), (["first"], ["second", "third"]),
          (["first", "other"], ["second", "third"]), (["first", "other"], ["second", "third"]),
          (["first", "other"], ["third"]), (["first", "other"], ["third", "fourth"]), (["other", "fourth"], []),
          (["fourth"], []), ([], [])] ∧
      ∀ s ∈ {} :: GoalLocks.run Sample.visits {}, s.Served :=
  ⟨by decide +kernel, fun s hs => ((GoalLocks.run_served Sample.visits).1 s hs).1⟩

end GoalReconciliation

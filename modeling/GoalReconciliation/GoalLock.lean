import GoalReconciliation.Assoc
import GoalReconciliation.Json.Basic
import GoalReconciliation.Sorting

/-!
# Locks of goals

Runs for one goal do not overlap. A registry keeps a lock for each goal that is in use and forgets it with its last
user; a lock serves its tasks in the order of their arrival.

* `GoalLocks` : the registry, and the tasks that hold a lock or wait for one, in the order of their arrival.
* `GoalLocks.enter`, `leave`, `cancel` : a task that asks for a goal, one that is done with it, and one that is stopped.
* `LockStep`, `GoalLocks.run` : these as steps.
* `GoalLocks.toJson` : who holds, who waits, and which goals are in use.
-/

namespace GoalReconciliation

set_option autoImplicit false

/-- A task that holds a lock or waits for one. -/
structure LockTask where
  /-- The arrivals before this one. -/
  number : Nat
  name : String
  goal : String
  /-- The lock, by the number of the task that it was made for. -/
  lock : Nat
  /-- The task leaves as soon as it holds the lock. -/
  leaving : Bool := false
deriving DecidableEq

/-- A goal in use: its lock, and how many tasks use it. -/
structure LockEntry where
  lock : Nat
  users : Nat
deriving DecidableEq

/-- The registry and its tasks. -/
structure GoalLocks where
  entries : List (String × LockEntry) := []
  tasks : List LockTask := []
  arrivals : Nat := 0
deriving DecidableEq

namespace GoalLocks

/-- A task holds its lock: no earlier one has the same. -/
def holds (s : GoalLocks) (task : LockTask) : Bool :=
  s.tasks.all fun other => !(other.lock = task.lock && decide (other.number < task.number))

def holders (s : GoalLocks) : List LockTask :=
  s.tasks.filter s.holds

def waiters (s : GoalLocks) : List LockTask :=
  s.tasks.filter fun task => !s.holds task

/-- The last task of a name. -/
def task? (s : GoalLocks) (name : String) : Option LockTask :=
  s.tasks.reverse.find? (·.name = name)

/-- A lock's last user takes its entry along. -/
def release (s : GoalLocks) (goal : String) : List (String × LockEntry) :=
  match Assoc.get? goal s.entries with
  | none => s.entries
  | some entry =>
    if entry.users ≤ 1 then s.entries.filter fun pair => decide (pair.1 ≠ goal)
    else Assoc.put goal { entry with users := entry.users - 1 } s.entries

/-- A task gone. -/
def drop (s : GoalLocks) (task : LockTask) : GoalLocks :=
  { s with entries := s.release task.goal, tasks := s.tasks.filter fun other => decide (other.number ≠ task.number) }

/-- Holders that want to leave gone, at most so many. -/
def settle : Nat → GoalLocks → GoalLocks
  | 0, s => s
  | count + 1, s =>
    match s.holders.find? (·.leaving) with
    | some task => settle count (s.drop task)
    | none => s

/-- A task asks for a goal. -/
def enter (s : GoalLocks) (name goal : String) : GoalLocks :=
  let entry := (Assoc.get? goal s.entries).getD ⟨s.arrivals, 0⟩
  { entries := Assoc.put goal { entry with users := entry.users + 1 } s.entries
    tasks := s.tasks ++ [⟨s.arrivals, name, goal, entry.lock, false⟩]
    arrivals := s.arrivals + 1 }

/-- A task is done with its goal; one that waits leaves once it holds the lock. -/
def leave (s : GoalLocks) (name : String) : GoalLocks :=
  match s.task? name with
  | none => s
  | some task =>
    let tasks := s.tasks.map fun other => if other.number = task.number then { other with leaving := true } else other
    settle tasks.length { s with tasks := tasks }

/-- A task is stopped, whether it holds its lock or waits for it. -/
def cancel (s : GoalLocks) (name : String) : GoalLocks :=
  match s.task? name with
  | none => s
  | some task => settle s.tasks.length (s.drop task)

/-- A goal whose lock is held. -/
def isRunning (s : GoalLocks) (goal : String) : Bool :=
  (Assoc.get? goal s.entries).any fun entry => s.tasks.any (·.lock = entry.lock)

end GoalLocks

/-- What a task does. A failure inside a lock leaves it like an end without one. -/
inductive LockStep where
  | enter (name goal : String)
  | leave (name : String)
  | fail (name : String)
  | cancel (name : String)
deriving DecidableEq

namespace GoalLocks

def step (s : GoalLocks) : LockStep → GoalLocks
  | .enter name goal => s.enter name goal
  | .leave name => s.leave name
  | .fail name => s.leave name
  | .cancel name => s.cancel name

/-- The registry after each of some steps. -/
def run : List LockStep → GoalLocks → List GoalLocks
  | [], _ => []
  | step :: rest, s => s.step step :: run rest (s.step step)

/-- Who holds, who waits, how many goals are in use, and which of some goals are. -/
def toJson (s : GoalLocks) (goals : List String) : Json :=
  let names (tasks : List LockTask) : Json := Json.texts (Sorting.ascending (tasks.map LockTask.name))
  .object
    [("holding", names s.holders), ("waiting", names s.waiters), ("locks", Json.ofNat s.entries.length),
      ("running", .object (goals.map fun goal => (goal, .bool (s.isRunning goal))))]

end GoalLocks

end GoalReconciliation

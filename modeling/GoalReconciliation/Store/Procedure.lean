import GoalReconciliation.Audit
import GoalReconciliation.Failure
import GoalReconciliation.Store.Query

/-!
# Procedures on a store

* `Procedure` : a tree of requests, each followed by what is done with its answer, and of audit events.
* `Procedure.attempt` : a procedure whose failure is a result.
* `Procedure.inTurns` : several procedures, in order or taking turns at each request.
-/

namespace GoalReconciliation

set_option autoImplicit false

/-- What an operation asks of a store, and what it makes of the answers. -/
inductive Procedure (α : Type) where
  | done (outcome : Except Failure α)
  | ask (request : Request) (next : Except Failure request.Answer → Procedure α)
  | record (event : AuditEvent) (rest : Procedure α)

namespace Procedure

variable {α β : Type}

/-- One procedure after another. -/
def bind (p : Procedure α) (f : α → Procedure β) : Procedure β :=
  match p with
  | done (.ok a) => f a
  | done (.error failure) => done (.error failure)
  | ask request next => ask request fun answer => (next answer).bind f
  | record event rest => record event (rest.bind f)

instance : Monad Procedure where
  pure a := done (.ok a)
  bind := bind

/-- The procedure with its failure as a result. -/
def attempt (p : Procedure α) : Procedure (Except Failure α) :=
  match p with
  | done outcome => done (.ok outcome)
  | ask request next => ask request fun answer => (next answer).attempt
  | record event rest => record event rest.attempt

instance : MonadExcept Failure Procedure where
  throw failure := done (.error failure)
  tryCatch p handle := do
    match ← p.attempt with
    | .ok a => done (.ok a)
    | .error failure => handle failure

instance {ε : Type} [MonadLift (Except ε) (Except Failure)] : MonadLift (Except ε) Procedure :=
  ⟨fun outcome => done (liftM outcome)⟩

instance : MonadLift (Except Failure) Procedure :=
  ⟨done⟩

/-! ## The single steps -/

def query (question : Query) : Procedure question.Answer :=
  ask (.query question) done

def bankRecords (goal : Option String) (range : Option DateRange) : Procedure (List BankRecord) :=
  query (.bankRecords goal range)

def postings (goal : Option String) (range : Option DateRange) : Procedure (List Posting) :=
  query (.postings goal range)

def bankById (ids : List String) : Procedure (List BankRecord) :=
  query (.bankById ids)

def postingsByKey (keys : List String) : Procedure (List Posting) :=
  query (.postingsByKey keys)

def manualMatches (goal : Option String) : Procedure (List BankRecord) :=
  query (.manualMatches goal)

def goalIds (range : Option DateRange) : Procedure (List String) :=
  query (.goalIds range)

def taggedBank (filter : TagFilter) (limit : Option Int) : Procedure (List BankRecord) :=
  query (.taggedBank filter limit)

def taggedBankCount (filter : TagFilter) : Procedure Nat :=
  query (.taggedBankCount filter)

def taggedKeys (filter : TagFilter) (limit : Option Int) : Procedure (List String) :=
  query (.taggedKeys filter limit)

def taggedKeyCount (filter : TagFilter) : Procedure Nat :=
  query (.taggedKeyCount filter)

/-- Records or postings stored, each at once. -/
def save (write : Write) : Procedure Unit :=
  ask (.save write) done

/-- Several writes, all of them or none. -/
def saveAll (writes : List Write) : Procedure Unit :=
  ask (.saveAll writes) done

/-- An entry of the audit trail. -/
def report (action : AuditAction) (goal : Option String) (actor : String) : Procedure Unit :=
  record ⟨action, goal, actor⟩ (done (.ok ()))

/-! ## Several procedures -/

/-- The results of procedures one after the other. -/
def inOrder : List (Procedure α) → Procedure (List α)
  | [] => pure []
  | p :: rest => do
    let a ← p
    return a :: (← inOrder rest)

/-- What is in progress when procedures take turns: those that wait for an answer, each with its place, those that
have not begun, and the results so far. -/
structure Turns (α : Type) where
  active : List (Nat × Procedure α)
  waiting : List (Nat × Procedure α)
  finished : List (Nat × Except Failure α) := []

namespace Turns

/-- The events up to the procedure's first request, and the procedure from there on. -/
def advance : Procedure α → List AuditEvent × Procedure α
  | .record event rest => let (events, p) := advance rest; (event :: events, p)
  | p => ([], p)

/-- A procedure put last among the active ones, or its result noted; and its events so far. -/
def enter (t : Turns α) (place : Nat) (p : Procedure α) : List AuditEvent × Turns α :=
  let (events, p) := advance p
  match p with
  | .done outcome => (events, { t with finished := t.finished ++ [(place, outcome)] })
  | p => (events, { t with active := t.active ++ [(place, p)] })

/-- Waiting procedures begun as long as fewer than `limit` are active. -/
def fill (limit : Nat) : Nat → Turns α → List AuditEvent × Turns α
  | 0, t => ([], t)
  | fuel + 1, t =>
    match t.waiting with
    | [] => ([], t)
    | (place, p) :: rest =>
      if t.active.length < limit then
        let (begun, t) := enter { t with waiting := rest } place p
        let (more, t) := fill limit fuel t
        (begun ++ more, t)
      else ([], t)

end Turns

/-- The events recorded before a procedure. -/
def recordAll (events : List AuditEvent) (p : Procedure α) : Procedure α :=
  events.foldr record p

/-- The procedures that are left, one after the other, added to the results. -/
def finishInOrder (finished : List (Nat × Except Failure α)) :
    List (Nat × Procedure α) → Procedure (List (Nat × Except Failure α))
  | [] => pure finished
  | (place, p) :: rest => do
    let outcome ← p.attempt
    finishInOrder (finished ++ [(place, outcome)]) rest

/-- The active procedures' requests in turn, for so many turns, and then each procedure to its end. -/
def takeTurns (limit : Nat) : Nat → Turns α → Procedure (List (Nat × Except Failure α))
  | 0, t => finishInOrder t.finished (t.active ++ t.waiting)
  | turns + 1, t =>
    match t.active with
    | [] => finishInOrder t.finished t.waiting
    | (place, .ask request next) :: rest =>
      ask request fun answer =>
        let (begun, t) := Turns.enter { t with active := rest } place (next answer)
        let (more, t) := Turns.fill limit t.waiting.length t
        recordAll (begun ++ more) (takeTurns limit turns t)
    | (place, p) :: rest => do
      let outcome ← p.attempt
      takeTurns limit turns { t with active := rest, finished := t.finished ++ [(place, outcome)] }

/-- How many turns procedures may take before the rest of them are done in order. -/
def maxTurns : Nat := 100000

/-- The outcomes of procedures that take turns at each request, at most `limit` of them at once. -/
def inTurns (limit : Nat) (procedures : List (Procedure α)) : Procedure (List (Except Failure α)) := do
  let (begun, t) := Turns.fill limit procedures.length ⟨[], procedures.mapIdx fun place p => (place, p), []⟩
  let finished ← recordAll begun (takeTurns limit maxTurns t)
  return (finished.mergeSort fun a b => decide (a.1 ≤ b.1)).map (·.2)

end Procedure

end GoalReconciliation

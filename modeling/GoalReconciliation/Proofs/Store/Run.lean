import GoalReconciliation.Store.Repository

/-!
# Runs of procedures

* `run_asked`, `run_bind`, `run_attempt` : the run of a request, and of a composed procedure by the runs of its parts;
* `written` : the records that a run asks to be stored, whether the store then fails or not;
* `run_bind_ok` : a successful run of two procedures, one after the other;
* `effect` : what a procedure makes of a state, its outcome and the state that it leaves, part by part;
  `effect_bind_state` : what follows may leave the state as it is; `effect_inOrder` : the parts of a list, one by one;
* `Same` : two procedures that lead to the same from a state;
* `Procedure.Reads` : a procedure that asks questions only; `run_state_of_reads` : it leaves the state as it is.
-/

namespace GoalReconciliation

set_option autoImplicit false

def Write.records : Write → List BankRecord
  | .bank records => records
  | .postings _ => []

def Request.records : Request → List BankRecord
  | .query _ => []
  | .save w => w.records
  | .saveAll writes => writes.flatMap Write.records

def Procedure.Reads {α : Type} : Procedure α → Prop
  | .done _ => True
  | .ask (.query _) next => ∀ answer, (next answer).Reads
  | .ask _ _ => False
  | .record _ rest => rest.Reads

namespace Procedure

variable {α β : Type}

theorem reads_query {question : Query} {f : question.Answer → Procedure β} (h : ∀ answer, (f answer).Reads) :
    (Procedure.query question >>= f).Reads := by
  intro answer
  cases answer with
  | ok a => exact h a
  | error failure => trivial

theorem reads_lift {x : Except Failure α} {f : α → Procedure β} (h : ∀ a, (f a).Reads) :
    ((liftM x : Procedure α) >>= f).Reads := by
  cases x with
  | ok a => exact h a
  | error failure => trivial

end Procedure

/-- A run that goes on from its outcome and state. -/
def Trace.andThen {σ α β : Type} (trace : Trace σ α) (next : α → σ → Trace σ β) : Trace σ β :=
  match trace.outcome with
  | .ok a => { next a trace.state with events := trace.events ++ (next a trace.state).events }
  | .error failure => ⟨.error failure, trace.events, trace.state⟩

namespace Repository

variable {σ α β : Type}

def written (repo : Repository σ) : Procedure α → σ → List BankRecord
  | .done _, _ => []
  | .ask request next, s =>
    request.records ++ written repo (next (repo.answer request s).1) (repo.answer request s).2
  | .record _ rest, s => written repo rest s

variable (repo : Repository σ)

theorem run_asked {request : Request} {s s' : σ} {answer : Except Failure request.Answer}
    (h : repo.answer request s = (answer, s')) (next : Except Failure request.Answer → Procedure α) :
    repo.run (.ask request next) s = repo.run (next answer) s' := by
  rw [Repository.run, h]

theorem run_bind (p : Procedure α) (f : α → Procedure β) (s : σ) :
    repo.run (p >>= f) s = (repo.run p s).andThen fun a s => repo.run (f a) s := by
  change repo.run (p.bind f) s = _
  induction p generalizing s with
  | done outcome =>
      cases outcome with
      | ok a => rfl
      | error failure => rfl
  | ask request next ih => exact ih _ _
  | record event rest ih =>
      rw [Procedure.bind, run, ih, run, Trace.andThen, Trace.andThen]
      cases (repo.run rest s).outcome with
      | ok a => rfl
      | error failure => rfl

theorem written_bind (p : Procedure α) (f : α → Procedure β) (s : σ) :
    repo.written (p >>= f) s = repo.written p s ++
      match (repo.run p s).outcome with
      | .ok a => repo.written (f a) (repo.run p s).state
      | .error _ => [] := by
  change repo.written (p.bind f) s = _
  induction p generalizing s with
  | done outcome =>
      cases outcome with
      | ok a => rfl
      | error failure => rfl
  | ask request next ih =>
      rw [Procedure.bind, written, ih, written, List.append_assoc]
      rfl
  | record event rest ih => exact ih s

theorem run_attempt (p : Procedure α) (s : σ) :
    repo.run p.attempt s = ⟨.ok (repo.run p s).outcome, (repo.run p s).events, (repo.run p s).state⟩ := by
  induction p generalizing s with
  | done outcome => rfl
  | ask request next ih => exact ih _ _
  | record event rest ih => rw [Procedure.attempt, run, ih, run]

theorem written_attempt (p : Procedure α) (s : σ) : repo.written p.attempt s = repo.written p s := by
  induction p generalizing s with
  | done outcome => rfl
  | ask request next ih => rw [Procedure.attempt, written, ih, written]
  | record event rest ih => exact ih s

/-- The failure that a scope is closed behind. -/
def failure? (outcome : Except Failure α) : Option Failure :=
  match outcome with
  | .ok _ => none
  | .error failure => some failure

theorem close_state (outcome : Except Failure α) (s : σ) :
    (repo.close outcome s).2 = (repo.leave (failure? outcome) s).2 := by
  unfold close failure?
  cases outcome with
  | ok a =>
      cases hleave : repo.leave none s with
      | mk failure s' => cases failure <;> rfl
  | error failure =>
      cases hleave : repo.leave (some failure) s with
      | mk failure s' => cases failure <;> simp [hleave]

theorem run_bind_ok {p : Procedure α} {f : α → Procedure β} {s : σ} {b : β}
    (h : (repo.run (p >>= f) s).outcome = .ok b) :
    ∃ a, (repo.run p s).outcome = .ok a ∧ (repo.run (f a) (repo.run p s).state).outcome = .ok b ∧
      (repo.run (p >>= f) s).state = (repo.run (f a) (repo.run p s).state).state ∧
      repo.written (p >>= f) s = repo.written p s ++ repo.written (f a) (repo.run p s).state := by
  have hrun := repo.run_bind p f s
  have hwritten := repo.written_bind p f s
  unfold Trace.andThen at hrun
  cases hp : (repo.run p s).outcome with
  | ok a =>
      rw [hp] at hrun hwritten
      simp only [] at hrun hwritten
      rw [hrun] at h
      exact ⟨a, rfl, h, by rw [hrun], hwritten⟩
  | error failure =>
      rw [hp] at hrun
      simp only [] at hrun
      rw [hrun] at h
      cases h

variable {repo} in
theorem run_state_of_reads (hquery : ∀ question s, (repo.query question s).2 = s) {p : Procedure α} (h : p.Reads)
    (s : σ) : (repo.run p s).state = s := by
  induction p generalizing s with
  | done outcome => rfl
  | ask request next ih =>
      cases request with
      | query question =>
          rw [run]
          refine (ih _ (h _) _).trans ?_
          exact hquery question s
      | save w => cases h
      | saveAll writes => cases h
  | record event rest ih => exact ih h s

/-- What a procedure makes of a state: its outcome, and the state that it leaves. -/
def effect (p : Procedure α) (s : σ) : Except Failure α × σ :=
  ((repo.run p s).outcome, (repo.run p s).state)

section Effect

variable {repo} {s s' : σ}

@[simp] theorem effect_pure (a : α) : repo.effect (pure a) s = (.ok a, s) := rfl

theorem effect_bind {p : Procedure α} {f : α → Procedure β} {a : α} (h : repo.effect p s = (.ok a, s')) :
    repo.effect (p >>= f) s = repo.effect (f a) s' := by
  obtain ⟨houtcome, rfl⟩ := Prod.mk.inj h
  unfold effect
  rw [run_bind, Trace.andThen, houtcome]

theorem effect_bind_error {p : Procedure α} {f : α → Procedure β} {failure : Failure}
    (h : repo.effect p s = (.error failure, s')) : repo.effect (p >>= f) s = (.error failure, s') := by
  obtain ⟨houtcome, rfl⟩ := Prod.mk.inj h
  unfold effect
  rw [run_bind, Trace.andThen, houtcome]

/-- What fails in an attempt is its result. -/
theorem effect_attempt (p : Procedure α) :
    repo.effect p.attempt s = (.ok (repo.effect p s).1, (repo.effect p s).2) := by
  unfold effect
  rw [run_attempt]

/-- What is done in the end without the store does not change what a procedure leaves. -/
theorem effect_bind_state (p : Procedure α) {f : α → Procedure β} (hf : ∀ a s, (repo.effect (f a) s).2 = s) :
    (repo.effect (p >>= f) s).2 = (repo.effect p s).2 := by
  cases h : repo.effect p s with
  | mk outcome s' =>
      cases outcome with
      | ok a => rw [effect_bind h, hf]
      | error failure => rw [effect_bind_error h]

theorem effect_then (p : Procedure α) (b : β) : (repo.effect (p >>= fun _ => pure b) s).2 = (repo.effect p s).2 :=
  effect_bind_state p fun _ _ => rfl

theorem effect_then_ok {p : Procedure α} {b b' : β} (h : (repo.effect (p >>= fun _ => pure b) s).1 = .ok b') :
    b = b' := by
  obtain ⟨_, -, hpure, -⟩ := repo.run_bind_ok h
  exact Except.ok.inj hpure

theorem effect_lift (x : Except Failure α) : repo.effect (liftM x : Procedure α) s = (x, s) := rfl

theorem effect_inOrder {ι : Type} {p : ι → Procedure α} {a : ι → α} {items : List ι}
    (h : ∀ i ∈ items, repo.effect (p i) s = (.ok (a i), s)) :
    repo.effect (Procedure.inOrder (items.map p)) s = (.ok (items.map a), s) := by
  induction items with
  | nil => rfl
  | cons i items ih =>
      obtain ⟨hi, hitems⟩ := List.forall_mem_cons.mp h
      rw [List.map_cons, Procedure.inOrder, effect_bind hi, effect_bind (ih hitems)]
      rfl

end Effect

/-- Two procedures that lead to the same from a state: one outcome, one state and the same records to store. -/
structure Same (s : σ) (p q : Procedure α) : Prop where
  outcome : (repo.run p s).outcome = (repo.run q s).outcome
  state : (repo.run p s).state = (repo.run q s).state
  written : repo.written p s = repo.written q s

section Same

variable {repo} {s : σ}

theorem Same.trans {p q r : Procedure α} (h : repo.Same s p q) (h' : repo.Same s q r) : repo.Same s p r :=
  ⟨h.outcome.trans h'.outcome, h.state.trans h'.state, h.written.trans h'.written⟩

theorem same_report (action : AuditAction) (goal : Option String) (actor : String) (f : Unit → Procedure α) :
    repo.Same s (Procedure.report action goal actor >>= f) (f ()) :=
  ⟨rfl, rfl, rfl⟩

theorem same_lifted {x : Except Failure α} {f : α → Procedure β} {a : α} (h : x = .ok a) :
    repo.Same s ((liftM x : Procedure α) >>= f) (f a) := by
  subst h
  exact ⟨rfl, rfl, rfl⟩

theorem same_lift {x : Except Failure α} {f : α → Procedure β} {b : β}
    (h : (repo.run ((liftM x : Procedure α) >>= f) s).outcome = .ok b) :
    ∃ a, x = .ok a ∧ repo.Same s ((liftM x : Procedure α) >>= f) (f a) := by
  cases x with
  | ok a => exact ⟨a, rfl, same_lifted rfl⟩
  | error failure => cases h

theorem same_reported (p : Procedure α) (action : α → AuditAction) (goal : Option String) (actor : String) :
    repo.Same s (p >>= fun a => Procedure.report (action a) goal actor >>= fun _ => pure a) p := by
  have hrun := repo.run_bind p (fun a => Procedure.report (action a) goal actor >>= fun _ => pure a) s
  have hwritten := repo.written_bind p (fun a => Procedure.report (action a) goal actor >>= fun _ => pure a) s
  unfold Trace.andThen at hrun
  cases hp : (repo.run p s).outcome with
  | ok a =>
      rw [hp] at hrun hwritten
      exact ⟨(congrArg Trace.outcome hrun).trans hp.symm, (congrArg Trace.state hrun).trans rfl,
        hwritten.trans (List.append_nil _)⟩
  | error failure =>
      rw [hp] at hrun hwritten
      exact ⟨(congrArg Trace.outcome hrun).trans hp.symm, (congrArg Trace.state hrun).trans rfl,
        hwritten.trans (List.append_nil _)⟩

end Same

end Repository

end GoalReconciliation

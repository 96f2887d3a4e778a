import GoalReconciliation.Proofs.Store.Memory

/-!
# What a procedure guarantees

* `Procedure.Ensures` : as long as the store has a property, the procedure asks for writes only that preserve it, and
  what it returns is as claimed;
* `ensures_bind`, `ensures_attempt`, `ensures_query`, `ensures_saveAll` : composed procedures and single steps;
* `ensures_inOrder`, `ensures_inTurns` : several procedures, one after the other or taking turns at each request;
* `Memory.run_ensures` : **the property outlives a run**, whatever fails and is undone;
* `Memory.run_depth` : a run closes the scopes that it opens.
-/

namespace GoalReconciliation

set_option autoImplicit false

def Request.Keeps (P : Store → Prop) : Request → Prop
  | .query _ => True
  | .save w => w.Preserves P
  | .saveAll writes => ∀ w ∈ writes, w.Preserves P

/-- A failure, or an answer that some store with a property gives. -/
def Request.Admits (P : Store → Prop) : (request : Request) → Except Failure request.Answer → Prop
  | .query question, .ok answer => ∃ s : Store, P s ∧ s.answer question = answer
  | _, _ => True

namespace Procedure

variable {α β : Type} {P : Store → Prop} {R : α → Prop} {R' : β → Prop}

/-- As long as the store has the property `P`, each write preserves it, and what is returned has the property `R`. It
need not be one store that answers: others may write in between, as long as they preserve `P`. -/
def Ensures (P : Store → Prop) (R : α → Prop) : Procedure α → Prop
  | .done (.ok a) => R a
  | .done (.error _) => True
  | .ask request next => request.Keeps P ∧ ∀ answer, request.Admits P answer → (next answer).Ensures P R
  | .record _ rest => rest.Ensures P R

/-! ## Composed procedures -/

theorem ensures_bind {p : Procedure α} {f : α → Procedure β} (hp : p.Ensures P R)
    (hf : ∀ a, R a → (f a).Ensures P R') : (p >>= f).Ensures P R' := by
  change (p.bind f).Ensures P R'
  induction p with
  | done outcome =>
      cases outcome with
      | ok a => exact hf a hp
      | error failure => trivial
  | ask request next ih => exact ⟨hp.1, fun answer hanswer => ih answer (hp.2 answer hanswer)⟩
  | record event rest ih => exact ih hp

theorem ensures_mono {p : Procedure α} {Q : α → Prop} (hp : p.Ensures P R) (h : ∀ a, R a → Q a) : p.Ensures P Q := by
  induction p with
  | done outcome =>
      cases outcome with
      | ok a => exact h a hp
      | error failure => trivial
  | ask request next ih => exact ⟨hp.1, fun answer hanswer => ih answer (hp.2 answer hanswer)⟩
  | record event rest ih => exact ih hp

theorem ensures_attempt {p : Procedure α} (hp : p.Ensures P R) :
    p.attempt.Ensures P fun outcome => ∀ a, outcome = .ok a → R a := by
  induction p with
  | done outcome =>
      rintro a rfl
      exact hp
  | ask request next ih => exact ⟨hp.1, fun answer hanswer => ih answer (hp.2 answer hanswer)⟩
  | record event rest ih => exact ih hp

theorem ensures_pure {a : α} (h : R a) : (pure a : Procedure α).Ensures P R := h

theorem ensures_done (outcome : Except Failure α) : (done outcome).Ensures P fun a => outcome = .ok a := by
  cases outcome with
  | ok a => exact rfl
  | error failure => trivial

theorem ensures_report (action : AuditAction) (goal : Option String) (actor : String) :
    (report action goal actor).Ensures P fun _ => True :=
  trivial

theorem ensures_query (question : Query) :
    (query question).Ensures P fun answer => ∃ s : Store, P s ∧ s.answer question = answer := by
  refine ⟨trivial, fun answer hanswer => ?_⟩
  cases answer with
  | ok a => exact hanswer
  | error failure => trivial

theorem ensures_save {w : Write} (h : w.Preserves P) : (save w).Ensures P fun _ => True := by
  refine ⟨h, fun answer _ => ?_⟩
  cases answer <;> trivial

theorem ensures_saveAll {writes : List Write} (h : ∀ w ∈ writes, w.Preserves P) :
    (saveAll writes).Ensures P fun _ => True := by
  refine ⟨h, fun answer _ => ?_⟩
  cases answer <;> trivial

/-! ## Several procedures -/

theorem ensures_inOrder {procedures : List (Procedure α)} (h : ∀ p ∈ procedures, p.Ensures P R) :
    (inOrder procedures).Ensures P fun _ => True := by
  induction procedures with
  | nil => trivial
  | cons p rest ih =>
      obtain ⟨hp, hrest⟩ := List.forall_mem_cons.mp h
      exact ensures_bind hp fun _ _ => ensures_bind (ih hrest) fun _ _ => trivial

theorem ensures_recordAll {p : Procedure α} (events : List AuditEvent) (hp : p.Ensures P R) :
    (recordAll events p).Ensures P R := by
  induction events with
  | nil => exact hp
  | cons event rest ih => exact ih

theorem ensures_finishInOrder {procedures : List (Nat × Procedure α)} (h : ∀ pair ∈ procedures, pair.2.Ensures P R)
    (finished : List (Nat × Except Failure α)) : (finishInOrder finished procedures).Ensures P fun _ => True := by
  induction procedures generalizing finished with
  | nil => trivial
  | cons pair rest ih =>
      obtain ⟨hp, hrest⟩ := List.forall_mem_cons.mp h
      exact ensures_bind (ensures_attempt hp) fun outcome _ => ih hrest _

namespace Turns

structure Ensure (P : Store → Prop) (R : α → Prop) (t : Turns α) : Prop where
  active : ∀ pair ∈ t.active, pair.2.Ensures P R
  waiting : ∀ pair ∈ t.waiting, pair.2.Ensures P R

theorem ensures_advance {p : Procedure α} (hp : p.Ensures P R) : (advance p).2.Ensures P R := by
  induction p with
  | done outcome => exact hp
  | ask request next ih => exact hp
  | record event rest ih => exact ih hp

theorem Ensure.enter {t : Turns α} (h : t.Ensure P R) (place : Nat) {p : Procedure α} (hp : p.Ensures P R) :
    (enter t place p).2.Ensure P R := by
  have hrest := ensures_advance hp
  unfold Turns.enter
  generalize advance p = advanced at hrest
  obtain ⟨events, q⟩ := advanced
  cases q with
  | done outcome => exact ⟨h.active, h.waiting⟩
  | ask request next =>
      exact ⟨List.forall_mem_append.mpr ⟨h.active, List.forall_mem_singleton.mpr hrest⟩, h.waiting⟩
  | record event rest =>
      exact ⟨List.forall_mem_append.mpr ⟨h.active, List.forall_mem_singleton.mpr hrest⟩, h.waiting⟩

theorem Ensure.fill {t : Turns α} (h : t.Ensure P R) (limit fuel : Nat) : (fill limit fuel t).2.Ensure P R := by
  induction fuel generalizing t with
  | zero => exact h
  | succ fuel ih =>
      unfold Turns.fill
      cases hwaiting : t.waiting with
      | nil => exact h
      | cons pair rest =>
          obtain ⟨hp, hrest⟩ := List.forall_mem_cons.mp (hwaiting ▸ h.waiting)
          simp only []
          split
          · have hbegun : ({ t with waiting := rest } : Turns α).Ensure P R := ⟨h.active, hrest⟩
            exact ih (hbegun.enter pair.1 hp)
          · exact h

end Turns

theorem ensures_takeTurns {t : Turns α} (h : t.Ensure P R) (limit turns : Nat) :
    (takeTurns limit turns t).Ensures P fun _ => True := by
  induction turns generalizing t with
  | zero => exact ensures_finishInOrder (List.forall_mem_append.mpr ⟨h.active, h.waiting⟩) _
  | succ turns ih =>
      unfold takeTurns
      cases hactive : t.active with
      | nil => exact ensures_finishInOrder h.waiting _
      | cons pair rest =>
          obtain ⟨place, p⟩ := pair
          obtain ⟨hp, hrest⟩ := List.forall_mem_cons.mp (hactive ▸ h.active)
          have hothers : ({ t with active := rest } : Turns α).Ensure P R := ⟨hrest, h.waiting⟩
          cases p with
          | done outcome =>
              exact ensures_bind (ensures_attempt hp) fun outcome _ => ih ⟨hothers.active, hothers.waiting⟩
          | ask request next =>
              -- Whoever's turn it is, the store that answers has the property.
              refine ⟨hp.1, fun answer hanswer => ensures_recordAll _ (ih ?_)⟩
              exact (hothers.enter place (hp.2 answer hanswer)).fill _ _
          | record event next =>
              exact ensures_bind (ensures_attempt hp) fun outcome _ => ih ⟨hothers.active, hothers.waiting⟩

/-- Procedures that take turns ensure what each of them ensures. -/
theorem ensures_inTurns {procedures : List (Procedure α)} (h : ∀ p ∈ procedures, p.Ensures P R) (limit : Nat) :
    (inTurns limit procedures).Ensures P fun _ => True := by
  have hstart : (⟨[], procedures.mapIdx fun place p => (place, p), []⟩ : Turns α).Ensure P R := by
    refine ⟨by simp, fun pair hpair => ?_⟩
    obtain ⟨i, hi, rfl⟩ := List.mem_mapIdx.mp hpair
    exact h _ (List.getElem_mem hi)
  exact ensures_bind (ensures_recordAll _ (ensures_takeTurns (hstart.fill _ _) _ _)) fun _ _ => trivial

end Procedure

/-! ## Runs -/

namespace Memory

variable {α : Type} {P : Store → Prop} {R : α → Prop}

theorem under_query_cases (faults : Option Faults) (question : Query) (m : Memory) :
    ((under faults).query question m).1 = .ok (m.store.answer question)
      ∨ ∃ failure, ((under faults).query question m).1 = .error failure := by
  cases faults with
  | none => exact .inl rfl
  | some f =>
      have hquery : (under (some f)).query question m
          = if f.hitsQuery question then (.error f.failure, m) else repository.query question m := rfl
      rw [hquery]
      split
      · exact .inr ⟨_, rfl⟩
      · exact .inl rfl

theorem answer_admits (faults : Option Faults) {request : Request} {m : Memory} (hm : P m.store) :
    request.Admits P ((under faults).answer request m).1 := by
  cases request with
  | query question =>
      change Request.Admits P (.query question) ((under faults).query question m).1
      rcases under_query_cases faults question m with hanswer | ⟨failure, hanswer⟩
      · rw [hanswer]
        exact ⟨m.store, hm, rfl⟩
      · rw [hanswer]
        trivial
  | save w => cases ((under faults).answer (.save w) m).1 <;> trivial
  | saveAll writes => cases ((under faults).answer (.saveAll writes) m).1 <;> trivial

theorem answer_keeps (faults : Option Faults) {request : Request} (h : request.Keeps P) {m : Memory} (hm : P m.store) :
    P ((under faults).answer request m).2.store := by
  cases request with
  | query question =>
      change P ((under faults).query question m).2.store
      rw [under_query_state]
      exact hm
  | save w => exact (under_save_keeps faults h m).store hm
  | saveAll writes => exact saveAll_store faults h hm

/-- **What a procedure ensures outlives its run**, whatever fails and is undone, and it returns what it ensures. -/
theorem run_ensures (faults : Option Faults) {p : Procedure α} (hp : p.Ensures P R) {m : Memory} (hm : P m.store) :
    P ((under faults).run p m).state.store ∧ ∀ a, ((under faults).run p m).outcome = .ok a → R a := by
  induction p generalizing m with
  | done outcome =>
      refine ⟨hm, ?_⟩
      rintro a rfl
      exact hp
  | ask request next ih => exact ih _ (hp.2 _ (answer_admits faults hm)) (answer_keeps faults hp.1 hm)
  | record event rest ih => exact ih hp hm

/-! ### Scopes -/

theorem answer_depth (faults : Option Faults) (request : Request) (m : Memory) :
    ((under faults).answer request m).2.depth = m.depth := by
  cases request with
  | query question => exact congrArg depth (under_query_state faults question m)
  | save w => exact (under_save_keeps faults w.preserves_true m).depth
  | saveAll writes =>
      have hwrites : ∀ w ∈ writes, w.Preserves fun _ => True := fun w _ => w.preserves_true
      have hkeeps := saveEach_keeps faults hwrites (enter m)
      change ((under faults).inScope ((under faults).saveEach writes) m).2.depth = m.depth
      unfold Repository.inScope
      rw [under_enter, Repository.close_state, under_leave, leave, hkeeps.depth, enter]
      split <;> split <;> simp_all

theorem run_depth (faults : Option Faults) (p : Procedure α) (m : Memory) :
    ((under faults).run p m).state.depth = m.depth := by
  induction p generalizing m with
  | done outcome => rfl
  | ask request next ih => exact (ih _ _).trans (answer_depth faults request m)
  | record event rest ih => exact ih m

end Memory

end GoalReconciliation

import GoalReconciliation.Proofs.Store.Twins

/-!
# One procedure on a store and on a database

* `Procedure.Parallels` : two procedures that ask the same questions, the one of a store and the other of tables that
  read as it, whose writes are twins and whose results are related;
* `Parallels.bind`, `Parallels.attempt`, `parallels_inOrder`, `parallels_inTurns` : how such procedures are put
  together;
* `Parallels.run` : **they fail alike or give related results, report the same, and the tables read as the store
  again**.
-/

namespace GoalReconciliation.Procedure

set_option autoImplicit false

open Fallible (Alike)

/-- Two procedures with the same questions, twin writes and related results, as long as the one asks a store and the
other asks tables that read as it. -/
inductive Parallels (prices : List (String × Decimal)) {α β : Type} (R : α → β → Prop) :
    Procedure α → Procedure β → Prop
  | done {outcome : Except Failure α} {outcome' : Except Failure β} (h : Alike R outcome outcome') :
      Parallels prices R (.done outcome) (.done outcome')
  | record {event : AuditEvent} {p : Procedure α} {q : Procedure β} (h : Parallels prices R p q) :
      Parallels prices R (.record event p) (.record event q)
  | query {question : Query} {next : Except Failure (Request.query question).Answer → Procedure α}
      {next' : Except Failure (Request.query question).Answer → Procedure β} (hsized : question.Sized)
      (h : ∀ s : Store, s.Fits prices →
        Parallels prices R (next (.ok (s.answer question))) (next' (.ok (question.reread (s.answer question))))) :
      Parallels prices R (.ask (.query question) next) (.ask (.query question) next')
  | save {w twin : Write} {next : Except Failure (Request.save w).Answer → Procedure α}
      {next' : Except Failure (Request.save twin).Answer → Procedure β}
      (hw : w.Twin prices twin) (h : Parallels prices R (next (.ok ())) (next' (.ok ()))) :
      Parallels prices R (.ask (.save w) next) (.ask (.save twin) next')
  | saveAll {writes twins : List Write} {next : Except Failure (Request.saveAll writes).Answer → Procedure α}
      {next' : Except Failure (Request.saveAll twins).Answer → Procedure β}
      (hwrites : List.Forall₂ (Write.Twin prices) writes twins)
      (h : Parallels prices R (next (.ok ())) (next' (.ok ()))) :
      Parallels prices R (.ask (.saveAll writes) next) (.ask (.saveAll twins) next')

variable {prices : List (String × Decimal)} {α β γ δ : Type} {R : α → β → Prop} {S : γ → δ → Prop}
  {p : Procedure α} {q : Procedure β}

/-- **What two such procedures do.** -/
theorem Parallels.run (h : Parallels prices R p q) {db : Database} {m : Memory} (hdb : db.Mirrors prices m) :
    Alike R (Memory.repository.run p m).outcome (Database.repository.run q db).outcome ∧
      (Database.repository.run q db).events = (Memory.repository.run p m).events ∧
      (Database.repository.run q db).state.Mirrors prices (Memory.repository.run p m).state := by
  induction h generalizing db m with
  | done h => exact ⟨h, rfl, hdb⟩
  | record _ ih =>
      obtain ⟨houtcome, hevents, hstate⟩ := ih hdb
      exact ⟨houtcome, congrArg (List.cons _) hevents, hstate⟩
  | @query question next next' hsized _ ih =>
      obtain ⟨db', hanswer, hdb'⟩ := hdb.query hsized
      rw [Repository.run_asked _ hanswer]
      exact ih m.store hdb.fits hdb'
  | @save w twin next next' hw _ ih =>
      obtain ⟨db', m', htwin, hsave, hdb'⟩ := hdb.save hw
      rw [Repository.run_asked _ htwin, Repository.run_asked _ hsave]
      exact ih hdb'
  | @saveAll writes twins next next' hwrites _ ih =>
      obtain ⟨db', m', htwins, hsaves, hdb'⟩ := hdb.saveAll hwrites
      rw [Repository.run_asked _ htwins, Repository.run_asked _ hsaves]
      exact ih hdb'

theorem Parallels.mono {S : α → β → Prop} (h : Parallels prices R p q) (hRS : ∀ a b, R a b → S a b) :
    Parallels prices S p q := by
  induction h with
  | done h => exact .done (h.mono hRS)
  | record _ ih => exact .record ih
  | query hsized _ ih => exact .query hsized ih
  | save hw _ ih => exact .save hw ih
  | saveAll hwrites _ ih => exact .saveAll hwrites ih

/-! ## Procedures put together -/

theorem parallels_pure {a : α} {b : β} (h : R a b) : Parallels prices R (pure a) (pure b) :=
  .done (.ok h)

theorem parallels_throw (failure : Failure) :
    Parallels prices R (throw failure : Procedure α) (throw failure : Procedure β) :=
  .done (.error failure)

theorem Parallels.bind (h : Parallels prices R p q) {f : α → Procedure γ} {g : β → Procedure δ}
    (hfg : ∀ a b, R a b → Parallels prices S (f a) (g b)) : Parallels prices S (p >>= f) (q >>= g) := by
  change Parallels prices S (p.bind f) (q.bind g)
  induction h with
  | done h =>
      cases h with
      | ok h => exact hfg _ _ h
      | error failure => exact .done (.error failure)
  | record _ ih => exact .record ih
  | query hsized _ ih => exact .query hsized ih
  | save hw _ ih => exact .save hw ih
  | saveAll hwrites _ ih => exact .saveAll hwrites ih

theorem Parallels.attempt (h : Parallels prices R p q) : Parallels prices (Alike R) p.attempt q.attempt := by
  induction h with
  | done h => exact .done (.ok h)
  | record _ ih => exact .record ih
  | query hsized _ ih => exact .query hsized ih
  | save hw _ ih => exact .save hw ih
  | saveAll hwrites _ ih => exact .saveAll hwrites ih

theorem parallels_lift {x : Except Failure α} {y : Except Failure β} (h : Alike R x y) {f : α → Procedure γ}
    {g : β → Procedure δ} (hfg : ∀ a b, R a b → Parallels prices S (f a) (g b)) :
    Parallels prices S ((liftM x : Procedure α) >>= f) ((liftM y : Procedure β) >>= g) :=
  Parallels.bind (.done h) hfg

theorem parallels_query {question : Query} (hsized : question.Sized) {f : question.Answer → Procedure γ}
    {g : question.Answer → Procedure δ}
    (h : ∀ s : Store, s.Fits prices →
      Parallels prices S (f (s.answer question)) (g (question.reread (s.answer question)))) :
    Parallels prices S (Procedure.query question >>= f) (Procedure.query question >>= g) :=
  .query hsized h

theorem parallels_save {w twin : Write} (hw : w.Twin prices twin) :
    Parallels prices (fun _ _ => True) (Procedure.save w) (Procedure.save twin) :=
  .save hw (.done (.ok trivial))

theorem parallels_saveAll {writes twins : List Write} (hwrites : List.Forall₂ (Write.Twin prices) writes twins) :
    Parallels prices (fun _ _ => True) (Procedure.saveAll writes) (Procedure.saveAll twins) :=
  .saveAll hwrites (.done (.ok trivial))

theorem parallels_report (action : AuditAction) (goal : Option String) (actor : String) :
    Parallels prices (fun _ _ => True) (Procedure.report action goal actor) (Procedure.report action goal actor) :=
  .record (.done (.ok trivial))

theorem parallels_inOrder {ps : List (Procedure α)} {qs : List (Procedure β)}
    (h : List.Forall₂ (Parallels prices R) ps qs) : Parallels prices (List.Forall₂ R) (inOrder ps) (inOrder qs) := by
  induction h with
  | nil => exact parallels_pure .nil
  | cons h _ ih => exact h.bind fun a b hab => ih.bind fun as bs hrest => parallels_pure (.cons hab hrest)

/-! ## In turns -/

abbrev Tasks (prices : List (String × Decimal)) (R : α → β → Prop) :
    List (Nat × Procedure α) → List (Nat × Procedure β) → Prop :=
  List.Forall₂ fun task task' => task.1 = task'.1 ∧ Parallels prices R task.2 task'.2

abbrev Results (R : α → β → Prop) : List (Nat × Except Failure α) → List (Nat × Except Failure β) → Prop :=
  List.Forall₂ fun result result' => result.1 = result'.1 ∧ Alike R result.2 result'.2

theorem forall₂_concat {R : α → β → Prop} {xs : List α} {ys : List β} (h : List.Forall₂ R xs ys) {x : α} {y : β}
    (hxy : R x y) : List.Forall₂ R (xs ++ [x]) (ys ++ [y]) :=
  List.rel_append h (.cons hxy .nil)

namespace Turns

structure Parallel (prices : List (String × Decimal)) (R : α → β → Prop) (t : Turns α) (t' : Turns β) : Prop where
  active : Tasks prices R t.active t'.active
  waiting : Tasks prices R t.waiting t'.waiting
  finished : Results R t.finished t'.finished

theorem parallels_advance (h : Parallels prices R p q) :
    (advance p).1 = (advance q).1 ∧ Parallels prices R (advance p).2 (advance q).2 := by
  induction h with
  | done h => exact ⟨rfl, .done h⟩
  | @record event p q _ ih => exact ⟨congrArg (event :: ·) ih.1, ih.2⟩
  | query hsized h => exact ⟨rfl, .query hsized h⟩
  | save hw h => exact ⟨rfl, .save hw h⟩
  | saveAll hwrites h => exact ⟨rfl, .saveAll hwrites h⟩

variable {t : Turns α} {t' : Turns β}

theorem Parallel.enter (h : t.Parallel prices R t') (place : Nat) (hpq : Parallels prices R p q) :
    (t.enter place p).1 = (t'.enter place q).1 ∧ (t.enter place p).2.Parallel prices R (t'.enter place q).2 := by
  obtain ⟨hevents, hadvanced⟩ := parallels_advance hpq
  unfold Turns.enter
  generalize advance p = stepped at hevents hadvanced
  generalize advance q = stepped' at hevents hadvanced
  obtain ⟨events, p⟩ := stepped
  obtain ⟨events', q⟩ := stepped'
  obtain rfl : events = events' := hevents
  change Parallels prices R p q at hadvanced
  cases hadvanced with
  | done houtcome => exact ⟨rfl, { h with finished := forall₂_concat h.finished ⟨rfl, houtcome⟩ }⟩
  | record hrest => exact ⟨rfl, { h with active := forall₂_concat h.active ⟨rfl, .record hrest⟩ }⟩
  | query hsized hnext => exact ⟨rfl, { h with active := forall₂_concat h.active ⟨rfl, .query hsized hnext⟩ }⟩
  | save hw hnext => exact ⟨rfl, { h with active := forall₂_concat h.active ⟨rfl, .save hw hnext⟩ }⟩
  | saveAll hw hnext => exact ⟨rfl, { h with active := forall₂_concat h.active ⟨rfl, .saveAll hw hnext⟩ }⟩

theorem Parallel.fill (h : t.Parallel prices R t') (limit fuel : Nat) :
    (fill limit fuel t).1 = (fill limit fuel t').1 ∧
      (fill limit fuel t).2.Parallel prices R (fill limit fuel t').2 := by
  induction fuel generalizing t t' with
  | zero => exact ⟨rfl, h⟩
  | succ fuel ih =>
      unfold Turns.fill
      have hwaiting := h.waiting
      have hlength := h.active.length_eq
      generalize t.waiting = tasks at hwaiting
      generalize t'.waiting = tasks' at hwaiting
      cases hwaiting with
      | nil => exact ⟨rfl, h⟩
      | @cons task task' rest rest' htask hrest =>
          obtain ⟨place, p⟩ := task
          obtain ⟨place', q⟩ := task'
          obtain ⟨rfl, hpq⟩ : place = place' ∧ Parallels prices R p q := htask
          simp only [← hlength]
          split
          · have hremaining : Turns.Parallel prices R { t with waiting := rest } { t' with waiting := rest' } :=
              { h with waiting := hrest }
            obtain ⟨hbegun, hentered⟩ := hremaining.enter place hpq
            obtain ⟨hmore, hfilled⟩ := ih hentered
            exact ⟨by rw [hbegun, hmore], hfilled⟩
          · exact ⟨rfl, h⟩

end Turns

theorem Parallels.recordAll (h : Parallels prices R p q) (events : List AuditEvent) :
    Parallels prices R (recordAll events p) (recordAll events q) := by
  induction events with
  | nil => exact h
  | cons event rest ih => exact .record ih

theorem parallels_finishInOrder {finished : List (Nat × Except Failure α)} {finished' : List (Nat × Except Failure β)}
    (hfinished : Results R finished finished') {tasks : List (Nat × Procedure α)} {tasks' : List (Nat × Procedure β)}
    (htasks : Tasks prices R tasks tasks') :
    Parallels prices (Results R) (finishInOrder finished tasks) (finishInOrder finished' tasks') := by
  induction htasks generalizing finished finished' with
  | nil => exact parallels_pure hfinished
  | @cons task task' rest rest' htask _ ih =>
      refine htask.2.attempt.bind fun outcome outcome' houtcome => ih ?_
      exact forall₂_concat hfinished ⟨htask.1, houtcome⟩

namespace Turns

/-- A procedure goes to the end of the queue, and the turns go on. -/
def goOn (limit turns : Nat) (t : Turns α) (place : Nat) (p : Procedure α) :
    Procedure (List (Nat × Except Failure α)) :=
  let (begun, t) := t.enter place p
  let (more, t) := fill limit t.waiting.length t
  recordAll (begun ++ more) (takeTurns limit turns t)

variable {t : Turns α} {t' : Turns β}

theorem Parallel.goOn {limit turns : Nat} (h : t.Parallel prices R t') (place : Nat) (hpq : Parallels prices R p q)
    (ih : ∀ {t : Turns α} {t' : Turns β}, t.Parallel prices R t' →
      Parallels prices (Results R) (takeTurns limit turns t) (takeTurns limit turns t')) :
    Parallels prices (Results R) (t.goOn limit turns place p) (t'.goOn limit turns place q) := by
  obtain ⟨hevents, hentered⟩ := h.enter place hpq
  obtain ⟨hmore, hfilled⟩ := hentered.fill limit (t'.enter place q).2.waiting.length
  unfold Turns.goOn
  simp only [hevents, hentered.waiting.length_eq, hmore]
  exact (ih hfilled).recordAll _

end Turns

theorem parallels_takeTurns {t : Turns α} {t' : Turns β} (h : t.Parallel prices R t') (limit turns : Nat) :
    Parallels prices (Results R) (takeTurns limit turns t) (takeTurns limit turns t') := by
  induction turns generalizing t t' with
  | zero => exact parallels_finishInOrder h.finished (List.rel_append h.active h.waiting)
  | succ turns ih =>
      have hactive := h.active
      unfold takeTurns
      generalize t.active = tasks at hactive
      generalize t'.active = tasks' at hactive
      cases hactive with
      | nil => exact parallels_finishInOrder h.finished h.waiting
      | @cons task task' rest rest' htask hrest =>
          obtain ⟨place, p⟩ := task
          obtain ⟨place', q⟩ := task'
          obtain ⟨rfl, hpq⟩ : place = place' ∧ Parallels prices R p q := htask
          have hleft : Turns.Parallel prices R { t with active := rest } { t' with active := rest' } :=
            { h with active := hrest }
          have hfinish : ∀ {p : Procedure α} {q : Procedure β}, Parallels prices R p q →
              Parallels prices (Results R)
                (p.attempt >>= fun outcome => takeTurns limit turns
                  { t with active := rest, finished := t.finished ++ [(place, outcome)] })
                (q.attempt >>= fun outcome => takeTurns limit turns
                  { t' with active := rest', finished := t'.finished ++ [(place, outcome)] }) := fun hpq =>
            hpq.attempt.bind fun outcome outcome' houtcome =>
              ih { hleft with finished := forall₂_concat h.finished ⟨rfl, houtcome⟩ }
          cases hpq with
          | done houtcome => exact hfinish (.done houtcome)
          | record hrecorded => exact hfinish (.record hrecorded)
          | query hsized hanswered => exact .query hsized fun s hs => hleft.goOn place (hanswered s hs) ih
          | save hw hsaved => exact .save hw (hleft.goOn place hsaved ih)
          | saveAll hwrites hsaved => exact .saveAll hwrites (hleft.goOn place hsaved ih)

theorem parallels_inTurns {ps : List (Procedure α)} {qs : List (Procedure β)}
    (h : List.Forall₂ (Parallels prices R) ps qs) (limit : Nat) :
    Parallels prices (List.Forall₂ (Alike R)) (inTurns limit ps) (inTurns limit qs) := by
  have htasks : Tasks prices R (ps.mapIdx fun place p => (place, p)) (qs.mapIdx fun place q => (place, q)) := by
    refine List.forall₂_iff_get.mpr ⟨by simpa using h.length_eq, fun i hi hi' => ?_⟩
    simp only [List.get_eq_getElem, List.getElem_mapIdx]
    exact ⟨trivial, List.forall₂_iff_get.mp h |>.2 i _ _⟩
  have hstart : Turns.Parallel prices R ⟨[], ps.mapIdx fun place p => (place, p), []⟩
      ⟨[], qs.mapIdx fun place q => (place, q), []⟩ := ⟨.nil, htasks, .nil⟩
  obtain ⟨hevents, hbegun⟩ := hstart.fill limit ps.length
  unfold inTurns
  simp only [← h.length_eq]
  refine Parallels.bind (R := Results R) ?_ fun finished finished' hfinished => parallels_pure ?_
  · rw [hevents]
    exact (parallels_takeTurns hbegun limit maxTurns).recordAll _
  · have hsorted : Results R (finished.mergeSort fun a b => decide (a.1 ≤ b.1))
        (finished'.mergeSort fun a b => decide (a.1 ≤ b.1)) :=
      Related.forall₂_mergeSort hfinished fun hx hy => by rw [hx.1, hy.1]
    rw [List.forall₂_map_left_iff, List.forall₂_map_right_iff]
    exact hsorted.imp fun _ _ hresult => hresult.2

end GoalReconciliation.Procedure

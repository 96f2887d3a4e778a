import GoalReconciliation.Store.Memory

/-!
# Scopes in scopes

* `Script` : questions, saves, scopes and failures, caught or not, nested in any way; `Script.run` : a script on a
  repository;
* `Script.executed` : how a script ends, and the saves that it comes to, if nothing is ever undone;
* `run_within` : within an open scope of the store in memory, a script does what it executes, and opens and closes
  nothing, however its own scopes end;
* `run_outermost` : the outermost scope of a script;
* `scope_allOrNothing` : **the outermost scope keeps every save that was executed in it, or none**, and the scope after it
  does so again.
-/

namespace GoalReconciliation

set_option autoImplicit false

/-- What is done with a repository: nothing, a failure, a save, a question and what is made of its answer, a scope, a part
whose failure is caught, and two parts in order. -/
inductive Script where
  | done
  | fail (failure : Failure)
  | save (w : Write)
  | ask (question : Query) (next : question.Answer → Script)
  | scope (body : Script)
  | guarded (body : Script) (handle : Failure → Script)
  | andThen (first second : Script)

/-- The store after some writes. A write that fails has stored what comes before its failure. -/
def Store.after (s : Store) (writes : List Write) : Store :=
  writes.foldl (fun s w => (s.write w).2) s

theorem Store.after_append (s : Store) (writes more : List Write) :
    s.after (writes ++ more) = (s.after writes).after more :=
  List.foldl_append

namespace Script

def run {σ : Type} (repo : Repository σ) : Script → σ → Except Failure Unit × σ
  | done, s => (.ok (), s)
  | fail failure, s => (.error failure, s)
  | save w, s => repo.save w s
  | ask question next, s =>
    match repo.query question s with
    | (.ok answer, s) => (next answer).run repo s
    | (.error failure, s) => (.error failure, s)
  | scope body, s => repo.inScope (body.run repo) s
  | guarded body handle, s =>
    match body.run repo s with
    | (.ok (), s) => (.ok (), s)
    | (.error failure, s) => (handle failure).run repo s
  | andThen first second, s =>
    match first.run repo s with
    | (.ok (), s) => second.run repo s
    | (.error failure, s) => (.error failure, s)

/-- How a script ends on a store that takes each save and undoes none, and the saves that it comes to, in order. The
scopes of the script play no part. -/
def executed : Script → Store → Except Failure Unit × List Write
  | done, _ => (.ok (), [])
  | fail failure, _ => (.error failure, [])
  | save w, s => ((s.write w).1, [w])
  | ask question next, s => (next (s.answer question)).executed s
  | scope body, s => body.executed s
  | guarded body handle, s =>
    match body.executed s with
    | (.ok (), saves) => (.ok (), saves)
    | (.error failure, saves) =>
      let (outcome, more) := (handle failure).executed (s.after saves)
      (outcome, saves ++ more)
  | andThen first second, s =>
    match first.executed s with
    | (.ok (), saves) =>
      let (outcome, more) := second.executed (s.after saves)
      (outcome, saves ++ more)
    | (.error failure, saves) => (.error failure, saves)

end Script

namespace Memory

/-! ## One scope -/

theorem enter_within (s start : Store) (depth : Nat) :
    repository.enter ⟨s, start, depth + 1⟩ = ⟨s, start, depth + 2⟩ := rfl

theorem enter_outermost (s earlier : Store) : repository.enter ⟨s, earlier, 0⟩ = ⟨s, s, 1⟩ := rfl

/-- A scope within another one is closed without an effect on what is stored. -/
theorem close_within (outcome : Except Failure Unit) (s start : Store) (depth : Nat) :
    repository.close outcome ⟨s, start, depth + 2⟩ = (outcome, ⟨s, start, depth + 1⟩) := by
  have hleave (failure : Option Failure) :
      repository.leave failure ⟨s, start, depth + 2⟩ = (failure, ⟨s, start, depth + 1⟩) := by
    change Memory.leave failure ⟨s, start, depth + 2⟩ = _
    rw [Memory.leave, if_pos (show 1 < depth + 2 by omega)]
    rfl
  cases outcome with
  | ok _ => simp only [Repository.close, hleave]
  | error failure => simp only [Repository.close, hleave]

/-- A failed outermost scope brings back what it started from. -/
theorem close_outermost (outcome : Except Failure Unit) (s start : Store) :
    repository.close outcome ⟨s, start, 1⟩ = (outcome, ⟨if outcome.isOk then s else start, start, 0⟩) := by
  cases outcome with
  | ok _ => rfl
  | error failure => rfl

/-! ## Scripts -/

/-- **Within an open scope, a script does what it executes.** Its own scopes, whether they end well, fail, or fail and are
caught, change neither the depth nor what the outermost scope goes back to. -/
theorem run_within (p : Script) (s start : Store) (depth : Nat) :
    p.run repository ⟨s, start, depth + 1⟩ =
      ((p.executed s).1, ⟨s.after (p.executed s).2, start, depth + 1⟩) := by
  induction p generalizing s depth with
  | done => rfl
  | fail failure => rfl
  | save w => rfl
  | ask question next ih => exact ih _ s depth
  | scope body ih =>
      rw [Script.run, Repository.inScope, enter_within, ih s (depth + 1)]
      exact close_within _ _ _ _
  | guarded body handle ih ihHandle =>
      rw [Script.run, ih s depth, Script.executed]
      obtain ⟨outcome, saves⟩ := body.executed s
      cases outcome with
      | ok _ => rfl
      | error failure =>
          simp only [Store.after_append]
          exact ihHandle failure _ depth
  | andThen first second ihFirst ihSecond =>
      rw [Script.run, ihFirst s depth, Script.executed]
      obtain ⟨outcome, saves⟩ := first.executed s
      cases outcome with
      | ok _ =>
          simp only [Store.after_append]
          exact ihSecond _ depth
      | error failure => rfl

theorem run_outermost (p : Script) (s earlier : Store) :
    (Script.scope p).run repository ⟨s, earlier, 0⟩ =
      ((p.executed s).1, ⟨if (p.executed s).1.isOk then s.after (p.executed s).2 else s, s, 0⟩) := by
  rw [Script.run, Repository.inScope, enter_outermost, run_within]
  exact close_outermost _ _ _

/-- What an outermost scope leaves of what was stored at its start: all of its saves, those in inner scopes that failed and
were caught included, or none of them; and no open scope. -/
structure AllOrNothing (p : Script) (s : Store) (result : Except Failure Unit × Memory) : Prop where
  outcome : result.1 = (p.executed s).1
  undone : ∀ failure, result.1 = .error failure → result.2.store = s
  kept : result.1 = .ok () → result.2.store = s.after (p.executed s).2
  closed : result.2.depth = 0

theorem run_allOrNothing (p : Script) (s earlier : Store) :
    AllOrNothing p s ((Script.scope p).run repository ⟨s, earlier, 0⟩) := by
  rw [run_outermost]
  refine ⟨rfl, ?_, ?_, rfl⟩
  · intro failure hfailed
    simp only at hfailed ⊢
    rw [hfailed]
    rfl
  · intro hended
    simp only at hended ⊢
    rw [hended]
    rfl

/-- **The outermost scope is all or nothing.** Whatever a script does in it, the store holds afterwards what it held at its
start if the scope fails, and else the result of every save that was executed in it. Either way the scope is closed, so
that the scope after it is all or nothing again. -/
theorem scope_allOrNothing (p : Script) (s earlier : Store) :
    AllOrNothing p s ((Script.scope p).run repository ⟨s, earlier, 0⟩) ∧
      ∀ next : Script,
        AllOrNothing next ((Script.scope p).run repository ⟨s, earlier, 0⟩).2.store
          ((Script.scope next).run repository ((Script.scope p).run repository ⟨s, earlier, 0⟩).2) := by
  have hfirst := run_allOrNothing p s earlier
  refine ⟨hfirst, fun next => ?_⟩
  generalize (Script.scope p).run repository ⟨s, earlier, 0⟩ = result at hfirst
  obtain ⟨outcome, after, start, depth⟩ := result
  obtain rfl : depth = 0 := hfirst.closed
  exact run_allOrNothing next after start

/-- A save of an inner scope that failed and was caught is kept. -/
example (r : BankRecord) (failure : Failure) :
    ((Script.scope (.guarded (.scope (.andThen (.save (.bank [r])) (.fail failure))) fun _ => .done)).run repository
      (.ofStore {})).2.store = { bank := [r] } := rfl

end Memory

end GoalReconciliation

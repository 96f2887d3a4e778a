import GoalReconciliation.Proofs.Resolution.Verdicts
import GoalReconciliation.Proofs.Run.Batches
import GoalReconciliation.Proofs.Store.Isolation

/-!
# Goals do not influence each other

* `ofGoal_confined` : a run for a goal asks about that goal only;
* `KeysApart` : no key is shared by postings of different goals;
* `Shares.judgedRecord`, `Shares.judgedPosting` : in stores that hold the same of a goal, its records and postings are
  resolved for the same reasons;
* `goals_isolated` : **of such stores, a run for the goal tells the same and leaves the same of it and all other records
  as they were; a sweep of everything leaves the same of it.**
-/

namespace GoalReconciliation

set_option autoImplicit false

open Store (keyOf)

/-! ## Runs -/

namespace RunResult

variable {goal : String}

theorem persist_confined (r : RunResult) (saves : List (List BankRecord)) : (r.persist saves).Confined goal := by
  induction saves generalizing r with
  | nil => trivial
  | cons records rest ih =>
      refine Procedure.confined_bind (fun answer => ?_) ih
      cases answer with
      | ok _ => trivial
      | error failure => cases failure <;> trivial

theorem ofGoal_confined (t : Tolerance) (now : Timestamp) (range : DateRange) (persistent : Bool) (actor : String) :
    (ofGoal t now goal range persistent actor).Confined goal := by
  change Procedure.Confined goal (Procedure.query (.bankRecords (some goal) (some range)) >>= _)
  refine Procedure.confined_bind (Procedure.confined_query rfl) fun records => ?_
  refine Procedure.confined_bind (Procedure.confined_query rfl) fun postings => ?_
  refine Procedure.confined_bind (Procedure.confined_lift _) fun a => ?_
  refine Procedure.confined_bind (Procedure.confined_query rfl) fun manual => ?_
  refine Procedure.confined_bind (Procedure.confined_lift _) fun r => ?_
  cases persistent with
  | false => trivial
  | true => exact Procedure.confined_bind (persist_confined r _) fun _ => trivial

end RunResult

/-! ## Sweeps -/

namespace Store

def KeysApart (s : Store) : Prop :=
  ∀ p ∈ s.ledger, ∀ q ∈ s.ledger, keyOf p = keyOf q → p.goalId = q.goalId

instance (s : Store) : Decidable s.KeysApart :=
  inferInstanceAs (Decidable (∀ p ∈ s.ledger, ∀ q ∈ s.ledger, keyOf p = keyOf q → p.goalId = q.goalId))

namespace Shares

variable {t : Tolerance} {now : Timestamp} {goal : String} {s s' : Store} {sweep : Sweep}

theorem mem_key (h : s.Shares goal s') (hkeys : s.KeysApart) (hkeys' : s'.KeysApart) {p q : Posting} (hp : p ∈ s.ledger)
    (hgoal : p.goalId = goal) (hkey : keyOf q = keyOf p) : q ∈ s'.ledger ↔ q ∈ s.ledger := by
  have hp' : p ∈ s'.ledger := (h.ledger p hgoal).mpr hp
  constructor
  · intro hq
    exact (h.ledger q ((hkeys' q hq p hp' hkey).trans hgoal)).mp hq
  · intro hq
    exact (h.ledger q ((hkeys q hq p hp hkey).trans hgoal)).mpr hq

theorem postings (h : s.Shares goal s') : s'.postings (some goal) none = s.postings (some goal) none := by
  have hwithin : (Query.postings (some goal) none).Within goal := rfl
  exact h.answer hwithin

theorem candidates? (h : s.Shares goal s') : Sweep.candidates? t s' goal = Sweep.candidates? t s goal := by
  have hwithin : (Query.bankRecords (some goal) none).Within goal := rfl
  have hrecords : s'.bankRecords (some goal) none = s.bankRecords (some goal) none := h.answer hwithin
  rw [Sweep.candidates?_eq, Sweep.candidates?_eq, h.postings, hrecords]

theorem judgedRecord (h : s.Shares goal s') {r : BankRecord} (hgoal : r.goalId = goal) :
    sweep.judgedRecord t now s' r = sweep.judgedRecord t now s r := by
  subst hgoal
  have hreason : sweep.reasonOf t s' r = sweep.reasonOf t s r :=
    Sweep.reasonOf_congr (congrArg (Sweep.candidateGroups t) h.postings)
  rw [Sweep.judgedRecord, Sweep.judgedRecord, hreason]

theorem judgedPosting (h : s.Shares goal s') (hkeys : s.KeysApart) (hkeys' : s'.KeysApart) {p : Posting}
    (hp : p ∈ s.ledger) (hgoal : p.goalId = goal) :
    sweep.judgedPosting t now s' p = sweep.judgedPosting t now s p := by
  have hreason : sweep.reasonOfKey t s' (keyOf p) = sweep.reasonOfKey t s (keyOf p) := by
    refine Sweep.reasonOfKey_congr h.sound h.sound' (fun q hkey => h.mem_key hkeys hkeys' hp hgoal hkey) ?_
    intro first hfirst hkey tag g htype
    rw [hkeys first hfirst p hp hkey, hgoal, h.candidates?]
  rw [Sweep.judgedPosting, Sweep.judgedPosting, hreason]

/-- What a sweep leaves of the goal is the same in both. -/
theorem judged (h : s.Shares goal s') (hkeys : s.KeysApart) (hkeys' : s'.KeysApart) :
    (sweep.judged t now s).Shares goal (sweep.judged t now s') where
  sound := h.sound.of_plain (Sweep.judged_plain t now sweep s)
  sound' := h.sound'.of_plain (Sweep.judged_plain t now sweep s')
  bank r hgoal := by
    constructor
    · intro hr
      obtain ⟨old, hold, rfl⟩ := List.mem_map.mp hr
      have hgoal' : old.goalId = goal := hgoal
      exact List.mem_map.mpr ⟨old, (h.bank old hgoal').mp hold, (h.judgedRecord hgoal').symm⟩
    · intro hr
      obtain ⟨old, hold, rfl⟩ := List.mem_map.mp hr
      have hgoal' : old.goalId = goal := hgoal
      exact List.mem_map.mpr ⟨old, (h.bank old hgoal').mpr hold, h.judgedRecord hgoal'⟩
  ledger p hgoal := by
    constructor
    · intro hp
      obtain ⟨old, hold, rfl⟩ := List.mem_map.mp hp
      have hgoal' : old.goalId = goal := (congrArg Posting.goalId (Sweep.judgedPosting_plain t now sweep s' old)).symm.trans hgoal
      have hmem := (h.ledger old hgoal').mp hold
      exact List.mem_map.mpr ⟨old, hmem, (h.judgedPosting hkeys hkeys' hmem hgoal').symm⟩
    · intro hp
      obtain ⟨old, hold, rfl⟩ := List.mem_map.mp hp
      have hgoal' : old.goalId = goal := (congrArg Posting.goalId (Sweep.judgedPosting_plain t now sweep s old)).symm.trans hgoal
      exact List.mem_map.mpr
        ⟨old, (h.ledger old hgoal').mpr hold, h.judgedPosting hkeys hkeys' hold hgoal'⟩

end Shares

end Store

/-! ## Both -/

/-- What a run for a goal comes to on two stores: it tells the same, leaves the same of its goal, and changes no record
of another goal and no posting. -/
structure RunIsolated (goal : String) (s : Store) (trace trace' : Trace Memory RunResult) : Prop where
  outcome : trace'.outcome = trace.outcome
  events : trace'.events = trace.events
  left : trace.state.store.Shares goal trace'.state.store
  others : ∀ r, r.goalId ≠ goal → (r ∈ trace.state.store.bank ↔ r ∈ s.bank)
  ledger : trace.state.store.ledger = s.ledger

theorem ofGoal_isolated {goal : String} {s s' : Store} (h : s.Shares goal s') (faults : Option Faults) (t : Tolerance)
    (now : Timestamp) (range : DateRange) (persistent : Bool) (actor : String) :
    RunIsolated goal s
      ((Memory.under faults).run (RunResult.ofGoal t now goal range persistent actor) (.ofStore s))
      ((Memory.under faults).run (RunResult.ofGoal t now goal range persistent actor) (.ofStore s')) := by
  have hready := Memory.ready_ofStore h.sound.bank_once
  have hminds : (RunResult.ofGoal t now goal range persistent actor).Minds goal (s.view goal) :=
    RunResult.ofGoal_minds t now range persistent actor (h.sound.bank_once.sublist (List.filter_sublist.map _))
  obtain ⟨houtcome, hevents, hleft⟩ := Memory.run_shares faults
    hready (Memory.ready_ofStore h.sound'.bank_once) hminds
    (RunResult.ofGoal_confined t now range persistent actor) h
  have hleaves : Memory.Leaves [goal] s
      ((Memory.under faults).run (RunResult.ofGoal t now goal range persistent actor) (.ofStore s)).state.store :=
    Memory.run_leaves hready hminds
  refine ⟨houtcome, hevents, hleft, fun r hother => ?_, hleaves.ledger⟩
  have hview := hleaves.views r.goalId fun hmem => hother (List.mem_singleton.mp hmem)
  have hmem : ∀ x : Store, r ∈ x.bank ↔ r ∈ (x.view r.goalId).bank := fun x => by
    rw [Store.mem_view, and_iff_left rfl]
  rw [hmem, hview, hmem s]

/-- **Goals do not influence each other.** -/
theorem goals_isolated (t : Tolerance) (now : Timestamp) {goal : String} {s s' : Store} (h : s.Shares goal s')
    (hkeys : s.KeysApart) (hkeys' : s'.KeysApart) :
    (∀ (faults : Option Faults) (range : DateRange) (persistent : Bool) (actor : String), RunIsolated goal s
      ((Memory.under faults).run (RunResult.ofGoal t now goal range persistent actor) (.ofStore s))
      ((Memory.under faults).run (RunResult.ofGoal t now goal range persistent actor) (.ofStore s'))) ∧
    ∀ sweep : Sweep, ((sweep.worklist s).length : Int) ≤ sweep.size → ((sweep.worklist s').length : Int) ≤ sweep.size →
      ∃ result result' final final',
        Memory.repository.effect (sweep.run t now) (.ofStore s) = (.ok result, final) ∧
        Memory.repository.effect (sweep.run t now) (.ofStore s') = (.ok result', final') ∧
        final.store.Shares goal final'.store := by
  refine ⟨fun faults range persistent actor => ofGoal_isolated h faults t now range persistent actor, ?_⟩
  intro sweep hroom hroom'
  obtain ⟨result, final, hrun, hstored⟩ := Sweep.run_judges t now h.sound hroom
  obtain ⟨result', final', hrun', hstored'⟩ := Sweep.run_judges t now h.sound' hroom'
  refine ⟨result, result', final, final', hrun, hrun', ?_⟩
  rw [hstored, hstored']
  exact h.judged hkeys hkeys'

namespace Sample

/-- The same of the goal, and another goal's record and posting that would fit just as well. -/
def neighboured : Store :=
  { bank := [{ Sweep.Sample.tagged "other" with goalId := "other", review := {} }, Sweep.Sample.tagged "first"]
    ledger := [{ Sweep.Sample.posting with id := "p0", goalId := "other", groupKey := some "other", review := {} },
      Sweep.Sample.posting] }

theorem shares_neighboured : Sweep.Sample.store.Shares "goal" neighboured where
  sound := ⟨by decide, by decide, by decide +kernel⟩
  sound' := ⟨by decide, by decide, by decide +kernel⟩
  bank := mem_cons_of_not (by decide)
  ledger := mem_cons_of_not (by decide)

def noon : Timestamp :=
  ⟨Sweep.Sample.monday, 12, 0, 0, 0, some 0⟩

def mondayRun : Procedure RunResult :=
  RunResult.ofGoal {} noon "goal" ⟨Sweep.Sample.monday, Sweep.Sample.monday, by decide⟩ true "actor"

def sweepOfTen : Sweep :=
  { size := 10 }

def swept (store : Store) : Except Failure SweepResult × Memory :=
  Memory.repository.effect (sweepOfTen.run {} noon) (.ofStore store)

theorem details_of_count {store : Store} {n : Nat} {result : SweepResult} {final : Memory}
    (hcount : (swept store).1.toOption.map (fun result => result.details.length) = some n)
    (hrun : swept store = (.ok result, final)) : result.details.length = n := by
  rw [hrun] at hcount
  exact Option.some.inj hcount

end Sample

/-- The sweep resolves the record and the posting of the goal in both stores, and leaves the same of them. -/
theorem goals_isolated_sample :
    Sweep.Sample.store.KeysApart ∧ Sample.neighboured.KeysApart ∧
      RunIsolated "goal" Sweep.Sample.store
        ((Memory.under none).run Sample.mondayRun (.ofStore Sweep.Sample.store))
        ((Memory.under none).run Sample.mondayRun (.ofStore Sample.neighboured)) ∧
      ∃ result result' final final',
        Sample.swept Sweep.Sample.store = (.ok result, final) ∧ Sample.swept Sample.neighboured = (.ok result', final') ∧
        (result.details.length, result'.details.length) = (2, 2) ∧ final.store.Shares "goal" final'.store := by
  have hkeys : Sweep.Sample.store.KeysApart := by decide +kernel
  have hkeys' : Sample.neighboured.KeysApart := by decide +kernel
  obtain ⟨hruns, hsweeps⟩ := goals_isolated {} Sample.noon Sample.shares_neighboured hkeys hkeys'
  obtain ⟨result, result', final, final', hrun, hrun', hshares⟩ :=
    hsweeps Sample.sweepOfTen (by decide +kernel) (by decide +kernel)
  refine ⟨hkeys, hkeys', hruns none _ _ _, result, result', final, final', hrun,
    hrun', ?_, hshares⟩
  rw [Sample.details_of_count (n := 2) (by decide +kernel) hrun, Sample.details_of_count (n := 2) (by decide +kernel) hrun']

end GoalReconciliation

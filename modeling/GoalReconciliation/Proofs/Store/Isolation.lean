import GoalReconciliation.Proofs.Store.Arrangement
import GoalReconciliation.Proofs.Store.Locality

/-!
# Stores that hold the same of one goal

* `Store.only` : the records and the postings of one goal; `Store.Shares` : two stores that hold the same of it;
* `Query.Within`, `Shares.answer` : a question about what is held of the goal has the same answer in both;
* `Procedure.Confined` : a procedure that asks such questions only;
* `Memory.run_shares` : **a procedure that minds its goal and is confined to it comes to the same in both stores, and
  leaves the same of the goal.**
-/

namespace GoalReconciliation

set_option autoImplicit false

def Query.Within (goal : String) : Query → Prop
  | .bankRecords asked _ => asked = some goal
  | .manualMatches asked => asked = some goal
  | .postings asked _ => asked = some goal
  | _ => False

namespace Store

def only (s : Store) (goal : String) : Store :=
  ⟨s.bank.filter (·.goalId = goal), s.ledger.filter (·.goalId = goal)⟩

variable {s s' : Store} {goal : String} {records : List BankRecord}

theorem mem_only_bank {r : BankRecord} : r ∈ (s.only goal).bank ↔ r ∈ s.bank ∧ r.goalId = goal := by
  rw [only, List.mem_filter, decide_eq_true_iff]

theorem mem_only_ledger {p : Posting} : p ∈ (s.only goal).ledger ↔ p ∈ s.ledger ∧ p.goalId = goal := by
  rw [only, List.mem_filter, decide_eq_true_iff]

theorem Sound.only (h : s.Sound) (goal : String) : (s.only goal).Sound where
  bank_once := h.bank_once.sublist (List.filter_sublist.map _)
  ledger_once := h.ledger_once.sublist (List.filter_sublist.map _)
  keyed p hp := h.keyed p (mem_only_ledger.mp hp).1

theorem answer_only (s : Store) {question : Query} (h : question.Within goal) :
    (s.only goal).answer question = s.answer question := by
  cases question with
  | bankRecords asked range =>
      have habout : (Query.bankRecords asked range).About goal := h
      exact s.answer_view habout
  | manualMatches asked =>
      have habout : (Query.manualMatches asked).About goal := h
      exact s.answer_view habout
  | postings asked range =>
      obtain rfl : asked = some goal := h
      have hlisted : (s.only goal).ledger.filter (fun p => isGoal (some goal) p.goalId && DateRange.admits range p.date) =
          s.ledger.filter fun p => isGoal (some goal) p.goalId && DateRange.admits range p.date := by
        change (s.ledger.filter _).filter _ = _
        rw [List.filter_filter]
        refine List.filter_congr fun p _ => ?_
        by_cases hgoal : p.goalId = goal
        · simp [hgoal]
        · have hnot : ¬goal = p.goalId := fun e => hgoal e.symm
          simp [isGoal, hgoal, hnot]
      exact congrArg (Sorting.newestFirst Posting.date Posting.id) hlisted
  | _ => cases h

theorem only_foldl_putBank (hs : (s.bank.map BankRecord.id).Nodup) (h : (s.view goal).Renews records) :
    (records.foldl putBank s).only goal = records.foldl putBank (s.only goal) := by
  have hview := congrArg Store.bank (view_foldl_putBank hs h).1
  refine congrArg₂ Store.mk (hview.trans (bank_foldl_putBank_congr rfl)) ?_
  have hledger : (records.foldl putBank s).ledger = s.ledger := ledger_foldl_putBank s
  change (records.foldl putBank s).ledger.filter _ = _
  rw [hledger, ledger_foldl_putBank]
  rfl

/-! ## Two stores -/

/-- Two stores that hold the same records and postings of a goal. -/
structure Shares (goal : String) (s s' : Store) : Prop where
  sound : s.Sound
  sound' : s'.Sound
  bank : ∀ r, r.goalId = goal → (r ∈ s'.bank ↔ r ∈ s.bank)
  ledger : ∀ p, p.goalId = goal → (p ∈ s'.ledger ↔ p ∈ s.ledger)

namespace Shares

theorem only (h : s.Shares goal s') : (s.only goal).Rearranges (s'.only goal) where
  sound := h.sound.only goal
  bank := by
    refine (List.perm_ext_iff_of_nodup (h.sound.only goal).bank_once.of_map (h.sound'.only goal).bank_once.of_map).mpr
      fun r => ?_
    rw [mem_only_bank, mem_only_bank]
    exact and_congr_left fun hgoal => (h.bank r hgoal).symm
  ledger := by
    refine (List.perm_ext_iff_of_nodup (h.sound.only goal).ledger_once.of_map
      (h.sound'.only goal).ledger_once.of_map).mpr fun p => ?_
    rw [mem_only_ledger, mem_only_ledger]
    exact and_congr_left fun hgoal => (h.ledger p hgoal).symm

theorem of_only (hs : s.Sound) (hs' : s'.Sound) (h : (s.only goal).Rearranges (s'.only goal)) : s.Shares goal s' where
  sound := hs
  sound' := hs'
  bank r hgoal := by
    have hmem := h.bank.mem_iff (a := r)
    rw [mem_only_bank, mem_only_bank, and_iff_left hgoal, and_iff_left hgoal] at hmem
    exact hmem.symm
  ledger p hgoal := by
    have hmem := h.ledger.mem_iff (a := p)
    rw [mem_only_ledger, mem_only_ledger, and_iff_left hgoal, and_iff_left hgoal] at hmem
    exact hmem.symm

theorem answer (h : s.Shares goal s') {question : Query} (hquestion : question.Within goal) :
    s'.answer question = s.answer question := by
  rw [← answer_only s' hquestion, h.only.answer question, answer_only s hquestion]

theorem renews (h : s.Shares goal s') (hrecords : (s.view goal).Renews records) : (s'.view goal).Renews records := by
  intro r hr
  obtain ⟨old, hold, houtline⟩ := List.mem_map.mp (hrecords r hr)
  obtain ⟨hmem, hgoal⟩ := mem_view.mp hold
  exact List.mem_map.mpr ⟨old, mem_view.mpr ⟨(h.bank old hgoal).mpr hmem, hgoal⟩, houtline⟩

theorem foldl_putBank (h : s.Shares goal s') (hrecords : (s.view goal).Renews records) :
    (records.foldl putBank s).Shares goal (records.foldl putBank s') := by
  have hsound : ∀ s : Store, s.Sound → (records.foldl putBank s).Sound := fun s hs =>
    Write.Preserves.foldl_putBank (stable_sound records).bank hs
  refine of_only (hsound s h.sound) (hsound s' h.sound') ?_
  rw [only_foldl_putBank h.sound.bank_once hrecords, only_foldl_putBank h.sound'.bank_once (h.renews hrecords)]
  exact h.only.foldl_putBank records

end Shares

end Store

/-! ## Procedures -/

namespace Procedure

variable {α β : Type} {goal : String}

/-- Whatever it is answered, the procedure asks about its goal only. -/
def Confined (goal : String) : Procedure α → Prop
  | .done _ => True
  | .ask (.query question) next => question.Within goal ∧ ∀ answer, (next answer).Confined goal
  | .ask (.save _) next => ∀ answer, (next answer).Confined goal
  | .ask (.saveAll _) next => ∀ answer, (next answer).Confined goal
  | .record _ rest => rest.Confined goal

theorem confined_bind {p : Procedure α} {f : α → Procedure β} (hp : p.Confined goal) (hf : ∀ a, (f a).Confined goal) :
    (p >>= f).Confined goal := by
  change (p.bind f).Confined goal
  induction p with
  | done outcome =>
      cases outcome with
      | ok a => exact hf a
      | error failure => trivial
  | ask request next ih =>
      cases request with
      | query question => exact ⟨hp.1, fun answer => ih answer (hp.2 answer)⟩
      | save w => exact fun answer => ih answer (hp answer)
      | saveAll writes => exact fun answer => ih answer (hp answer)
  | record event rest ih => exact ih hp

theorem confined_query {question : Query} (h : question.Within goal) : (query question).Confined goal :=
  ⟨h, fun _ => trivial⟩

theorem confined_lift (x : Except Failure α) : (liftM x : Procedure α).Confined goal :=
  trivial

end Procedure

namespace Memory

variable {α : Type} {faults : Option Faults} {goal : String} {m m' : Memory}

theorem query_shares {question : Query} (h : question.Within goal) (hshares : m.store.Shares goal m'.store) :
    ((under faults).query question m').1 = ((under faults).query question m).1 := by
  have hanswer := hshares.answer h
  cases faults with
  | none => exact congrArg Except.ok hanswer
  | some f =>
      simp only [under, Repository.withFaults]
      split
      · rfl
      · exact congrArg Except.ok hanswer

/-- **What a confined procedure does depends on what is held of its goal only.** -/
theorem run_shares (faults : Option Faults) {p : Procedure α} (hm : m.Ready) (hm' : m'.Ready) (hminds : p.Minds goal (m.store.view goal))
    (hconfined : p.Confined goal) (h : m.store.Shares goal m'.store) :
    ((under faults).run p m').outcome = ((under faults).run p m).outcome ∧
      ((under faults).run p m').events = ((under faults).run p m).events ∧
      ((under faults).run p m).state.store.Shares goal ((under faults).run p m').state.store := by
  induction p generalizing m m' with
  | done outcome => exact ⟨rfl, rfl, h⟩
  | ask request next ih =>
      have hnext : (next ((under faults).answer request m).1).Minds goal
          (((under faults).answer request m).2.store.view goal) := (answer_minds hm hminds).2.1
      have hready : ((under faults).answer request m).2.Ready := hm.answer request
      have hready' : ((under faults).answer request m').2.Ready := hm'.answer request
      rw [Repository.run, Repository.run]
      simp only []
      cases request with
      | query question =>
          obtain ⟨hwithin, hrest⟩ := hconfined
          have hanswer : ((under faults).answer (.query question) m').1 = ((under faults).answer (.query question) m).1 :=
            query_shares hwithin h
          rw [hanswer]
          refine ih _ hready hready' hnext (hrest _) ?_
          change ((under faults).query question m).2.store.Shares goal ((under faults).query question m').2.store
          rwa [under_query_state, under_query_state]
      | save w => exact hminds.elim
      | saveAll writes =>
          obtain ⟨records, rfl, hrenews, -, -⟩ := hminds
          rw [answer_saveAll_bank hm.depth] at hnext hready ⊢
          rw [answer_saveAll_bank hm'.depth] at hready' ⊢
          cases hsaved : saveOutcome faults records with
          | ok _ =>
              rw [hsaved] at hnext hready hready'
              exact ih _ hready hready' hnext (hconfined _) (h.foldl_putBank hrenews)
          | error failure =>
              rw [hsaved] at hnext hready hready'
              exact ih _ hready hready' hnext (hconfined _) h
  | record event rest ih =>
      obtain ⟨houtcome, hevents, hstate⟩ := ih hm hm' hminds hconfined h
      exact ⟨houtcome, congrArg (event :: ·) hevents, hstate⟩

end Memory

end GoalReconciliation

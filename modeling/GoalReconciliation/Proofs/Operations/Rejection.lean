import GoalReconciliation.Operation
import GoalReconciliation.Proofs.Run.ManualPrecedence
import GoalReconciliation.Proofs.Store.Memory
import GoalReconciliation.Store.Database

/-!
# Rejected operations

Operators' operations check everything first, write all at once, and report what is written.

* `Procedure.Asks`, `Procedure.Concludes`, `Procedure.Careful` : questions only; nothing but events before a success;
  questions, then several writes at once, and events only once these are stored;
* `create_careful`, `remove_careful`, `link_careful`, `unlink_careful`, `apply_careful` : the operators' operations are
  careful;
* `Repository.Restores` : a store that holds what it held before, whenever several writes at once fail;
* `Careful.rejected` : on such a store, a careful procedure that fails changes nothing and reports nothing;
* `Memory.Scopes` : any store whose scopes are those of the store in memory, whatever its saves do and how they fail;
  `Memory.Scopes.restores`, `Database.restores` : it restores, and so does the database;
* `rejected_unchanged` : **a rejected operation leaves every record and posting as it was, and reports nothing**.
-/

namespace GoalReconciliation

set_option autoImplicit false

/-! ## Careful procedures -/

namespace Procedure

variable {α β : Type}

def Asks : Procedure α → Prop
  | .done _ => True
  | .ask (.query _) next => ∀ answer, (next answer).Asks
  | .ask _ _ => False
  | .record _ _ => False

/-- The procedure succeeds, and does nothing before but report. -/
def Concludes : Procedure α → Prop
  | .done outcome => ∃ a, outcome = .ok a
  | .ask _ _ => False
  | .record _ rest => rest.Concludes

/-- The procedure asks questions first, then for several writes at once if for any, and reports only once these are
stored and nothing can fail any more. -/
def Careful : Procedure α → Prop
  | .done _ => True
  | .ask (.query _) next => ∀ answer, (next answer).Careful
  | .ask (.save _) _ => False
  | .ask (.saveAll _) next =>
    (∀ failure, ∃ failure', next (.error failure) = .done (.error failure')) ∧ (next (.ok ())).Concludes
  | .record _ rest => rest.Concludes

theorem asks_query (question : Query) : (query question).Asks := fun _ => trivial

/-- What holds of a failure, and of a question whenever it holds behind each answer, holds of questions that are followed
by something of which it holds. -/
theorem Asks.followed {X : Procedure β → Prop} (hfailure : ∀ failure, X (.done (.error failure)))
    (hquestion : ∀ question next, (∀ answer, X (next answer)) → X (.ask (.query question) next)) {p : Procedure α}
    {f : α → Procedure β} (hp : p.Asks) (hf : ∀ a, X (f a)) : X (p >>= f) := by
  change X (p.bind f)
  induction p with
  | done outcome =>
      cases outcome with
      | ok a => exact hf a
      | error failure => exact hfailure failure
  | ask request next ih =>
      cases request with
      | query question => exact hquestion question _ fun answer => ih answer (hp answer)
      | save w => cases hp
      | saveAll writes => cases hp
  | record event rest ih => cases hp

theorem asks_bind {p : Procedure α} {f : α → Procedure β} (hp : p.Asks) (hf : ∀ a, (f a).Asks) : (p >>= f).Asks :=
  hp.followed (fun _ => trivial) (fun _ _ h => h) hf

theorem careful_bind {p : Procedure α} {f : α → Procedure β} (hp : p.Asks) (hf : ∀ a, (f a).Careful) :
    (p >>= f).Careful :=
  hp.followed (fun _ => trivial) (fun _ _ h => h) hf

theorem concludes_bind {p : Procedure α} {f : α → Procedure β} (hp : p.Concludes) (hf : ∀ a, (f a).Concludes) :
    (p >>= f).Concludes := by
  change (p.bind f).Concludes
  induction p with
  | done outcome =>
      obtain ⟨a, rfl⟩ := hp
      exact hf a
  | ask request next ih => cases hp
  | record event rest ih => exact ih hp

theorem careful_map {p : Procedure α} {f : α → β} (hp : p.Careful) : (p >>= fun a => pure (f a)).Careful := by
  change (p.bind fun a => pure (f a)).Careful
  induction p with
  | done outcome => cases outcome <;> trivial
  | ask request next ih =>
      cases request with
      | query question => exact fun answer => ih answer (hp answer)
      | save w => cases hp
      | saveAll writes =>
          refine ⟨fun failure => ?_, concludes_bind hp.2 fun a => ⟨f a, rfl⟩⟩
          obtain ⟨failure', hfailure⟩ := hp.1 failure
          exact ⟨failure', congrArg (·.bind fun a => pure (f a)) hfailure⟩
  | record event rest ih => exact concludes_bind (p := rest) hp fun a => ⟨f a, rfl⟩

theorem careful_saveAll (writes : List Write) (action : AuditAction) (goal : Option String) (actor : String) (a : α) :
    (saveAll writes >>= fun _ => report action goal actor >>= fun _ => pure a).Careful :=
  ⟨fun failure => ⟨failure, rfl⟩, a, rfl⟩

end Procedure

/-! ## The operators' operations -/

open Procedure

theorem asks_needRecords (ids : List String) : (needRecords ids).Asks := by
  refine asks_bind (asks_query (.bankById ids)) fun records => ?_
  cases firstMissing? ids (records.map BankRecord.id) <;> trivial

theorem asks_needPostings (keys : List String) : (needPostings keys).Asks := by
  refine asks_bind (asks_query (.postingsByKey keys)) fun postings => ?_
  cases firstMissing? keys (List.filterMap Posting.groupKey postings) <;> trivial

theorem Tagging.apply_careful (tagging : Tagging) (now : Timestamp) : (tagging.apply now).Careful :=
  careful_bind (asks_needRecords _) fun _ => careful_bind (asks_needPostings _) fun _ => careful_saveAll _ _ _ _ _

namespace ManualMatch

theorem create_careful (t : Tolerance) (now : Timestamp) (bankIds groupKeys : List String) (actor : String) :
    (create t now bankIds groupKeys actor).Careful := by
  unfold create
  simp only []
  split
  · trivial
  · refine careful_bind (asks_needRecords _) fun records => careful_bind (asks_needPostings _) fun postings => ?_
    cases checkSelection t now actor (Assoc.distinct bankIds) (Assoc.distinct groupKeys) records postings with
    | error failure => trivial
    | ok m => exact careful_saveAll _ _ _ _ _

theorem asks_addHolding (keys : List String) (selected : List BankRecord) : (addHolding keys selected).Asks := by
  induction keys generalizing selected with
  | nil => trivial
  | cons key rest ih => exact asks_bind (asks_bind (asks_query (.manualMatches none)) fun _ => trivial) fun _ => ih _

theorem remove_careful (bankIds groupKeys : List String) (actor : String) :
    (remove bankIds groupKeys actor).Careful := by
  unfold remove
  extract_lets clear
  have hclear : ∀ named, (clear named).Careful := by
    refine fun named => careful_bind (asks_addHolding _ _) fun selected => ?_
    extract_lets matched finish
    split
    · exact careful_saveAll _ _ _ _ _
    · exact ⟨_, rfl⟩
  split
  · exact hclear []
  · exact careful_bind (asks_needRecords _) hclear

end ManualMatch

namespace Reversal

theorem asks_lookup (id : String) : (lookup id).Asks :=
  asks_bind (asks_query (.bankById [id])) fun _ => trivial

theorem asks_need (id : String) : (need id).Asks := by
  refine asks_bind (asks_lookup id) fun found => ?_
  cases found <;> trivial

theorem link_careful (t : Tolerance) (now : Timestamp) (idA idB actor : String) :
    (link t now idA idB actor).Careful := by
  unfold link
  simp only []
  split
  · trivial
  · refine careful_bind (asks_need idA) fun a => careful_bind (asks_need idB) fun b => ?_
    cases check t a b with
    | error failure => trivial
    | ok net => exact careful_saveAll _ _ _ _ _

theorem unlink_careful (id actor : String) : (unlink id actor).Careful := by
  refine careful_bind (asks_need id) fun r => ?_
  cases r.reversal with
  | none => trivial
  | some held => exact careful_bind (asks_lookup held.partnerId) fun partner => careful_saveAll _ _ _ _ _

end Reversal

namespace Operation

/-- What operators do to records: tags for single records and for many, matches, and reversal pairs. -/
def byOperator : Operation → Bool
  | tagRecords _ | createMatch .. | removeMatches .. | linkReversal .. | unlinkReversal .. => true
  | _ => false

theorem byOperator_careful {operation : Operation} (h : operation.byOperator = true) (t : Tolerance) (now : Timestamp) :
    (operation.procedure t now).Careful := by
  cases operation with
  | tagRecords tagging => exact careful_map (tagging.apply_careful now)
  | createMatch ids keys actor => exact careful_map (ManualMatch.create_careful t now ids keys actor)
  | removeMatches ids keys actor => exact careful_map (ManualMatch.remove_careful ids keys actor)
  | linkReversal idA idB actor => exact careful_map (Reversal.link_careful t now idA idB actor)
  | unlinkReversal id actor => exact careful_map (Reversal.unlink_careful id actor)
  | _ => cases h

end Operation

/-! ## Stores that restore -/

section Stores

variable {σ δ α : Type}

/-- A store in which questions change nothing of what it holds, and which holds what it held before when several writes
at once fail. -/
structure Repository.Restores (repo : Repository σ) (ready : σ → Prop) (held : σ → δ) : Prop where
  query : ∀ question s, ready s → ready (repo.query question s).2 ∧ held (repo.query question s).2 = held s
  saveAll : ∀ writes s failure, ready s → (repo.answer (.saveAll writes) s).1 = .error failure →
    held (repo.answer (.saveAll writes) s).2 = held s

theorem Procedure.Concludes.succeeds {p : Procedure α} (h : p.Concludes) (repo : Repository σ) (s : σ) :
    ∃ a, (repo.run p s).outcome = .ok a := by
  induction p with
  | done outcome => exact h
  | ask request next ih => cases h
  | record event rest ih => exact ih h

/-- **A careful procedure that fails changes nothing and reports nothing.** -/
theorem Procedure.Careful.rejected {repo : Repository σ} {ready : σ → Prop} {held : σ → δ}
    (hrepo : repo.Restores ready held) {p : Procedure α} (h : p.Careful) {s : σ} (hs : ready s) {failure : Failure}
    (hrejected : (repo.run p s).outcome = .error failure) :
    held (repo.run p s).state = held s ∧ (repo.run p s).events = [] := by
  induction p generalizing s with
  | done outcome => exact ⟨rfl, rfl⟩
  | ask request next ih =>
      cases request with
      | query question =>
          obtain ⟨hready, hheld⟩ := hrepo.query question s hs
          obtain ⟨hsame, hevents⟩ := ih _ (h _) hready hrejected
          exact ⟨hsame.trans hheld, hevents⟩
      | save w => cases h
      | saveAll writes =>
          unfold Repository.run at hrejected ⊢
          cases hanswer : repo.answer (.saveAll writes) s with
          | mk answer s' =>
              rw [hanswer] at hrejected
              cases answer with
              | ok _ =>
                  obtain ⟨a, ha⟩ := h.2.succeeds repo s'
                  cases ha.symm.trans hrejected
              | error cause =>
                  obtain ⟨failure', hfailed⟩ := h.1 cause
                  have hkept := hrepo.saveAll writes s cause hs (congrArg Prod.fst hanswer)
                  rw [hanswer] at hkept
                  simp only []
                  rw [hfailed]
                  exact ⟨hkept, rfl⟩
  | record event rest ih =>
      obtain ⟨a, ha⟩ := Procedure.Concludes.succeeds (p := rest) h repo s
      cases ha.symm.trans hrejected

end Stores

/-! ### In memory -/

namespace Memory

variable {σ : Type}

/-- A store whose scopes are those of the store in memory. Its questions may fail, and its saves may fail or not and
store anything. -/
structure Scopes (repo : Repository σ) (memory : σ → Memory) : Prop where
  query : ∀ question s, memory (repo.query question s).2 = memory s
  save : ∀ w s, (memory (repo.save w s).2).snapshot = (memory s).snapshot ∧
    (memory (repo.save w s).2).depth = (memory s).depth
  enter : ∀ s, memory (repo.enter s) = (memory s).enter
  leave : ∀ failure s, (repo.leave failure s).1 = ((memory s).leave failure).1 ∧
    memory (repo.leave failure s).2 = ((memory s).leave failure).2

theorem Scopes.saveEach {repo : Repository σ} {memory : σ → Memory} (h : Scopes repo memory) (writes : List Write)
    (s : σ) : (memory (repo.saveEach writes s).2).snapshot = (memory s).snapshot ∧
      (memory (repo.saveEach writes s).2).depth = (memory s).depth := by
  induction writes generalizing s with
  | nil => exact ⟨rfl, rfl⟩
  | cons w rest ih =>
      obtain ⟨hsnapshot, hdepth⟩ := h.save w s
      unfold Repository.saveEach
      cases hsave : repo.save w s with
      | mk outcome s' =>
          rw [hsave] at hsnapshot hdepth
          cases outcome with
          | ok _ => exact ⟨(ih s').1.trans hsnapshot, (ih s').2.trans hdepth⟩
          | error failure => exact ⟨hsnapshot, hdepth⟩

/-- What the outermost scope held at its start is there again if it fails. -/
theorem Scopes.restores {repo : Repository σ} {memory : σ → Memory} (h : Scopes repo memory) :
    repo.Restores (fun s => (memory s).depth = 0) fun s => (memory s).store where
  query question s hs := by
    rw [h.query]
    exact ⟨hs, rfl⟩
  saveAll writes s failure hs hfailed := by
    obtain ⟨hsnapshot, hdepth⟩ := h.saveEach writes (repo.enter s)
    have henter : (memory s).enter = { memory s with snapshot := (memory s).store, depth := 1 } := if_pos hs
    rw [h.enter, henter] at hsnapshot hdepth
    change (repo.close (repo.saveEach writes (repo.enter s)).1 (repo.saveEach writes (repo.enter s)).2).1 = _ at hfailed
    change (memory (repo.close (repo.saveEach writes (repo.enter s)).1 (repo.saveEach writes (repo.enter s)).2).2).store
      = _
    rw [Repository.close_state, (h.leave _ _).2]
    generalize repo.saveEach writes (repo.enter s) = saved at hsnapshot hdepth hfailed
    obtain ⟨outcome, s'⟩ := saved
    cases outcome with
    | ok _ =>
        -- a scope of the store in memory that has not failed is left without a failure
        have hleave : (repo.leave none s').1 = none := by
          rw [(h.leave none s').1, Memory.leave]
          split <;> rfl
        unfold Repository.close at hfailed
        generalize repo.leave none s' = left at hleave hfailed
        obtain ⟨_, s''⟩ := left
        obtain rfl := hleave
        cases hfailed
    | error cause =>
        have hlast : ¬1 < (memory s').depth := hdepth ▸ Nat.lt_irrefl 1
        rw [Repository.failure?, Memory.leave, if_neg hlast]
        exact hsnapshot

theorem under_scopes (faults : Option Faults) : Scopes (under faults) id where
  query question m := under_query_state faults question m
  save w m := by
    have hkeeps := under_save_keeps faults w.preserves_true m
    exact ⟨hkeeps.snapshot, hkeeps.depth⟩
  enter m := by rw [under_enter, id, id]
  leave failure m := by simp [under_leave]

end Memory

/-! ### In the database -/

namespace Database

variable {α : Type}

structure Holds (db db' : Database) : Prop where
  committed : db'.committed = db.committed
  depth : db'.depth = db.depth

theorem Holds.refl (db : Database) : Holds db db := ⟨rfl, rfl⟩

theorem Holds.trans {db db' db'' : Database} (h : Holds db db') (h' : Holds db' db'') : Holds db db'' :=
  ⟨h'.committed.trans h.committed, h'.depth.trans h.depth⟩

theorem use_holds (db : Database) (call : Call) : Holds db (db.use call).2 := ⟨rfl, rfl⟩

theorem useTimes_holds (db : Database) (call : Call) (count : Nat) : Holds db (db.useTimes call count).2 := by
  induction count generalizing db with
  | zero => exact .refl db
  | succ count ih =>
      have huse := db.use_holds call
      unfold useTimes
      cases hused : db.use call with
      | mk succeeded db' =>
          rw [hused] at huse
          cases succeeded with
          | true => exact huse.trans (ih db')
          | false => exact huse

theorem query_holds (question : Query) (db : Database) : Holds db (db.query question).2 := by
  have huse := db.useTimes_holds .execute (callCount question)
  unfold query
  cases hused : db.useTimes .execute (callCount question) with
  | mk succeeded db' =>
      rw [hused] at huse
      cases succeeded <;> exact huse

theorem putEach_holds (put : Tables → α → Except Failure Tables) (fault : StorageFault) (items : List α)
    (db : Database) : Holds db (db.putEach put fault items).2 := by
  induction items generalizing db with
  | nil => exact .refl db
  | cons item rest ih =>
      have huse := db.use_holds .get
      unfold putEach
      cases hused : db.use .get with
      | mk succeeded db' =>
          rw [hused] at huse
          cases succeeded with
          | false => exact huse
          | true =>
              simp only []
              cases hput : put db'.working item with
              | ok t =>
                  have hwritten : Holds db' { db' with working := t } := ⟨rfl, rfl⟩
                  exact (huse.trans hwritten).trans (ih _)
              | error failure => exact huse

/-- Within a scope nothing is committed. -/
theorem save_holds (w : Write) {db : Database} (hdepth : db.depth ≠ 0) : Holds db (db.save w).2 := by
  have hput : Holds db (db.put w).2 := by
    cases w with
    | bank records => exact putEach_holds _ _ records db
    | postings postings => exact putEach_holds _ _ postings db
  unfold save
  cases hputs : db.put w with
  | mk outcome db' =>
      rw [hputs] at hput
      have hwithin : db'.depth ≠ 0 := hput.depth ▸ hdepth
      cases outcome with
      | error failure => cases failure <;> simpa only [if_neg hwithin] using hput
      | ok _ =>
          have huse := db'.use_holds .flush
          simp only [if_neg hwithin]
          cases hused : db'.use .flush with
          | mk succeeded db'' =>
              rw [hused] at huse
              cases succeeded <;> exact hput.trans huse

theorem saveEach_holds (writes : List Write) {db : Database} (hdepth : db.depth ≠ 0) :
    Holds db (repository.saveEach writes db).2 := by
  induction writes generalizing db with
  | nil => exact .refl db
  | cons w rest ih =>
      have hsave := save_holds w hdepth
      have hrepository : repository.save w db = db.save w := rfl
      unfold Repository.saveEach
      rw [hrepository]
      cases hsaved : db.save w with
      | mk outcome db' =>
          rw [hsaved] at hsave
          cases outcome with
          | ok _ => exact hsave.trans (ih (hsave.depth ▸ hdepth))
          | error failure => exact hsave

/-- What is committed stays when the outermost scope fails, be it in closing. -/
theorem leave_failed (outcome : Except Failure Unit) {db : Database} (hdepth : db.depth = 1) {failure : Failure}
    (hfailed : (repository.close outcome db).1 = .error failure) :
    (repository.close outcome db).2.committed = db.committed := by
  have hlast : ¬1 < db.depth := by omega
  have hrepository : ∀ cause, repository.leave cause db = db.leave cause := fun _ => rfl
  unfold Repository.close at hfailed ⊢
  cases outcome with
  | error cause =>
      simp only [hrepository, leave, if_neg hlast]
      rfl
  | ok _ =>
      have huse := ({ db with depth := 0 } : Database).use_holds .commit
      simp only [hrepository, leave, if_neg hlast] at hfailed ⊢
      generalize ({ db with depth := 0 } : Database).use .commit = used at huse hfailed
      obtain ⟨succeeded, db'⟩ := used
      cases succeeded with
      | true => cases hfailed
      | false => exact huse.committed

/-- What is committed stays when writes that were to be made all at once fail. -/
theorem restores : repository.Restores (fun db => db.depth = 0) Database.committed where
  query question db hdepth := by
    have hquery := query_holds question db
    exact ⟨hquery.depth.trans hdepth, hquery.committed⟩
  saveAll writes db failure hdepth hfailed := by
    have henter : (repository.enter db).depth = 1 := congrArg (· + 1) hdepth
    have heach := saveEach_holds writes (show (repository.enter db).depth ≠ 0 by omega)
    exact (leave_failed _ (heach.depth.trans henter) hfailed).trans heach.committed

end Database

/-! ## Rejections -/

/-- **A rejected operation changes nothing.** When a tag, an operator's match or its removal, or the making or the
dissolving of a reversal pair fails, at its checks or at any point of its writes, every record and posting is stored as
before, and nothing is reported. In memory this holds whatever the saves store before they fail, and in the database
whichever calls fail. -/
theorem rejected_unchanged {operation : Operation} (hoperator : operation.byOperator = true) (t : Tolerance)
    (now : Timestamp) :
    (∀ (σ : Type) (repo : Repository σ) (memory : σ → Memory), Memory.Scopes repo memory → ∀ s, (memory s).depth = 0 →
      ∀ failure, (repo.run (operation.procedure t now) s).outcome = .error failure →
        (memory (repo.run (operation.procedure t now) s).state).store = (memory s).store ∧
          (repo.run (operation.procedure t now) s).events = []) ∧
      ∀ db : Database, db.depth = 0 →
        ∀ failure, (Database.repository.run (operation.procedure t now) db).outcome = .error failure →
          (Database.repository.run (operation.procedure t now) db).state.committed = db.committed ∧
            (Database.repository.run (operation.procedure t now) db).events = [] := by
  have hcareful := operation.byOperator_careful hoperator t now
  refine ⟨fun σ repo memory hscopes s hs failure hrejected => ?_, fun db hdb failure hrejected => ?_⟩
  · exact hcareful.rejected hscopes.restores hs hrejected
  · exact hcareful.rejected Database.restores hdb hrejected

namespace Sample

def tagged : Store :=
  { bank := [record "paired" "s1" 100], ledger := [posting "p1" "a" "s1" 100] }

/-- The store in memory, in which the posting cannot be saved. -/
def refusing : Repository Memory :=
  Memory.under (some { failure := .storage (.savePostings "p1"), postings := ["p1"] })

def recordRow : BankRow :=
  { id := "paired", goalId := "goal", transactionType := "DEPOSIT", date := day }

def postingRow : PostingRow :=
  { id := "p1", goalId := "goal", instrument := "XUMMF", transactionType := "DEPOSIT", groupKey := some "a" }

/-- A database that takes the first of two writes and fails at the second one. -/
def failing : Database :=
  { columns := .faithful, outages := [⟨.flush, 2⟩], committed := ⟨[recordRow], [postingRow]⟩
    working := ⟨[recordRow], [postingRow]⟩ }

def tagBoth : Procedure Json :=
  Operation.procedure {} ⟨day, 12, 0, 0, 0, some 0⟩ (.tagRecords ⟨["paired"], ["a"], some .other, none, "operator"⟩)

end Sample

theorem rejected_unchanged_sample :
    ((Sample.refusing.run Sample.tagBoth (.ofStore Sample.tagged)).outcome.toBool = false ∧
      (Sample.refusing.written Sample.tagBoth (.ofStore Sample.tagged)).map BankRecord.id = ["paired"] ∧
      (Sample.refusing.run Sample.tagBoth (.ofStore Sample.tagged)).state.store = Sample.tagged ∧
      (Sample.refusing.run Sample.tagBoth (.ofStore Sample.tagged)).events = []) ∧
    (Database.repository.run Sample.tagBoth Sample.failing).outcome.toBool = false ∧
      (Database.repository.run Sample.tagBoth Sample.failing).state.calls =
        [.flush, .get, .flush, .get, .execute, .execute] ∧
      (Database.repository.run Sample.tagBoth Sample.failing).state.committed = Sample.failing.committed ∧
      (Database.repository.run Sample.tagBoth Sample.failing).events = [] := by
  obtain ⟨hmemory, hdatabase⟩ := @rejected_unchanged
    (.tagRecords ⟨["paired"], ["a"], some .other, none, "operator"⟩) rfl {} ⟨Sample.day, 12, 0, 0, 0, some 0⟩
  have hrefused : (Sample.refusing.run Sample.tagBoth (.ofStore Sample.tagged)).outcome.toBool = false := by
    decide +kernel
  have hfailed : (Database.repository.run Sample.tagBoth Sample.failing).outcome.toBool = false := by decide +kernel
  obtain ⟨failure, hfailure⟩ := Fallible.error_of_toBool hrefused
  obtain ⟨failure', hfailure'⟩ := Fallible.error_of_toBool hfailed
  exact ⟨⟨hrefused, by decide +kernel,
      hmemory Memory Sample.refusing id (Memory.under_scopes _) (.ofStore Sample.tagged) rfl failure hfailure⟩,
    hfailed, by decide +kernel, hdatabase Sample.failing rfl failure' hfailure'⟩

end GoalReconciliation

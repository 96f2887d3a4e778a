import GoalReconciliation.Proofs.Fallible
import GoalReconciliation.Proofs.Lookup
import GoalReconciliation.Proofs.Store.Run
import GoalReconciliation.Store.Faults
import GoalReconciliation.Store.Memory

/-!
# Runs on the store in memory

* `mem_replaceOrAdd`, `nodup_replaceOrAdd` : what a stored item replaces, and that ids stay distinct;
* `Memory.under` : the store in memory, some of whose steps may fail;
* `Write.Preserves`, `Stable` : a property of stores that the parts of a write preserve, or the storing of some records
  and of any postings;
* `run_stable` : **a property that is stable under the records that a run asks to be stored outlives the run**, whatever
  fails and is undone;
* `run_distinct`, `run_bank`, `run_untouched` : such properties of every run;
* `run_answered`, `same_answered` : a question that does not fail is answered by what is stored.
-/

namespace GoalReconciliation

set_option autoImplicit false

/-! ## One item stored -/

section Items

variable {α : Type} {name : α → String}

theorem mem_replaceOrAdd {item x : α} {items : List α} (h : x ∈ replaceOrAdd name item items) :
    x = item ∨ x ∈ items := by
  induction items with
  | nil => exact Or.inl (List.mem_singleton.mp h)
  | cons old rest ih =>
      unfold replaceOrAdd at h
      split at h
      · rcases List.mem_cons.mp h with rfl | hx
        · exact Or.inl rfl
        · exact Or.inr (List.mem_cons_of_mem _ hx)
      · rcases List.mem_cons.mp h with rfl | hx
        · exact Or.inr List.mem_cons_self
        · exact (ih hx).imp id (List.mem_cons_of_mem _)

theorem names_replaceOrAdd (item : α) (items : List α) :
    (replaceOrAdd name item items).map name =
      if name item ∈ items.map name then items.map name else items.map name ++ [name item] := by
  induction items with
  | nil => rfl
  | cons old rest ih =>
      unfold replaceOrAdd
      by_cases h : name old = name item
      · simp [h]
      · have hne : name item ≠ name old := fun e => h e.symm
        rw [if_neg h, List.map_cons, ih]
        by_cases hrest : name item ∈ rest.map name
        · simp [hrest]
        · simp [hrest, hne]

theorem nodup_replaceOrAdd {item : α} {items : List α} (h : (items.map name).Nodup) :
    ((replaceOrAdd name item items).map name).Nodup := by
  rw [names_replaceOrAdd]
  split
  · exact h
  · rename_i hnew
    rw [← List.concat_eq_append]
    exact h.concat hnew

theorem find?_replaceOrAdd_of_ne {item : α} {items : List α} {n : String} (h : name item ≠ n) :
    (replaceOrAdd name item items).find? (fun x => decide (name x = n)) =
      items.find? fun x => decide (name x = n) := by
  induction items with
  | nil => simp [replaceOrAdd, h]
  | cons old rest ih =>
      unfold replaceOrAdd
      split
      · rename_i hold
        have hne : name old ≠ n := by rwa [hold]
        rw [List.find?_cons_of_neg (by simpa using h), List.find?_cons_of_neg (by simpa using hne)]
      · rw [List.find?_cons, List.find?_cons, ih]

end Items

namespace Store

theorem putPosting_bank {s s' : Store} {p : Posting} (h : s.putPosting p = .ok s') : s'.bank = s.bank := by
  obtain ⟨key, -, h⟩ := Fallible.bind_eq_ok.mp h
  obtain rfl := Fallible.pure_eq_ok.mp h
  rfl

theorem bankRecord?_iff {s : Store} (hs : (s.bank.map BankRecord.id).Nodup) {id : String} {r : BankRecord} :
    s.bankRecord? id = some r ↔ r ∈ s.bank ∧ r.id = id :=
  Lookup.find?_eq_some_iff hs

end Store

/-! ## Properties that outlive a run -/

/-- A property of stores that each record and each posting of a write preserves. -/
def Write.Preserves (P : Store → Prop) : Write → Prop
  | .bank records => ∀ r ∈ records, ∀ s, P s → P (s.putBank r)
  | .postings posted => ∀ p ∈ posted, ∀ s s', s.putPosting p = .ok s' → P s → P s'

namespace Write

variable {P : Store → Prop} {s : Store}

theorem preserves_true (w : Write) : w.Preserves fun _ => True := by
  cases w <;> simp [Preserves]

theorem Preserves.foldl_putBank {records : List BankRecord} (h : (Write.bank records).Preserves P) (hs : P s) :
    P (records.foldl Store.putBank s) := by
  induction records generalizing s with
  | nil => exact hs
  | cons r rest ih => exact ih (fun r hr => h r (List.mem_cons_of_mem _ hr)) (h r List.mem_cons_self s hs)

theorem Preserves.putPostings {posted : List Posting} (h : (Write.postings posted).Preserves P) (hs : P s) :
    P (s.putPostings posted).2 := by
  induction posted generalizing s with
  | nil => exact hs
  | cons p rest ih =>
      unfold Store.putPostings
      cases hput : s.putPosting p with
      | ok s' => exact ih (fun p hp => h p (List.mem_cons_of_mem _ hp)) (h p List.mem_cons_self s s' hput hs)
      | error problem => exact hs

theorem Preserves.one_record {records : List BankRecord} (h : (Write.bank records).Preserves P) {r : BankRecord}
    (hr : r ∈ records) : (Write.bank [r]).Preserves P :=
  List.forall_mem_singleton.mpr (h r hr)

theorem Preserves.one_posting {posted : List Posting} (h : (Write.postings posted).Preserves P) {p : Posting}
    (hp : p ∈ posted) : (Write.postings [p]).Preserves P :=
  List.forall_mem_singleton.mpr (h p hp)

theorem Preserves.write {w : Write} (h : w.Preserves P) (hs : P s) : P (s.write w).2 := by
  cases w with
  | bank records => exact Preserves.foldl_putBank h hs
  | postings postings => exact Preserves.putPostings h hs

end Write

/-- A property of stores that the storing of some records, and of any postings, preserves. -/
structure Stable (P : Store → Prop) (records : List BankRecord) : Prop where
  bank : ∀ r ∈ records, ∀ s, P s → P (s.putBank r)
  posting : ∀ (p : Posting) (s s' : Store), s.putPosting p = .ok s' → P s → P s'

namespace Stable

variable {P : Store → Prop} {records : List BankRecord}

theorem subset {others : List BankRecord} (h : Stable P records) (hsub : others ⊆ records) : Stable P others :=
  ⟨fun r hr => h.bank r (hsub hr), h.posting⟩

theorem preserves {w : Write} (h : Stable P w.records) : w.Preserves P := by
  cases w with
  | bank records => exact h.bank
  | postings postings => exact fun p _ => h.posting p

theorem distinct (records : List BankRecord) : Stable (fun s => (s.bank.map BankRecord.id).Nodup) records := by
  refine ⟨?_, ?_⟩
  · exact fun r _ s hs => nodup_replaceOrAdd hs
  · exact fun p s s' hput hs => Store.putPosting_bank hput ▸ hs

end Stable

/-- A property that everything that is stored preserves holds of a store that is filled with records. -/
theorem Store.ofRecords_preserves {P : Store → Prop} {records : List BankRecord} {postings : List Posting} {s : Store}
    (h : Store.ofRecords records postings = .ok s) (hempty : P {}) (hbank : (Write.bank records).Preserves P)
    (hledger : (Write.postings postings).Preserves P) : P s := by
  obtain ⟨-, -, rfl⟩ := Fallible.map_eq_ok.mp h
  exact hledger.putPostings (hbank.foldl_putBank hempty)

namespace Memory

def under (faults : Option Faults) : Repository Memory :=
  match faults with
  | some f => repository.withFaults f
  | none => repository

theorem under_enter (faults : Option Faults) : (under faults).enter = enter := by
  cases faults <;> rfl

theorem under_leave (faults : Option Faults) : (under faults).leave = leave := by
  cases faults <;> rfl

theorem store_enter (m : Memory) : (enter m).store = m.store := by
  unfold enter
  split <;> rfl

/-- Steps inside the open scopes: none is opened or closed, and a property of the store is kept. -/
structure Keeps (P : Store → Prop) (m m' : Memory) : Prop where
  snapshot : m'.snapshot = m.snapshot
  depth : m'.depth = m.depth
  store : P m.store → P m'.store

section Keeps

variable {P : Store → Prop}

theorem Keeps.refl (m : Memory) : Keeps P m m := ⟨rfl, rfl, id⟩

theorem Keeps.trans {m m' m'' : Memory} (h : Keeps P m m') (h' : Keeps P m' m'') : Keeps P m m'' :=
  ⟨h'.snapshot.trans h.snapshot, h'.depth.trans h.depth, fun hm => h'.store (h.store hm)⟩

theorem save_keeps {w : Write} (h : w.Preserves P) (m : Memory) : Keeps P m (save w m).2 :=
  ⟨rfl, rfl, h.write⟩

theorem saveSingly_keeps {α : Type} (f : Faults) (name : α → String) (failing : List String) {single : α → Write}
    {items : List α} (h : ∀ item ∈ items, (single item).Preserves P) (m : Memory) :
    Keeps P m (repository.saveSingly f name failing single items m).2 := by
  induction items generalizing m with
  | nil => exact Keeps.refl m
  | cons item rest ih =>
      obtain ⟨hitem, hrest⟩ := List.forall_mem_cons.mp h
      unfold Repository.saveSingly
      split
      · exact Keeps.refl m
      · have hkeeps : Keeps P m (repository.save (single item) m).2 := save_keeps hitem m
        cases hsave : repository.save (single item) m with
        | mk outcome m' =>
            rw [hsave] at hkeeps
            cases outcome with
            | ok _ => exact hkeeps.trans (ih hrest m')
            | error failure => exact hkeeps

theorem under_save_keeps (faults : Option Faults) {w : Write} (h : w.Preserves P) (m : Memory) :
    Keeps P m ((under faults).save w m).2 := by
  cases faults with
  | none => exact save_keeps h m
  | some f =>
      cases w with
      | bank records =>
          change Keeps P m (if f.bank.isEmpty then save (.bank records) m
            else repository.saveSingly f BankRecord.id f.bank (fun r => .bank [r]) records m).2
          split
          · exact save_keeps h m
          · exact saveSingly_keeps f _ _ (fun _ => h.one_record) m
      | postings postings =>
          change Keeps P m (if f.postings.isEmpty then save (.postings postings) m
            else repository.saveSingly f Posting.id f.postings (fun p => .postings [p]) postings m).2
          split
          · exact save_keeps h m
          · exact saveSingly_keeps f _ _ (fun _ => h.one_posting) m

theorem saveEach_keeps (faults : Option Faults) {writes : List Write} (h : ∀ w ∈ writes, w.Preserves P)
    (m : Memory) : Keeps P m ((under faults).saveEach writes m).2 := by
  induction writes generalizing m with
  | nil => exact Keeps.refl m
  | cons w rest ih =>
      obtain ⟨hw, hrest⟩ := List.forall_mem_cons.mp h
      have hkeeps := under_save_keeps faults hw m
      unfold Repository.saveEach
      cases hsave : (under faults).save w m with
      | mk outcome m' =>
          rw [hsave] at hkeeps
          cases outcome with
          | ok _ => exact hkeeps.trans (ih hrest m')
          | error failure => exact hkeeps

/-! ### Requests and runs -/

theorem under_query_state (faults : Option Faults) (question : Query) (m : Memory) :
    ((under faults).query question m).2 = m := by
  cases faults with
  | none => rfl
  | some f =>
      simp only [under, Repository.withFaults]
      split
      · rfl
      · rfl

theorem leave_store (failure : Option Failure) {m : Memory} (hstore : P m.store)
    (hsnapshot : m.depth ≤ 1 → P m.snapshot) : P (leave failure m).2.store := by
  unfold leave
  split
  · exact hstore
  · rename_i hdepth
    cases failure with
    | some _ => exact hsnapshot (by omega)
    | none => exact hstore

theorem close_store (faults : Option Faults) {α : Type} (outcome : Except Failure α) {m : Memory} (hstore : P m.store)
    (hsnapshot : m.depth ≤ 1 → P m.snapshot) : P ((under faults).close outcome m).2.store := by
  rw [Repository.close_state, under_leave]
  exact leave_store _ hstore hsnapshot

/-- Whatever fails and is undone, what a scope leaves is reached from what was stored by some of its writes. -/
theorem saveAll_store (faults : Option Faults) {writes : List Write} (h : ∀ w ∈ writes, w.Preserves P)
    {m : Memory} (hm : P m.store) : P ((under faults).answer (.saveAll writes) m).2.store := by
  have hsnapshot : (enter m).depth ≤ 1 → (enter m).snapshot = m.store := by
    unfold enter
    split
    · exact fun _ => rfl
    · intro hdepth
      change m.depth + 1 ≤ 1 at hdepth
      omega
  have hkeeps := saveEach_keeps faults h (enter m)
  change P ((under faults).inScope ((under faults).saveEach writes) m).2.store
  unfold Repository.inScope
  rw [under_enter]
  refine close_store faults _ (hkeeps.store (store_enter m ▸ hm)) fun hdepth => ?_
  rw [hkeeps.depth] at hdepth
  rw [hkeeps.snapshot, hsnapshot hdepth]
  exact hm

theorem answer_store (faults : Option Faults) {request : Request} (h : Stable P request.records) {m : Memory}
    (hm : P m.store) : P ((under faults).answer request m).2.store := by
  cases request with
  | query question =>
      change P ((under faults).query question m).2.store
      rw [under_query_state]
      exact hm
  | save w => exact (under_save_keeps faults h.preserves m).store hm
  | saveAll writes =>
      refine saveAll_store faults (fun w hw => (h.subset fun r hr => ?_).preserves) hm
      exact List.mem_flatMap.mpr ⟨w, hw, hr⟩

/-- **A property that is stable under the records that a run asks to be stored outlives the run.** -/
theorem run_stable (faults : Option Faults) {α : Type} {p : Procedure α} {m : Memory}
    (h : Stable P ((under faults).written p m)) (hm : P m.store) : P ((under faults).run p m).state.store := by
  induction p generalizing m with
  | done outcome => exact hm
  | ask request next ih =>
      refine ih _ (h.subset (List.subset_append_right _ _)) ?_
      exact answer_store faults (h.subset (List.subset_append_left _ _)) hm
  | record event rest ih => exact ih h hm

end Keeps

/-- Ids stay distinct along every run. -/
theorem run_distinct (faults : Option Faults) {α : Type} (p : Procedure α) {m : Memory}
    (hm : (m.store.bank.map BankRecord.id).Nodup) :
    (((under faults).run p m).state.store.bank.map BankRecord.id).Nodup :=
  run_stable faults (Stable.distinct _) hm

/-- A record that is stored after a run was stored before it, or the run has asked to store it. -/
theorem run_bank (faults : Option Faults) {α : Type} (p : Procedure α) (m : Memory) :
    ∀ r ∈ ((under faults).run p m).state.store.bank, r ∈ m.store.bank ∨ r ∈ (under faults).written p m := by
  refine run_stable (P := fun s => ∀ r ∈ s.bank, r ∈ m.store.bank ∨ r ∈ (under faults).written p m) faults ⟨?_, ?_⟩
    fun _ => Or.inl
  · intro w hw s hs r hr
    rcases mem_replaceOrAdd hr with rfl | hr
    · exact Or.inr hw
    · exact hs r hr
  · exact fun p s s' hput hs => Store.putPosting_bank hput ▸ hs

/-- A record that shares its id with none of those that a run asks to store is stored after it as before. -/
theorem run_untouched (faults : Option Faults) {α : Type} {p : Procedure α} {m : Memory} {id : String}
    (h : ∀ w ∈ (under faults).written p m, w.id ≠ id) :
    ((under faults).run p m).state.store.bankRecord? id = m.store.bankRecord? id := by
  refine run_stable (P := fun s => s.bankRecord? id = m.store.bankRecord? id) faults ⟨?_, ?_⟩ rfl
  · exact fun w hw s hs => (find?_replaceOrAdd_of_ne (h w hw)).trans hs
  · intro p s s' hput hs
    rw [← hs, Store.bankRecord?, Store.bankRecord?, Store.putPosting_bank hput]

/-- Where a run asks to store nothing in the place of some records, these are stored after it as before. -/
theorem run_kept (faults : Option Faults) {α : Type} {p : Procedure α} {m : Memory}
    (hm : (m.store.bank.map BankRecord.id).Nodup) {kept : BankRecord → Prop}
    (h : ∀ w ∈ (under faults).written p m, ∃ old ∈ m.store.bank, old.id = w.id ∧ ¬kept old) :
    ∀ r ∈ m.store.bank, kept r → ((under faults).run p m).state.store.bankRecord? r.id = some r := by
  intro r hr hkept
  rw [run_untouched]
  · exact (Store.bankRecord?_iff hm).mpr ⟨hr, rfl⟩
  · intro w hw hid
    obtain ⟨old, hold, holdId, hnot⟩ := h w hw
    obtain rfl := Lookup.eq_of_name hm hold hr (holdId.trans hid)
    exact hnot hkept

/-! ## Questions -/

/-- Questions change nothing, whether they fail or not. -/
theorem run_reads (faults : Option Faults) {α : Type} {p : Procedure α} (h : p.Reads) (m : Memory) :
    ((under faults).run p m).state = m :=
  Repository.run_state_of_reads (under_query_state faults) h m

def Answers (faults : Option Faults) (question : Query) : Prop :=
  ∀ f ∈ faults, f.hitsQuery question = false

section Questions

variable {faults : Option Faults} {question : Query} {α : Type} {f : question.Answer → Procedure α} {m : Memory}

theorem query_eq (h : Answers faults question) (m : Memory) :
    (under faults).query question m = (.ok (m.store.answer question), m) := by
  cases faults with
  | none => rfl
  | some f =>
      have hfine : ¬f.hitsQuery question = true := by simp [h f rfl]
      exact if_neg hfine

theorem effect_query (h : Answers faults question) (m : Memory) :
    (under faults).effect (Procedure.query question) m = (.ok (m.store.answer question), m) :=
  query_eq h m

/-- A question that does not fail is answered by what is stored, and changes nothing. -/
theorem run_answered (h : Answers faults question) :
    (under faults).run (Procedure.query question >>= f) m = (under faults).run (f (m.store.answer question)) m := by
  have hanswer : (under faults).answer (.query question) m = (.ok (m.store.answer question), m) := query_eq h m
  change (under faults).run (.ask (.query question) _) m = _
  rw [Repository.run, hanswer]
  rfl

theorem same_answered (h : Answers faults question) :
    (under faults).Same m (Procedure.query question >>= f) (f (m.store.answer question)) := by
  have hanswer : (under faults).answer (.query question) m = (.ok (m.store.answer question), m) := query_eq h m
  refine ⟨by rw [run_answered h], by rw [run_answered h], ?_⟩
  change (under faults).written (.ask (.query question) _) m = _
  rw [Repository.written, hanswer]
  rfl

theorem answers_of_ok {a : α} (h : ((under faults).run (Procedure.query question >>= f) m).outcome = .ok a) :
    Answers faults question := by
  obtain ⟨given, hgiven, -, -, -⟩ := Repository.run_bind_ok _ h
  change ((under faults).query question m).1 = .ok given at hgiven
  rintro f rfl
  by_contra hhits
  rw [Bool.not_eq_false] at hhits
  simp only [under, Repository.withFaults, if_pos hhits] at hgiven
  cases hgiven

theorem same_query {a : α} (h : ((under faults).run (Procedure.query question >>= f) m).outcome = .ok a) :
    (under faults).Same m (Procedure.query question >>= f) (f (m.store.answer question)) :=
  same_answered (answers_of_ok h)

end Questions

end Memory

end GoalReconciliation

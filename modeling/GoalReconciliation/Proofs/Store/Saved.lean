import GoalReconciliation.Proofs.Store.Memory

/-!
# Saves that succeed

* `saveAll_bank_ok` : a save of records that succeeds stores all of them, one after the other, whatever steps fail
  elsewhere; `saveAll_failed`, `saveAll_bank_cases` : one that fails stores none;
* `saveAll_bank_fine`, `saveAll_postings` : where nothing fails, a save succeeds, one of postings if they have keys;
* `bankRecord?_foldl_putBank` : after that, each id has the saved record of that id, if there is one, and else the
  record that it had;
* `names_foldl_putBank`, `bank_foldl_putBank` : records that take the place of stored ones keep the order of the store,
  and all others stay as they were.
-/

namespace GoalReconciliation

set_option autoImplicit false

/-! ## Several records stored -/

theorem find?_replaceOrAdd_self {α : Type} {name : α → String} (item : α) (items : List α) :
    (replaceOrAdd name item items).find? (fun x => decide (name x = name item)) = some item := by
  induction items with
  | nil => simp [replaceOrAdd]
  | cons old rest ih =>
      unfold replaceOrAdd
      by_cases hold : name old = name item
      · rw [if_pos hold, List.find?_cons_of_pos (by simp)]
      · rw [if_neg hold, List.find?_cons_of_neg (by simpa using hold), ih]

section Items

variable {α : Type} {name : α → String} {item : α} {items : List α}

theorem replaceOrAdd_eq_map (hitems : (items.map name).Nodup) (hname : name item ∈ items.map name) :
    replaceOrAdd name item items = items.map fun x => if name x = name item then item else x := by
  induction items with
  | nil => cases hname
  | cons old rest ih =>
      obtain ⟨hold, hrest⟩ := List.nodup_cons.mp hitems
      unfold replaceOrAdd
      by_cases h : name old = name item
      · have hothers : rest.map (fun x => if name x = name item then item else x) = rest.map id := by
          refine List.map_congr_left fun x hx => if_neg fun e => hold ?_
          rw [h, ← e]
          exact List.mem_map_of_mem hx
        rw [if_pos h, List.map_cons, if_pos h, hothers, List.map_id]
      · have hname' : name item ∈ rest.map name := (List.mem_cons.mp hname).resolve_left fun e => h e.symm
        rw [if_neg h, List.map_cons, if_neg h, ih hrest hname']

theorem foldl_replaceOrAdd {ws : List α} (hitems : (items.map name).Nodup) (hws : (ws.map name).Nodup)
    (hof : ∀ w ∈ ws, name w ∈ items.map name) :
    ws.foldl (fun items w => replaceOrAdd name w items) items =
      items.map fun x => (ws.find? fun w => decide (name w = name x)).getD x := by
  induction ws generalizing items with
  | nil => simp
  | cons w rest ih =>
      obtain ⟨hw, hrest⟩ := List.nodup_cons.mp hws
      obtain ⟨hmem, hof⟩ := List.forall_mem_cons.mp hof
      have hnames : (replaceOrAdd name w items).map name = items.map name := by
        rw [names_replaceOrAdd, if_pos hmem]
      rw [List.foldl_cons, ih (hnames ▸ hitems) hrest fun x hx => hnames ▸ hof x hx, replaceOrAdd_eq_map hitems hmem,
        List.map_map]
      refine List.map_congr_left fun x _ => ?_
      by_cases h : name x = name w
      · have hnone : rest.find? (fun v => decide (name v = name w)) = none :=
          List.find?_eq_none.mpr fun v hv => by
            simpa using fun e : name v = name w => hw (e ▸ List.mem_map_of_mem hv)
        simp [h, hnone]
      · have hne : ¬name w = name x := fun e => h e.symm
        simp [h, hne]

end Items

namespace Store

variable {records : List BankRecord}

/-- Each id has the stored record of that id, if there is one, and else the record that it had. -/
theorem bankRecord?_foldl_putBank (hrecords : (records.map BankRecord.id).Nodup) (s : Store) (id : String) :
    (records.foldl putBank s).bankRecord? id = (records.find? (·.id = id)).or (s.bankRecord? id) := by
  induction records generalizing s with
  | nil => rfl
  | cons r rest ih =>
      obtain ⟨hr, hrest⟩ := List.nodup_cons.mp hrecords
      rw [List.foldl_cons, ih hrest]
      by_cases hid : r.id = id
      · subst hid
        have hnone : rest.find? (fun x => decide (x.id = r.id)) = none :=
          List.find?_eq_none.mpr fun x hx => by
            simpa using fun e : x.id = r.id => hr (e ▸ List.mem_map_of_mem hx)
        rw [hnone, List.find?_cons_of_pos (by simp), Option.none_or, Option.some_or]
        exact find?_replaceOrAdd_self r s.bank
      · rw [List.find?_cons_of_neg (by simpa using hid)]
        exact congrArg _ (find?_replaceOrAdd_of_ne hid)

theorem names_foldl_putBank {s : Store} (hrecords : ∀ r ∈ records, r.id ∈ s.bank.map BankRecord.id) :
    (records.foldl putBank s).bank.map BankRecord.id = s.bank.map BankRecord.id := by
  induction records generalizing s with
  | nil => rfl
  | cons r rest ih =>
      obtain ⟨hr, hrest⟩ := List.forall_mem_cons.mp hrecords
      have hnames : (s.putBank r).bank.map BankRecord.id = s.bank.map BankRecord.id := by
        rw [putBank, names_replaceOrAdd, if_pos hr]
      rw [List.foldl_cons, ih fun x hx => hnames ▸ hrest x hx, hnames]

theorem bank_foldl_putBank {s : Store} (hs : (s.bank.map BankRecord.id).Nodup)
    (hrecords : (records.map BankRecord.id).Nodup) (hof : ∀ r ∈ records, r.id ∈ s.bank.map BankRecord.id) :
    (records.foldl putBank s).bank = s.bank.map fun r => (records.find? fun w => decide (w.id = r.id)).getD r := by
  rw [← foldl_replaceOrAdd hs hrecords hof]
  clear hs hrecords hof
  induction records generalizing s with
  | nil => rfl
  | cons r rest ih => exact ih (s := s.putBank r)

theorem ledger_foldl_putBank (s : Store) : (records.foldl putBank s).ledger = s.ledger := by
  induction records generalizing s with
  | nil => rfl
  | cons r rest ih => exact ih (s.putBank r)

end Store

/-! ## A save -/

namespace Memory

theorem saveSingly_bank_ok {f : Faults} {failing : List String} {records : List BankRecord} {m : Memory}
    (h : (repository.saveSingly f BankRecord.id failing (fun r => .bank [r]) records m).1 = .ok ()) :
    (repository.saveSingly f BankRecord.id failing (fun r => .bank [r]) records m).2 =
      { m with store := records.foldl Store.putBank m.store } := by
  induction records generalizing m with
  | nil => rfl
  | cons r rest ih =>
      rw [Repository.saveSingly] at h ⊢
      split at h
      · cases h
      · rename_i hfine
        rw [if_neg hfine]
        exact ih h

theorem save_bank_ok {faults : Option Faults} {records : List BankRecord} {m : Memory}
    (h : ((under faults).save (.bank records) m).1 = .ok ()) :
    ((under faults).save (.bank records) m).2 = { m with store := records.foldl Store.putBank m.store } := by
  cases faults with
  | none => rfl
  | some f =>
      change (Repository.saveWithFaults repository f (.bank records) m).1 = .ok () at h
      change (Repository.saveWithFaults repository f (.bank records) m).2 = _
      unfold Repository.saveWithFaults at h ⊢
      simp only [] at h ⊢
      split at h
      · rename_i hfine
        rw [if_pos hfine]
        rfl
      · rename_i hfaulty
        rw [if_neg hfaulty]
        exact saveSingly_bank_ok h

/-- A scope that is left without a failure keeps what was stored in it. -/
theorem saveAll_ok {faults : Option Faults} {writes : List Write} {m : Memory}
    (h : ((under faults).answer (.saveAll writes) m).1 = .ok ()) :
    ((under faults).saveEach writes (enter m)).1 = .ok () ∧
      ((under faults).answer (.saveAll writes) m).2.store = ((under faults).saveEach writes (enter m)).2.store := by
  change ((under faults).inScope ((under faults).saveEach writes) m).1 = .ok () at h
  change _ ∧ ((under faults).inScope ((under faults).saveEach writes) m).2.store = _
  unfold Repository.inScope Repository.close at h ⊢
  rw [under_enter, under_leave] at h ⊢
  cases hsaved : (under faults).saveEach writes (enter m) with
  | mk outcome next =>
      rw [hsaved] at h
      cases outcome with
      | ok _ =>
          refine ⟨rfl, ?_⟩
          by_cases hdepth : 1 < next.depth <;> simp [leave, hdepth]
      | error failure => by_cases hdepth : 1 < next.depth <;> simp [leave, hdepth] at h

theorem saveAll_bank_ok {faults : Option Faults} {records : List BankRecord} {m : Memory}
    (h : ((under faults).answer (.saveAll [.bank records]) m).1 = .ok ()) :
    ((under faults).answer (.saveAll [.bank records]) m).2.store = records.foldl Store.putBank m.store := by
  obtain ⟨hsaved, hstore⟩ := saveAll_ok h
  rw [hstore]
  unfold Repository.saveEach at hsaved ⊢
  cases hsave : (under faults).save (.bank records) (enter m) with
  | mk outcome next =>
      rw [hsave] at hsaved
      cases outcome with
      | ok _ =>
          have hnext := save_bank_ok (congrArg Prod.fst hsave)
          rw [hsave, store_enter] at hnext
          exact congrArg Memory.store hnext
      | error failure => cases hsaved

theorem saveAll_postings {postings : List Posting} {m : Memory} {s : Store}
    (h : m.store.putPostings postings = (.ok (), s)) :
    ((under none).answer (.saveAll [.postings postings]) m).1 = .ok () ∧
      ((under none).answer (.saveAll [.postings postings]) m).2.store = s := by
  have hput : m.enter.store.putPostings postings = (.ok (), s) := by rw [store_enter, h]
  have hsave : save (.postings postings) m.enter = (.ok (), { m.enter with store := s }) := by
    rw [save, Store.write, hput]
  have heach : repository.saveEach [.postings postings] m.enter = (.ok (), { m.enter with store := s }) := by
    unfold Repository.saveEach
    have hrepository : repository.save (.postings postings) m.enter = save (.postings postings) m.enter := rfl
    rw [hrepository, hsave]
    rfl
  change (repository.inScope (repository.saveEach [.postings postings]) m).1 = _ ∧
    (repository.inScope (repository.saveEach [.postings postings]) m).2.store = _
  have hscope : repository.inScope (repository.saveEach [.postings postings]) m =
      repository.close (repository.saveEach [.postings postings] m.enter).1
        (repository.saveEach [.postings postings] m.enter).2 := rfl
  obtain ⟨next, hleave, hkept⟩ : ∃ next, repository.leave none { m.enter with store := s } = (none, next) ∧
      next.store = s := by
    change ∃ next, leave none { m.enter with store := s } = _ ∧ _
    unfold leave
    split <;> exact ⟨_, rfl, rfl⟩
  rw [hscope, heach, Repository.close, hleave]
  exact ⟨rfl, hkept⟩

theorem saveAll_bank_fine (records : List BankRecord) (m : Memory) :
    ((under none).answer (.saveAll [.bank records]) m).1 = .ok () ∧
      ((under none).answer (.saveAll [.bank records]) m).2.store = records.foldl Store.putBank m.store := by
  have hfine : ((under none).answer (.saveAll [.bank records]) m).1 = .ok () := by
    change ((under none).inScope ((under none).saveEach [.bank records]) m).1 = .ok ()
    unfold Repository.inScope Repository.close
    rw [under_enter, under_leave]
    by_cases hdepth : 1 < (enter m).depth <;>
      simp [leave, Repository.saveEach, under, repository, save, Store.write, hdepth]
  exact ⟨hfine, saveAll_bank_ok hfine⟩

/-- Several writes at once that fail outside any other scope leave everything as it was. -/
theorem saveAll_failed {faults : Option Faults} {writes : List Write} {m : Memory} (hm : m.depth = 0)
    {failure : Failure} (h : ((under faults).answer (.saveAll writes) m).1 = .error failure) :
    ((under faults).answer (.saveAll writes) m).2.store = m.store := by
  have hkeeps : Keeps (fun _ => True) (enter m) ((under faults).saveEach writes (enter m)).2 :=
    saveEach_keeps faults (fun w _ => w.preserves_true) (enter m)
  have hsnapshot : (enter m).snapshot = m.store ∧ (enter m).depth = 1 := by simp [enter, hm]
  change ((under faults).inScope ((under faults).saveEach writes) m).1 = .error failure at h
  change ((under faults).inScope ((under faults).saveEach writes) m).2.store = m.store
  unfold Repository.inScope Repository.close at h ⊢
  rw [under_enter, under_leave] at h ⊢
  cases hsaved : (under faults).saveEach writes (enter m) with
  | mk outcome next =>
      rw [hsaved] at h hkeeps
      have hkept : next.snapshot = m.store := hkeeps.snapshot.trans hsnapshot.1
      have hdepth : next.depth = 1 := hkeeps.depth.trans hsnapshot.2
      cases outcome with
      | ok _ => simp [leave, hdepth] at h
      | error failure => simp [leave, hdepth, hkept]

/-- A save of records that is no part of another one stores all of them or none. -/
theorem saveAll_bank_cases (faults : Option Faults) (records : List BankRecord) {m : Memory} (hm : m.depth = 0) :
    ((under faults).answer (.saveAll [.bank records]) m).2.store = m.store ∨
      ((under faults).answer (.saveAll [.bank records]) m).2.store = records.foldl Store.putBank m.store := by
  cases hanswer : ((under faults).answer (.saveAll [.bank records]) m).1 with
  | ok _ => exact .inr (saveAll_bank_ok hanswer)
  | error failure => exact .inl (saveAll_failed hm hanswer)

end Memory

end GoalReconciliation

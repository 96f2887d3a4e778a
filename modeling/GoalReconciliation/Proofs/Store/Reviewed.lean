import GoalReconciliation.Proofs.Store.Memory

/-!
# Reviews written in place

* `Store.Sound` : one record and one posting of each id, and a key with each posting; `ofRecords_sound`, `run_sound` :
  so is every store that is filled with records, and every run keeps it so;
* `Store.plain` : a store without its reviews;
* `Reviewed` : what the writing of reviews changes: the reviews of some records and of some keys' postings, and nothing
  else.
-/

namespace GoalReconciliation

set_option autoImplicit false

open Store (keyOf)

/-! ## One item replaced -/

section Items

variable {α β : Type} {name : α → String} {item : α} {items : List α}

theorem map_replaceOrAdd {f : α → β} (hname : name item ∈ items.map name)
    (h : ∀ old ∈ items, name old = name item → f old = f item) :
    (replaceOrAdd name item items).map f = items.map f := by
  induction items with
  | nil => cases hname
  | cons old rest ih =>
      obtain ⟨hold, hrest⟩ := List.forall_mem_cons.mp h
      unfold replaceOrAdd
      split
      · rename_i heq
        rw [List.map_cons, List.map_cons, hold heq]
      · rename_i hne
        have hname' : name item ∈ rest.map name := (List.mem_cons.mp hname).resolve_left fun e => hne e.symm
        rw [List.map_cons, List.map_cons, ih hname' hrest]

/-- Where neither an item nor the one that it replaces is chosen, the chosen items stay as they were. -/
theorem filter_replaceOrAdd {keep : α → Bool} (hitem : keep item = false)
    (h : ∀ old ∈ items, name old = name item → keep old = false) :
    (replaceOrAdd name item items).filter keep = items.filter keep := by
  induction items with
  | nil => simp [replaceOrAdd, hitem]
  | cons old rest ih =>
      obtain ⟨hold, hrest⟩ := List.forall_mem_cons.mp h
      unfold replaceOrAdd
      split
      · rename_i heq
        rw [List.filter_cons_of_neg (by simp [hitem]), List.filter_cons_of_neg (by simp [hold heq])]
      · rw [List.filter_cons, List.filter_cons, ih hrest]

end Items

/-! ## Stores as they are -/

namespace Store

/-- One record and one posting of each id, and a key with each posting. -/
structure Sound (s : Store) : Prop where
  bank_once : (s.bank.map BankRecord.id).Nodup
  ledger_once : (s.ledger.map Posting.id).Nodup
  keyed : ∀ p ∈ s.ledger, p.key = .ok (keyOf p) ∧ p.groupKey = some (keyOf p)

theorem sound_empty : Sound {} where
  bank_once := List.nodup_nil
  ledger_once := List.nodup_nil
  keyed _ hp := absurd hp List.not_mem_nil

end Store

theorem GroupingKey.generate_ne_empty {date accountId goalId sourceId channel key : String}
    (h : GroupingKey.generate date accountId goalId sourceId channel = .ok key) : key ≠ "" := by
  obtain ⟨date, -, h⟩ := Fallible.bind_eq_ok.mp h
  obtain ⟨accountId, -, h⟩ := Fallible.bind_eq_ok.mp h
  obtain ⟨goalId, -, h⟩ := Fallible.bind_eq_ok.mp h
  obtain ⟨sourceId, -, h⟩ := Fallible.bind_eq_ok.mp h
  obtain ⟨channel, -, h⟩ := Fallible.bind_eq_ok.mp h
  obtain rfl := Fallible.pure_eq_ok.mp h
  simp [String.intercalate_cons_cons]

theorem Posting.key_stored {p : Posting} {key : String} (h : p.key = .ok key) :
    { p with groupKey := some key : Posting }.key = .ok key := by
  have hkey : key ≠ "" := by
    unfold Posting.key at h
    split at h
    · split at h
      · exact GroupingKey.generate_ne_empty h
      · rename_i stored hstored hne
        exact Except.ok.inj h ▸ hne
    · exact GroupingKey.generate_ne_empty h
  simp only [Posting.key, if_neg hkey]

namespace Store

variable {s s' : Store}

theorem Sound.putBank (h : s.Sound) (r : BankRecord) : (s.putBank r).Sound :=
  { h with bank_once := nodup_replaceOrAdd h.bank_once }

theorem Sound.putPosting (h : s.Sound) {p : Posting} (hput : s.putPosting p = .ok s') : s'.Sound := by
  obtain ⟨key, hkey, hput⟩ := Fallible.bind_eq_ok.mp hput
  obtain rfl := Fallible.pure_eq_ok.mp hput
  refine { h with ledger_once := nodup_replaceOrAdd h.ledger_once, keyed := fun q hq => ?_ }
  rcases mem_replaceOrAdd hq with rfl | hq
  · exact ⟨Posting.key_stored hkey, rfl⟩
  · exact h.keyed q hq

theorem stable_sound (records : List BankRecord) : Stable Sound records :=
  ⟨fun r _ _ h => h.putBank r, fun _ _ _ hput h => h.putPosting hput⟩

theorem ofRecords_sound {records : List BankRecord} {postings : List Posting}
    (h : Store.ofRecords records postings = .ok s) : s.Sound :=
  ofRecords_preserves h sound_empty (stable_sound records).bank fun p _ => (stable_sound records).posting p

end Store

theorem Memory.run_sound (faults : Option Faults) {α : Type} (p : Procedure α) {m : Memory} (hm : m.store.Sound) :
    ((Memory.under faults).run p m).state.store.Sound :=
  Memory.run_stable faults (Store.stable_sound _) hm

/-! ## Stores without reviews -/

def BankRecord.plain (r : BankRecord) : BankRecord :=
  { r with review := {} }

def Posting.plain (p : Posting) : Posting :=
  { p with review := {} }

namespace Store

def plain (s : Store) : Store :=
  { bank := s.bank.map BankRecord.plain, ledger := s.ledger.map Posting.plain }

variable {s s' : Store}

theorem plain_bank_ids (s : Store) : s.plain.bank.map BankRecord.id = s.bank.map BankRecord.id := List.map_map

theorem plain_ledger_ids (s : Store) : s.plain.ledger.map Posting.id = s.ledger.map Posting.id := List.map_map

theorem plain_mem_bank {r : BankRecord} (hr : r ∈ s.bank) : r.plain ∈ s.plain.bank := List.mem_map_of_mem hr

theorem plain_mem_ledger {p : Posting} (hp : p ∈ s.ledger) : p.plain ∈ s.plain.ledger := List.mem_map_of_mem hp

theorem Sound.of_plain (hs : s.Sound) (h : s'.plain = s.plain) : s'.Sound where
  bank_once := by
    rw [← plain_bank_ids, h, plain_bank_ids]
    exact hs.bank_once
  ledger_once := by
    rw [← plain_ledger_ids, h, plain_ledger_ids]
    exact hs.ledger_once
  keyed p hp := by
    have hmem := plain_mem_ledger hp
    rw [h] at hmem
    obtain ⟨q, hq, hsame⟩ := List.mem_map.mp hmem
    have hkeyed := hs.keyed q hq
    change q.plain.key = .ok (keyOf q.plain) ∧ q.plain.groupKey = some (keyOf q.plain) at hkeyed
    rwa [hsame] at hkeyed

/-- A record that agrees with a stored one, up to the review, does so with every stored one of its id. -/
theorem Sound.bank_plain (hs : s.Sound) {r old : BankRecord} (hr : r.plain ∈ s.plain.bank) (hold : old ∈ s.bank)
    (hid : old.id = r.id) : old.plain = r.plain := by
  have honce : (s.plain.bank.map BankRecord.id).Nodup := by
    rw [plain_bank_ids]
    exact hs.bank_once
  exact Lookup.eq_of_name honce (plain_mem_bank hold) hr hid

theorem Sound.ledger_plain (hs : s.Sound) {p old : Posting} (hp : p.plain ∈ s.plain.ledger) (hold : old ∈ s.ledger)
    (hid : old.id = p.id) : old.plain = p.plain := by
  have honce : (s.plain.ledger.map Posting.id).Nodup := by
    rw [plain_ledger_ids]
    exact hs.ledger_once
  exact Lookup.eq_of_name honce (plain_mem_ledger hold) hp hid

end Store

/-! ## What is reviewed -/

/-- The stores differ in reviews only, and not in those of the records and the keys that are kept. -/
structure Reviewed (keepRecord keepKey : String → Bool) (s s' : Store) : Prop where
  plain : s'.plain = s.plain
  bank : s'.bank.filter (fun r => keepRecord r.id) = s.bank.filter fun r => keepRecord r.id
  ledger : s'.ledger.filter (fun p => keepKey (keyOf p)) = s.ledger.filter fun p => keepKey (keyOf p)

namespace Reviewed

variable {keepRecord keepKey : String → Bool} {s s' s'' : Store}

theorem refl (s : Store) : Reviewed keepRecord keepKey s s := ⟨rfl, rfl, rfl⟩

theorem trans (h : Reviewed keepRecord keepKey s s') (h' : Reviewed keepRecord keepKey s' s'') :
    Reviewed keepRecord keepKey s s'' :=
  ⟨h'.plain.trans h.plain, h'.bank.trans h.bank, h'.ledger.trans h.ledger⟩

theorem putBank (hs : s.Sound) {r : BankRecord} (hr : r.plain ∈ s.plain.bank) (hkeep : keepRecord r.id = false) :
    Reviewed keepRecord keepKey s (s.putBank r) where
  plain := by
    have hname : r.id ∈ s.bank.map BankRecord.id := by
      rw [← Store.plain_bank_ids]
      exact List.mem_map.mpr ⟨r.plain, hr, rfl⟩
    have hold : ∀ old ∈ s.bank, old.id = r.id → old.plain = r.plain := fun _ => hs.bank_plain hr
    rw [Store.plain, Store.plain, Store.putBank, map_replaceOrAdd hname hold]
  bank := filter_replaceOrAdd hkeep fun _ _ hid => hid ▸ hkeep
  ledger := rfl

theorem putPosting (hs : s.Sound) {p : Posting} (hp : p.plain ∈ s.plain.ledger) (hkeep : keepKey (keyOf p) = false)
    (hput : s.putPosting p = .ok s') : Reviewed keepRecord keepKey s s' := by
  obtain ⟨key, hkey, hput⟩ := Fallible.bind_eq_ok.mp hput
  obtain rfl := Fallible.pure_eq_ok.mp hput
  obtain ⟨q, hq, hsame⟩ := List.mem_map.mp hp
  -- The key that is stored with the posting is the one that it has.
  have hkeyed : p.key = .ok (keyOf p) ∧ p.groupKey = some (keyOf p) := by
    have hkeyed := hs.keyed q hq
    change q.plain.key = .ok (keyOf q.plain) ∧ q.plain.groupKey = some (keyOf q.plain) at hkeyed
    rwa [hsame] at hkeyed
  obtain rfl := Except.ok.inj (hkeyed.1.symm.trans hkey)
  have hitem : { p with groupKey := some (keyOf p) : Posting } = p := by rw [← hkeyed.2]
  rw [hitem]
  have hold : ∀ old ∈ s.ledger, old.id = p.id → old.plain = p.plain := fun _ => hs.ledger_plain hp
  refine { plain := ?_, bank := rfl, ledger := filter_replaceOrAdd hkeep fun old hmem hid => ?_ }
  · have hname : p.id ∈ s.ledger.map Posting.id := by
      rw [← Store.plain_ledger_ids]
      exact List.mem_map.mpr ⟨p.plain, hp, rfl⟩
    rw [Store.plain, Store.plain, map_replaceOrAdd hname hold]
  · have hkeys : keyOf old.plain = keyOf p.plain := congrArg keyOf (hold old hmem hid)
    exact (congrArg keepKey hkeys).trans hkeep

end Reviewed

end GoalReconciliation

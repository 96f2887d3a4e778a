import GoalReconciliation.Proofs.Store.Saved
import GoalReconciliation.Proofs.Store.Tables

/-!
# One write to a store and to a database

* `Store.Fits` : a store whose records have rows, with the prices that its records had from the start;
* `Write.Twin` : a write, and what becomes of it where records are read from rows, possibly in another order;
* `Fits.putBanks`, `Fits.putPosting` : records that fit are stored, and leave such a store;
* `Fine.put` : a write and its twin succeed on tables that read as the store;
* `Database.Mirrors` : a database whose tables read as a store, with nothing open;
* `Mirrors.save`, `Mirrors.saveAll` : **a write and its twin succeed, and the tables read as the store again**.
-/

namespace GoalReconciliation

set_option autoImplicit false

/-! ## Stores that rows can hold -/

def BankRecord.price (r : BankRecord) : String × Decimal :=
  (r.id, r.amount)

/-- Every record has a row, and the price that it had from the start. -/
structure Store.Fits (prices : List (String × Decimal)) (s : Store) : Prop where
  sound : s.Sound
  bank : ∀ r ∈ s.bank, r.FitsRow
  ledger : ∀ p ∈ s.ledger, p.FitsRow
  prices : s.bank.map BankRecord.price = prices

theorem Store.Fits.of_mem {prices : List (String × Decimal)} {s : Store} (h : s.Fits prices) {r : BankRecord}
    (hr : r ∈ s.bank) : r.FitsRow ∧ r.price ∈ prices :=
  ⟨h.bank r hr, h.prices ▸ List.mem_map_of_mem hr⟩

/-- A write, and what becomes of it where records are read from rows, possibly in another order. -/
inductive Write.Twin (prices : List (String × Decimal)) : Write → Write → Prop
  | bank {records others : List BankRecord}
      (hsame : others = records ∨ (records.map BankRecord.id).Nodup ∧ others.Perm records)
      (hfits : ∀ r ∈ records, r.FitsRow ∧ r.price ∈ prices) :
      Twin prices (.bank records) (.bank (others.map BankRecord.reread))
  | postings {ps : List Posting} (hfits : ∀ p ∈ ps, p.FitsRow) :
      Twin prices (.postings ps) (.postings (ps.map Posting.reread))

variable {prices : List (String × Decimal)}

/-! ## One write -/

section Items

variable {α : Type} {name : α → String}

theorem replaceOrAdd_map {f : α → α} (hname : ∀ x, name (f x) = name x) (item : α) (items : List α) :
    (replaceOrAdd name item items).map f = replaceOrAdd name (f item) (items.map f) := by
  induction items with
  | nil => rfl
  | cons old rest ih =>
      rw [List.map_cons, replaceOrAdd, replaceOrAdd, hname, hname]
      split
      · rfl
      · rw [List.map_cons, ih]

end Items

namespace Store

variable {s : Store}

theorem reread_putBank (s : Store) (r : BankRecord) : (s.putBank r).reread = s.reread.putBank r.reread :=
  congrArg (fun bank => (⟨bank, s.reread.ledger⟩ : Store))
    (replaceOrAdd_map (f := BankRecord.reread) (fun _ => rfl) r s.bank)

theorem Fits.putBank (h : s.Fits prices) {r : BankRecord} (hr : r.FitsRow) (hprice : r.price ∈ prices) :
    (s.putBank r).Fits prices where
  sound := h.sound.putBank r
  bank := fun w hw => by
    rcases mem_replaceOrAdd hw with rfl | hw
    · exact hr
    · exact h.bank w hw
  ledger := h.ledger
  prices := by
    rw [← h.prices] at hprice ⊢
    obtain ⟨old, hold, hsame⟩ := List.mem_map.mp hprice
    obtain ⟨hid, -⟩ := Prod.mk.inj hsame
    refine map_replaceOrAdd (List.mem_map.mpr ⟨old, hold, hid⟩) fun other hother hname => ?_
    rw [← hsame, Lookup.eq_of_name h.sound.bank_once hother hold (hname.trans hid.symm)]

theorem Fits.putBanks (h : s.Fits prices) {records : List BankRecord}
    (hfits : ∀ r ∈ records, r.FitsRow ∧ r.price ∈ prices) : (records.foldl Store.putBank s).Fits prices := by
  induction records generalizing s with
  | nil => exact h
  | cons r rest ih =>
      obtain ⟨⟨hr, hprice⟩, hrest⟩ := List.forall_mem_cons.mp hfits
      exact ih (h.putBank hr hprice) hrest

theorem Fits.stored (h : s.Fits prices) {r : BankRecord} (hprice : r.price ∈ prices) :
    r.id ∈ s.bank.map BankRecord.id := by
  rw [← h.prices] at hprice
  obtain ⟨old, hold, hsame⟩ := List.mem_map.mp hprice
  exact List.mem_map.mpr ⟨old, hold, (Prod.mk.inj hsame).1⟩

/-- Records that take the places of stored ones do so in any order. -/
theorem foldl_putBank_perm {records others : List BankRecord} (hs : (s.bank.map BankRecord.id).Nodup)
    (hrecords : (records.map BankRecord.id).Nodup) (hof : ∀ r ∈ records, r.id ∈ s.bank.map BankRecord.id)
    (hperm : others.Perm records) : others.foldl putBank s = records.foldl putBank s := by
  have hothers : (others.map BankRecord.id).Nodup := (hperm.map _).nodup_iff.mpr hrecords
  have hfind : ∀ id : String, others.find? (fun w => decide (w.id = id)) = records.find? fun w => decide (w.id = id) :=
    fun id => Option.ext fun w => by
      rw [Lookup.find?_eq_some_iff hothers, Lookup.find?_eq_some_iff hrecords, hperm.mem_iff]
  have hbank : (others.foldl putBank s).bank = (records.foldl putBank s).bank := by
    rw [bank_foldl_putBank hs hothers fun r hr => hof r (hperm.subset hr), bank_foldl_putBank hs hrecords hof]
    simp only [hfind]
  have hledger : (others.foldl putBank s).ledger = (records.foldl putBank s).ledger := by
    rw [ledger_foldl_putBank, ledger_foldl_putBank]
  exact Store.mk.injEq .. ▸ ⟨hbank, hledger⟩

theorem Fits.putPosting (h : s.Fits prices) {p : Posting} (hp : p.FitsRow) :
    ∃ s', s.putPosting p = .ok s' ∧ s'.Fits prices ∧ s.reread.putPosting p.reread = .ok s'.reread := by
  obtain ⟨key, hkey⟩ := hp.keyed
  have hput : s.putPosting p =
      .ok { s with ledger := replaceOrAdd Posting.id { p with groupKey := some key } s.ledger } := by
    rw [Store.putPosting, hkey]
    rfl
  refine ⟨_, hput, { h with sound := h.sound.putPosting hput, ledger := fun q hq => ?_ }, ?_⟩
  · rcases mem_replaceOrAdd hq with rfl | hq
    · exact ⟨hp.givenInstrument, hp.givenType, key, Posting.key_stored hkey⟩
    · exact h.ledger q hq
  · have hreread : p.reread.key = .ok key := hkey
    rw [Store.putPosting, hreread]
    exact congrArg (fun ledger => Except.ok (⟨s.reread.bank, ledger⟩ : Store))
      (replaceOrAdd_map (f := Posting.reread) (fun _ => rfl) { p with groupKey := some key } s.ledger).symm

end Store

/-! ## A database in use -/

theorem Repository.inScope_ok {σ α : Type} {repo : Repository σ} {steps : σ → Except Failure α × σ} {s inner last : σ}
    {a : α} (hsteps : steps (repo.enter s) = (.ok a, inner)) (hleave : repo.leave none inner = (none, last)) :
    repo.inScope steps s = (.ok a, last) := by
  unfold Repository.inScope
  rw [hsteps]
  simp only [Repository.close, hleave]

namespace Database

/-- Nothing is lost in the columns, and no call fails. -/
structure Fine (db : Database) : Prop where
  columns : db.columns = .faithful
  outages : db.outages = []

variable {db : Database} {s : Store}

theorem Fine.use (h : db.Fine) (call : Call) : db.use call = (true, { db with calls := call :: db.calls }) := by
  simp [Database.use, h.outages]

theorem Fine.useTimes (h : db.Fine) (call : Call) (count : Nat) :
    ∃ calls, db.useTimes call count = (true, { db with calls := calls }) := by
  induction count generalizing db with
  | zero => exact ⟨db.calls, rfl⟩
  | succ count ih =>
      have hused : Fine { db with calls := call :: db.calls } := ⟨h.columns, h.outages⟩
      obtain ⟨calls, hcalls⟩ := ih hused
      exact ⟨calls, by rw [Database.useTimes, h.use]; exact hcalls⟩

theorem Fine.putBanks (h : db.Fine) (hholds : db.working.Holds s.reread) {records : List BankRecord}
    (hfits : ∀ r ∈ records, r.FitsRow) (fault : StorageFault) :
    ∃ t calls, db.putEach (Tables.putBank .faithful) fault (records.map BankRecord.reread) =
        (.ok (), { db with working := t, calls := calls }) ∧
      t.Holds (records.foldl Store.putBank s).reread := by
  induction records generalizing db s with
  | nil => exact ⟨db.working, db.calls, rfl, hholds⟩
  | cons r rest ih =>
      obtain ⟨hr, hrest⟩ := List.forall_mem_cons.mp hfits
      obtain ⟨t, hput, ht⟩ := hholds.putBank (BankRecord.fitsRow_reread hr)
      rw [BankRecord.reread_reread, ← Store.reread_putBank] at ht
      have hused : Fine { db with working := t, calls := .get :: db.calls } := ⟨h.columns, h.outages⟩
      obtain ⟨t', calls, hputs, ht'⟩ := ih hused ht hrest
      refine ⟨t', calls, ?_, ht'⟩
      rw [List.map_cons, Database.putEach, h.use]
      simp only [hput]
      exact hputs

theorem Fine.putPostings (h : db.Fine) (hs : s.Fits prices) (hholds : db.working.Holds s.reread) {ps : List Posting}
    (hfits : ∀ p ∈ ps, p.FitsRow) (fault : StorageFault) :
    ∃ t calls s', db.putEach (Tables.putPosting .faithful) fault (ps.map Posting.reread) =
        (.ok (), { db with working := t, calls := calls }) ∧
      s.putPostings ps = (.ok (), s') ∧ s'.Fits prices ∧ t.Holds s'.reread := by
  induction ps generalizing db s with
  | nil => exact ⟨db.working, db.calls, s, rfl, rfl, hs, hholds⟩
  | cons p rest ih =>
      obtain ⟨hp, hrest⟩ := List.forall_mem_cons.mp hfits
      obtain ⟨t, stored, hput, hstored, ht⟩ := hholds.putPosting (Posting.fitsRow_reread hp)
      obtain ⟨s', hs', hfits', hreread⟩ := hs.putPosting hp
      rw [Posting.reread_reread, hreread] at hstored
      obtain rfl := Except.ok.inj hstored
      have hused : Fine { db with working := t, calls := .get :: db.calls } := ⟨h.columns, h.outages⟩
      obtain ⟨t', calls, last, hputs, hlast, hfit, ht'⟩ := ih hused hfits' ht hrest
      refine ⟨t', calls, last, ?_, ?_, hfit, ht'⟩
      · rw [List.map_cons, Database.putEach, h.use]
        simp only [hput]
        exact hputs
      · rw [Store.putPostings, hs']
        exact hlast

theorem Fine.leave (h : db.Fine) (hdepth : db.depth = 1) :
    repository.leave none db =
      (none, { db with committed := db.working, depth := 0, calls := .commit :: db.calls }) := by
  have hclosed : Fine { db with depth := 0 } := ⟨h.columns, h.outages⟩
  change Database.leave none db = _
  unfold Database.leave
  rw [if_neg (by omega)]
  simp only [hclosed.use]

theorem Fine.put (h : db.Fine) (hs : s.Fits prices) (hholds : db.working.Holds s.reread) {w twin : Write}
    (hw : w.Twin prices twin) :
    ∃ t calls s', db.put twin = (.ok (), { db with working := t, calls := calls }) ∧
      s.write w = (.ok (), s') ∧ s'.Fits prices ∧ t.Holds s'.reread := by
  cases hw with
  | @bank records others hsame hfits =>
      have hothers : ∀ r ∈ others, r.FitsRow := by
        rcases hsame with rfl | ⟨-, hperm⟩
        · exact fun r hr => (hfits r hr).1
        · exact fun r hr => (hfits r (hperm.subset hr)).1
      have hstores : others.foldl Store.putBank s = records.foldl Store.putBank s := by
        rcases hsame with rfl | ⟨honce, hperm⟩
        · rfl
        · exact Store.foldl_putBank_perm hs.sound.bank_once honce (fun r hr => hs.stored (hfits r hr).2) hperm
      obtain ⟨t, calls, hput, ht⟩ := h.putBanks hholds hothers (.saveBank lost)
      refine ⟨t, calls, records.foldl Store.putBank s, ?_, rfl, hs.putBanks hfits, hstores ▸ ht⟩
      simpa only [Database.put, h.columns] using hput
  | postings hfits =>
      obtain ⟨t, calls, s', hput, hwrite, hfit, ht⟩ := h.putPostings hs hholds hfits (.savePostings lost)
      refine ⟨t, calls, s', ?_, hwrite, hfit, ht⟩
      simpa only [Database.put, h.columns] using hput

theorem Fine.saveEach (h : db.Fine) (hdepth : db.depth ≠ 0) {m : Memory} (hs : m.store.Fits prices)
    (hholds : db.working.Holds m.store.reread) {writes twins : List Write}
    (hwrites : List.Forall₂ (Write.Twin prices) writes twins) :
    ∃ t calls s', repository.saveEach twins db = (.ok (), { db with working := t, calls := calls }) ∧
      Memory.repository.saveEach writes m = (.ok (), { m with store := s' }) ∧ s'.Fits prices ∧
      t.Holds s'.reread := by
  induction hwrites generalizing db m with
  | nil => exact ⟨db.working, db.calls, m.store, rfl, rfl, hs, hholds⟩
  | @cons w twin writes twins hw _ ih =>
      obtain ⟨t, calls, s', hput, hwrite, hfit, ht⟩ := h.put hs hholds hw
      have hused : Fine { db with working := t, calls := .flush :: calls } := ⟨h.columns, h.outages⟩
      let m' : Memory := { m with store := s' }
      obtain ⟨t', calls', last, htwins, hlast, hfit', ht'⟩ := ih hused hdepth (show m'.store.Fits prices from hfit) ht
      have hflushed : Fine { db with working := t, calls := calls } := ⟨h.columns, h.outages⟩
      have hsave : repository.save twin db = (.ok (), { db with working := t, calls := .flush :: calls }) := by
        change Database.save twin db = _
        rw [Database.save, hput]
        simp only [if_neg hdepth, hflushed.use]
      have hstore : Memory.repository.save w m = (.ok (), { m with store := s' }) := by
        change Memory.save w m = _
        rw [Memory.save, hwrite]
      refine ⟨t', calls', last, ?_, ?_, hfit', ht'⟩
      · rw [Repository.saveEach, hsave]
        exact htwins
      · rw [Repository.saveEach, hstore]
        exact hlast

/-! ## A database beside a store -/

/-- The tables read as the store, with nothing open on either side. -/
structure Mirrors (prices : List (String × Decimal)) (db : Database) (m : Memory) : Prop where
  fine : db.Fine
  settled : db.working = db.committed
  idle : db.depth = 0
  free : m.depth = 0
  fits : m.store.Fits prices
  holds : db.working.Holds m.store.reread

namespace Mirrors

variable {m : Memory} (h : db.Mirrors prices m)

include h

/-- **What the tables answer.** -/
theorem query {question : Query} (hquestion : question.Sized) :
    ∃ db', repository.answer (.query question) db = (.ok (question.reread (m.store.answer question)), db') ∧
      db'.Mirrors prices m := by
  obtain ⟨calls, hcalls⟩ := h.fine.useTimes .execute (callCount question)
  refine ⟨{ db with calls := calls }, ?_, { h with fine := ⟨h.fine.columns, h.fine.outages⟩ }⟩
  have hids : (m.store.reread.bank.map BankRecord.id).Nodup := by
    rw [Store.reread_ids]
    exact h.fits.sound.bank_once
  change Database.query question db = _
  rw [Database.query, hcalls]
  change (db.working.answer question, _) = _
  rw [Tables.answer_eq h.holds hids hquestion, Store.answer_reread]
  rfl

/-- **A write and its twin.** -/
theorem save {w twin : Write} (hw : w.Twin prices twin) :
    ∃ db' m', repository.answer (.save twin) db = (.ok (), db') ∧
      Memory.repository.answer (.save w) m = (.ok (), m') ∧ db'.Mirrors prices m' := by
  obtain ⟨t, calls, s', hput, hwrite, hfit, ht⟩ := h.fine.put h.fits h.holds hw
  have hfine : Fine { db with working := t, calls := calls } := ⟨h.fine.columns, h.fine.outages⟩
  refine ⟨{ db with working := t, committed := t, calls := .commit :: calls }, { m with store := s' }, ?_, ?_,
    ⟨h.fine.columns, h.fine.outages⟩, rfl, h.idle, h.free, hfit, ht⟩
  · change Database.save twin db = _
    rw [Database.save, hput]
    simp only [if_pos h.idle, hfine.use]
    rfl
  · change Memory.save w m = _
    rw [Memory.save, hwrite]
    rfl

/-- **Writes and their twins, all or none.** -/
theorem saveAll {writes twins : List Write} (hwrites : List.Forall₂ (Write.Twin prices) writes twins) :
    ∃ db' m', repository.answer (.saveAll twins) db = (.ok (), db') ∧
      Memory.repository.answer (.saveAll writes) m = (.ok (), m') ∧ db'.Mirrors prices m' := by
  have hopened : Fine db.enter := ⟨h.fine.columns, h.fine.outages⟩
  have hdepth : db.enter.depth ≠ 0 := Nat.succ_ne_zero _
  have hstore : m.enter.store = m.store := Memory.store_enter m
  obtain ⟨t, calls, s', hsaves, hwrites, hfit, ht⟩ :=
    hopened.saveEach hdepth (m := m.enter) (hstore ▸ h.fits) (hstore ▸ h.holds) hwrites
  refine ⟨{ db with working := t, committed := t, calls := .commit :: calls, depth := 0 },
    { m.enter with store := s', depth := 0 }, ?_, ?_, ⟨h.fine.columns, h.fine.outages⟩, rfl, rfl, rfl, hfit, ht⟩
  · have hone : db.enter.depth = 1 := congrArg (· + 1) h.idle
    exact Repository.inScope_ok hsaves (Fine.leave ⟨h.fine.columns, h.fine.outages⟩ hone)
  · have hone : ¬1 < m.enter.depth := by simp [Memory.enter, h.free]
    have hleave : Memory.repository.leave none { m.enter with store := s' } =
        (none, { m.enter with store := s', depth := 0 }) := if_neg hone
    exact Repository.inScope_ok hwrites hleave

end Mirrors

end Database

end GoalReconciliation

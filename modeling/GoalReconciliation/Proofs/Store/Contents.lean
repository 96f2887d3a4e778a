import GoalReconciliation.Proofs.Store.Twins

/-!
# What is stored on both sides

* `BankRecord.Same`, `Posting.Same`, `Store.Same` : records with the same fields and the same amounts, in whichever
  order the amounts are listed and whichever form a zero has;
* `Store.Fits.same` : a store whose records have rows is the same as it is read again;
* `Mirrors.contents`, `Mirrors.reconnect` : what is committed reads as the store, and a new connection sees it;
* `ofRecords_mirrors` : **of the same records, a store and a database can both be made that mirror each other, or
  neither can**.
-/

namespace GoalReconciliation

set_option autoImplicit false

open Fallible (Alike mapM_eq_ok)

/-! ## The same records -/

/-- The same record, with the same amount for each instrument. -/
structure BankRecord.Same (r other : BankRecord) : Prop where
  amounts : ∀ code, Assoc.get? code other.givenInstruments = Assoc.get? code r.givenInstruments
  fields : { other with givenInstruments := r.givenInstruments } = r

/-- The same posting; units of zero may be written in another form. -/
structure Posting.Same (p other : Posting) : Prop where
  units : other.units = p.units ∨ other.units.isZero = true ∧ p.units.isZero = true
  fields : { other with units := p.units } = p

structure Store.Same (s other : Store) : Prop where
  bank : List.Forall₂ BankRecord.Same s.bank other.bank
  ledger : List.Forall₂ Posting.Same s.ledger other.ledger

variable {prices : List (String × Decimal)}

theorem BankRecord.same_reread {r : BankRecord}
    (hwords : ∀ entry ∈ r.givenInstruments, ∃ code, entry.1 = .word code) : r.Same r.reread where
  amounts := GivenAmounts.get?_reread_of_words hwords
  fields := rfl

theorem Posting.same_reread (p : Posting) : p.Same p.reread where
  units := by
    change (if p.units.isZero then Decimal.zero else p.units) = p.units ∨
      (if p.units.isZero then Decimal.zero else p.units).isZero = true ∧ p.units.isZero = true
    split
    · rename_i hzero
      exact .inr ⟨rfl, hzero⟩
    · exact .inl rfl
  fields := rfl

theorem Store.Fits.same {s : Store} (h : s.Fits prices) : s.Same s.reread where
  bank := List.forall₂_map_right_iff.mpr (List.forall₂_same.mpr fun r hr =>
    BankRecord.same_reread (h.bank r hr).instruments.words)
  ledger := List.forall₂_map_right_iff.mpr (List.forall₂_same.mpr fun p _ => p.same_reread)

/-! ## What is committed -/

namespace Database.Mirrors

variable {db : Database} {m : Memory} (h : db.Mirrors prices m)

include h

theorem contents : db.contents = .ok m.store.reread := by
  have hbank : db.working.bank.mapM BankRow.toRecord = .ok m.store.reread.bank := mapM_eq_ok.mpr h.holds.bank
  have hledger : db.working.ledger.mapM PostingRow.toPosting = .ok m.store.reread.ledger :=
    mapM_eq_ok.mpr h.holds.ledger
  rw [Database.contents, ← h.settled, hbank, hledger]
  rfl

theorem reconnect : db.reconnect.Mirrors prices m where
  fine := ⟨h.fine.columns, h.fine.outages⟩
  settled := rfl
  idle := rfl
  free := h.free
  fits := h.fits
  holds := by
    have hholds := h.holds
    rwa [h.settled] at hholds

end Database.Mirrors

/-! ## In the beginning -/

structure Posting.Known (p : Posting) : Prop where
  givenInstrument : ∃ word, p.givenInstrument = .word word
  givenType : ∃ word, p.givenType = .word word

/-- A store whose records have rows, and tables that read as it. -/
structure Tables.Loaded (s : Store) (t : Tables) : Prop where
  fits : s.Fits (s.bank.map BankRecord.price)
  holds : t.Holds s.reread

namespace Tables

variable {s : Store} {t : Tables}

theorem loaded_empty : Loaded {} {} where
  fits := ⟨Store.sound_empty, fun _ h => absurd h List.not_mem_nil, fun _ h => absurd h List.not_mem_nil, rfl⟩
  holds := holds_empty

theorem Loaded.putBanks (h : Loaded s t) {records : List BankRecord} (hrecords : ∀ r ∈ records, r.FitsRow) :
    ∃ t', records.foldlM (putBank .faithful) t = .ok t' ∧ Loaded (records.foldl Store.putBank s) t' := by
  induction records generalizing s t with
  | nil => exact ⟨t, rfl, h⟩
  | cons r rest ih =>
      obtain ⟨hr, hrest⟩ := List.forall_mem_cons.mp hrecords
      obtain ⟨t', hput, ht'⟩ := h.holds.putBank hr
      rw [← Store.reread_putBank] at ht'
      have hfits : (s.putBank r).Fits ((s.putBank r).bank.map BankRecord.price) :=
        { sound := h.fits.sound.putBank r
          bank := fun w hw => (mem_replaceOrAdd hw).elim (· ▸ hr) (h.fits.bank w)
          ledger := h.fits.ledger
          prices := rfl }
      obtain ⟨last, hlast, hloaded⟩ := ih ⟨hfits, ht'⟩ hrest
      exact ⟨last, by rw [List.foldlM_cons, hput]; exact hlast, hloaded⟩

theorem putPosting_unkeyed {p : Posting} (hp : p.Known) {problem : Problem} (hkey : p.key = .error problem) :
    t.putPosting .faithful p = .error (.invalid problem) ∧ s.putPosting p = .error problem := by
  obtain ⟨instrument, hinstrument⟩ := hp.givenInstrument
  obtain ⟨word, hword⟩ := hp.givenType
  constructor
  · simp only [putPosting, PostingRow.apply, hinstrument, hword, hkey]
    rfl
  · rw [Store.putPosting, hkey]
    rfl

theorem Loaded.putPostings (h : Loaded s t) {postings : List Posting} (hpostings : ∀ p ∈ postings, p.Known) :
    Alike Loaded ((s.putPostings postings).1.map fun _ => (s.putPostings postings).2)
      (postings.foldlM (putPosting .faithful) t) := by
  induction postings generalizing s t with
  | nil => exact .ok h
  | cons p rest ih =>
      obtain ⟨hp, hrest⟩ := List.forall_mem_cons.mp hpostings
      rw [Store.putPostings, List.foldlM_cons]
      cases hkey : p.key with
      | error problem =>
          obtain ⟨hput, hstored⟩ := putPosting_unkeyed (s := s) (t := t) hp hkey
          rw [hput, hstored]
          exact .error _
      | ok key =>
          have hfits : p.FitsRow := ⟨hp.givenInstrument, hp.givenType, key, hkey⟩
          obtain ⟨t', stored, hput, hstored, ht'⟩ := h.holds.putPosting hfits
          obtain ⟨s', hs', hfits', hreread⟩ := h.fits.putPosting hfits
          rw [hreread] at hstored
          obtain rfl := Except.ok.inj hstored
          rw [hput, hs']
          exact ih ⟨hfits'.prices ▸ hfits', ht'⟩ hrest

end Tables

/-- **Of the same records, a store and a database that mirrors it can be made, or neither can.** -/
theorem ofRecords_mirrors {records : List BankRecord} (hrecords : ∀ r ∈ records, r.FitsRow) {postings : List Posting}
    (hpostings : ∀ p ∈ postings, p.Known) :
    Alike (fun s db => db.Mirrors (s.bank.map BankRecord.price) (.ofStore s)) (Store.ofRecords records postings)
      (Database.ofRecords .faithful records postings) := by
  obtain ⟨t, hput, hloaded⟩ := Tables.loaded_empty.putBanks hrecords
  rw [Database.ofRecords, hput]
  refine (hloaded.putPostings hpostings).and_then fun s t h => ?_
  exact { fine := ⟨rfl, rfl⟩, settled := rfl, idle := rfl, free := rfl, fits := h.fits, holds := h.holds }

end GoalReconciliation

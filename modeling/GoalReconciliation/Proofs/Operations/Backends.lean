import Mathlib
import GoalReconciliation.Proofs.Operations.Served
import GoalReconciliation.Proofs.Run.Batches
import GoalReconciliation.Proofs.Store.Contents
import GoalReconciliation.Session.Step

/-!
# Calls on a store and on a database

* `BankRecord.WellFormed`, `Posting.WellFormed` : the records that both can be made of; `BankRecord.Attributed` : their
  links name who made them;
* `Backend.perform`, `Backend.history` : one call on a connection of its own, and what several calls come to;
* `Performed.Agrees` : one call came to the same on both sides;
* `perform_agrees` : what one call does on a store and on a database that mirrors it;
* `backends_agree` : **of the same records, and under the same calls, a store and a database give the same results, the
  same failures, the same events and the same records**;
* `backends_differ` : where the sums of selected amounts depend on their order, where a link does not name its maker,
  and in the order of events where several runs are under way, they differ.
-/

namespace GoalReconciliation

set_option autoImplicit false

open Fallible (Alike)

/-! ## Records -/

structure BankRecord.WellFormed (r : BankRecord) : Prop where
  givenType : ∃ word, r.givenType = .word word
  instruments : r.givenInstruments.Plain
  amount : r.amount.isFinite = true
  named : r.id ≠ ""

/-- The links of a record name who made them, and the partner. -/
structure BankRecord.Attributed (r : BankRecord) : Prop where
  creator : ∀ link ∈ r.reference, link.createdBy ≠ ""
  partner : ∀ link ∈ r.reversal, link.partnerId ≠ "" ∧ link.linkedBy ≠ ""

structure Posting.WellFormed (p : Posting) : Prop extends p.Known where
  amount : p.amount.isFinite = true
  named : p.id ≠ ""

theorem BankRecord.WellFormed.fitsRow {r : BankRecord} (h : r.WellFormed) (hlinks : r.Attributed) : r.FitsRow :=
  ⟨h.givenType, h.instruments, hlinks.creator, hlinks.partner⟩

/-! ## Calls -/

namespace Operation

/-- The operation where the runs of a batch take turns, or do not. -/
def woven (interleaves : Bool) : Operation → Operation
  | matchBatch range chunk actor => matchBatch range { chunk with interleaves := interleaves } actor
  | operation => operation

def isConcurrent : Operation → Bool
  | matchBatch _ chunk _ => decide (1 < chunk.concurrency)
  | _ => false

end Operation

/-- What a call has come to: its outcome, its events, and what is stored behind it. -/
structure Performed where
  operation : Operation
  outcome : Except Failure Json
  events : List AuditEvent
  contents : Except Failure Store

namespace Backend

variable {σ : Type}

def perform (b : Backend σ) (interleaves : Bool) (t : Tolerance) (call : Operation × Timestamp) (s : σ) :
    Trace σ Json :=
  b.repository.run ((call.1.woven interleaves).procedure t call.2) (b.renew s)

def history (b : Backend σ) (interleaves : Bool) (t : Tolerance) : List (Operation × Timestamp) → σ → List Performed
  | [], _ => []
  | call :: rest, s =>
    let trace := b.perform interleaves t call s
    ⟨call.1, trace.outcome, trace.events, b.contents trace.state⟩ :: b.history interleaves t rest trace.state

end Backend

/-- One call came to the same on both sides. Where several runs were under way at once, their events may come in another
order. -/
structure Performed.Agrees (done other : Performed) : Prop where
  outcome : other.outcome = done.outcome
  events : other.events.Perm done.events
  inOrder : done.operation.isConcurrent = false → other.events = done.events
  contents : ∃ s s', done.contents = .ok s ∧ other.contents = .ok s' ∧ s.Same s'

/-! ## One call -/

variable {prices : List (String × Decimal)} {m : Memory}

theorem Operation.served_woven {operation : Operation} (h : operation.Served prices) (interleaves : Bool) :
    (operation.woven interleaves).Served prices := by
  cases operation <;> exact h

theorem Operation.eq_matchBatch {operation : Operation} (h : operation.isConcurrent = true) :
    ∃ range chunk actor, operation = .matchBatch range chunk actor := by
  cases operation with
  | matchBatch range chunk actor => exact ⟨range, chunk, actor, rfl⟩
  | _ => cases h

/-- Where one run is under way at a time, turns make no difference. -/
theorem Operation.woven_procedure {operation : Operation} (h : operation.isConcurrent = false) (t : Tolerance)
    (now : Timestamp) : (operation.woven true).procedure t now = (operation.woven false).procedure t now := by
  cases operation with
  | matchBatch range chunk actor =>
      have hone : ¬1 < chunk.concurrency := of_decide_eq_false h
      have houtcomes : BatchResult.Chunk.outcomes (α := RunResult) { chunk with interleaves := true } =
          BatchResult.Chunk.outcomes { chunk with interleaves := false } := by
        funext procedures
        rw [BatchResult.Chunk.outcomes, BatchResult.Chunk.outcomes, if_neg fun h => hone h.2, if_neg nofun]
      have hbatch : BatchResult.ofChunk t now range { chunk with interleaves := true } actor =
          BatchResult.ofChunk t now range { chunk with interleaves := false } actor := by
        simp only [BatchResult.ofChunk, houtcomes]
        rfl
      exact congrArg (fun p : Procedure BatchResult => do return (← p).toJson) hbatch
  | _ => rfl

theorem Repository.run_shown {σ α : Type} (repo : Repository σ) (p : Procedure α) (shown : α → Json) (s : σ) :
    repo.run (do return shown (← p)) s =
      ⟨(repo.run p s).outcome.map shown, (repo.run p s).events, (repo.run p s).state⟩ := by
  refine (repo.run_bind p _ s).trans ?_
  unfold Trace.andThen
  cases (repo.run p s).outcome with
  | ok a => exact congrArg (fun events => Trace.mk (.ok (shown a)) events (repo.run p s).state) (List.append_nil _)
  | error failure => rfl

open BatchResult (Rearranged) in
/-- **However the runs of a batch are woven, a call does the same to a store**, up to the order of its events. -/
theorem Memory.run_woven (hm : m.Ready) (operation : Operation) (t : Tolerance) (now : Timestamp) :
    Rearranged (repository.run ((operation.woven false).procedure t now) m)
      (repository.run ((operation.woven true).procedure t now) m) := by
  cases hconcurrent : operation.isConcurrent with
  | false =>
      rw [Operation.woven_procedure hconcurrent]
      exact ⟨rfl, .refl _, rfl⟩
  | true =>
      obtain ⟨range, chunk, actor, rfl⟩ := Operation.eq_matchBatch hconcurrent
      have hlists : Memory.Answers none (.goalIds (some range)) := fun _ h => absurd h (Option.not_mem_none _)
      have hshown : ∀ interleaves,
          repository.run (((Operation.matchBatch range chunk actor).woven interleaves).procedure t now) m = _ :=
        fun interleaves => Repository.run_shown (Memory.under none)
          (BatchResult.ofChunk t now range { chunk with interleaves := interleaves } actor) BatchResult.toJson m
      obtain ⟨houtcome, hevents, hstore⟩ :=
        BatchResult.ofChunk_interleaves t now actor hm hlists { chunk with interleaves := false } true
      rw [hshown, hshown]
      exact ⟨congrArg (Except.map BatchResult.toJson) houtcome, hevents, hstore⟩

/-- **One call on a store, and on a database that mirrors it.** -/
theorem perform_agrees (hnamed : ∀ price ∈ prices, price.1 ≠ "") {db : Database} (h : db.Mirrors prices m)
    {call : Operation × Timestamp} (hserved : call.1.Served prices) (t : Tolerance) :
    (Database.backend.perform true t call db).outcome = (Memory.backend.perform false t call m).outcome ∧
      (Database.backend.perform true t call db).events.Perm (Memory.backend.perform false t call m).events ∧
      (call.1.isConcurrent = false →
        (Database.backend.perform true t call db).events = (Memory.backend.perform false t call m).events) ∧
      (Database.backend.perform true t call db).state.Mirrors prices (Memory.backend.perform false t call m).state := by
  obtain ⟨operation, now⟩ := call
  have hready : m.Ready := ⟨h.free, h.fits.sound.bank_once⟩
  obtain ⟨houtcome, hevents, hstate⟩ :=
    (Operation.procedure_parallels hnamed (Operation.served_woven hserved true) t now).run h.reconnect
  have hwoven := Memory.run_woven hready operation t now
  refine ⟨houtcome.eq.symm.trans hwoven.outcome, hevents ▸ hwoven.events, fun hserial => hevents.trans ?_, ?_⟩
  · rw [Operation.woven_procedure hserial]
    rfl
  · have hstore := hwoven.store
    exact { hstate with
      free := (Memory.run_depth none _ m).trans h.free
      fits := hstore ▸ hstate.fits
      holds := hstore ▸ hstate.holds }

/-! ## Several calls -/

/-- **Calls on a store, and on a database that mirrors it.** -/
theorem history_agrees (hnamed : ∀ price ∈ prices, price.1 ≠ "") {db : Database} (h : db.Mirrors prices m)
    (t : Tolerance) {calls : List (Operation × Timestamp)} (hserved : ∀ call ∈ calls, call.1.Served prices) :
    List.Forall₂ Performed.Agrees (Memory.backend.history false t calls m)
      (Database.backend.history true t calls db) := by
  induction calls generalizing m db with
  | nil => exact .nil
  | cons call rest ih =>
      obtain ⟨hcall, hrest⟩ := List.forall_mem_cons.mp hserved
      obtain ⟨houtcome, hevents, hserial, hstate⟩ := perform_agrees hnamed h hcall t
      refine .cons ⟨houtcome, hevents, hserial, ?_⟩ (ih hstate hrest)
      exact ⟨_, _, rfl, hstate.contents, hstate.fits.same⟩

theorem ofRecords_named {records : List BankRecord} (hrecords : ∀ r ∈ records, r.id ≠ "") {postings : List Posting}
    {s : Store} (h : Store.ofRecords records postings = .ok s) :
    ∀ price ∈ s.bank.map BankRecord.price, price.1 ≠ "" := by
  have hbank : ∀ r ∈ s.bank, r.id ≠ "" := by
    refine Store.ofRecords_preserves (P := fun s => ∀ r ∈ s.bank, r.id ≠ "") h (fun _ hr => absurd hr List.not_mem_nil)
      (fun r hr s hs w hw => ?_) fun p _ s s' hput hs r hr => hs r (Store.putPosting_bank hput ▸ hr)
    exact (mem_replaceOrAdd hw).elim (· ▸ hrecords r hr) (hs w)
  exact List.forall_mem_map.mpr hbank

/-- **Of the same records, and under the same calls, a store and a database give the same results, the same failures,
the same events and the same records.** -/
theorem backends_agree {records : List BankRecord} (hrecords : ∀ r ∈ records, r.WellFormed ∧ r.Attributed)
    {postings : List Posting} (hpostings : ∀ p ∈ postings, p.WellFormed) (t : Tolerance) :
    Alike
      (fun s db => (∃ s', db.contents = .ok s' ∧ s.Same s') ∧
        ∀ calls : List (Operation × Timestamp), (∀ call ∈ calls, call.1.Served (s.bank.map BankRecord.price)) →
          List.Forall₂ Performed.Agrees (Memory.backend.history false t calls (.ofStore s))
            (Database.backend.history true t calls db))
      (Store.ofRecords records postings) (Database.ofRecords .faithful records postings) := by
  have hmirrors := ofRecords_mirrors (fun r hr => (hrecords r hr).1.fitsRow (hrecords r hr).2)
    fun p hp => (hpostings p hp).toKnown
  refine hmirrors.attest.mono fun s db ⟨h, hs, _⟩ => ⟨⟨_, h.contents, h.fits.same⟩, fun calls hserved => ?_⟩
  exact history_agrees (ofRecords_named (fun r hr => (hrecords r hr).1.named) hs) h t hserved

/-! ## Where they differ -/

section Refused

variable {σ α : Type} (repo : Repository σ) {s s' : σ}

theorem Repository.run_needRecords {ids : List String} {records : List BankRecord}
    (hanswer : repo.answer (.query (.bankById ids)) s = (.ok records, s'))
    (hfound : firstMissing? ids (records.map BankRecord.id) = none) (f : List BankRecord → Procedure α) :
    repo.run (needRecords ids >>= f) s = repo.run (f records) s' := by
  refine (repo.run_asked hanswer _).trans ?_
  simp only [Procedure.bind, hfound]
  rfl

theorem Repository.run_needPostings {keys : List String} {postings : List Posting}
    (hanswer : repo.answer (.query (.postingsByKey keys)) s = (.ok postings, s'))
    (hfound : firstMissing? keys (postings.filterMap Posting.groupKey) = none) (f : List Posting → Procedure α) :
    repo.run (needPostings keys >>= f) s = repo.run (f postings) s' := by
  refine (repo.run_asked hanswer _).trans ?_
  simp only [Procedure.bind, hfound]
  rfl

variable {repo} in
theorem ManualMatch.create_refused {s'' : σ} (t : Tolerance) (now : Timestamp) (bankIds groupKeys : List String)
    (actor : String) (hids : (Assoc.distinct bankIds).isEmpty = false)
    (hkeys : (Assoc.distinct groupKeys).isEmpty = false) {records : List BankRecord} {postings : List Posting}
    (hrecords : repo.answer (.query (.bankById (Assoc.distinct bankIds))) s = (.ok records, s'))
    (hrecordsFound : firstMissing? (Assoc.distinct bankIds) (records.map BankRecord.id) = none)
    (hpostings : repo.answer (.query (.postingsByKey (Assoc.distinct groupKeys))) s' = (.ok postings, s''))
    (hpostingsFound : firstMissing? (Assoc.distinct groupKeys) (postings.filterMap Posting.groupKey) = none)
    {failure : Failure} (hchecked : checkSelection t now actor (Assoc.distinct bankIds) (Assoc.distinct groupKeys)
      records postings = .error failure) :
    (repo.run (create t now bankIds groupKeys actor) s).outcome = .error failure := by
  unfold create
  simp only [hids, hkeys, Bool.or_self]
  refine congrArg Trace.outcome (repo.run_needRecords hrecords hrecordsFound _) |>.trans ?_
  refine congrArg Trace.outcome (repo.run_needPostings hpostings hpostingsFound _) |>.trans ?_
  rw [hchecked]
  rfl

end Refused

structure MadeOf (records : List BankRecord) (postings : List Posting) (s : Store) (db : Database) : Prop where
  store : Store.ofRecords records postings = .ok s
  database : Database.ofRecords .faithful records postings = .ok db

namespace Sample

/-- Two records of which the one has more digits than a sum keeps. -/
def heavy : List BankRecord :=
  [record "B1" "s1" 19807040628566084398385987584, record "B2" "s2" 2]

def light : Posting :=
  posting "P1" "a" "s1" 100

def bothMatched : Operation × Timestamp :=
  (.createMatch ["B2", "B1"] ["a"] "operator", batchTime)

/-- How the match is refused where the records add up to these digits, and a zero. -/
def refusal (digits : Nat) : Failure :=
  .conflict (.amountMismatch (.finite false digits 1) (.finite false 100 0) (.finite false (digits - 10) 1)
    (.finite false digits (-1)))

def unattributed : BankRecord :=
  record "B1" "s1" 100 (some ⟨.exact, ["a"], "", none⟩)

def twoAtOnce : Operation × Timestamp :=
  (.matchBatch thatDay { concurrency := 2 } "actor", batchTime)

theorem heavy_fits : ∀ r ∈ heavy, r.WellFormed ∧ r.Attributed := by
  have hrecord : ∀ {id source : String} {amount : Nat}, id ≠ "" →
      (record id source amount).WellFormed ∧ (record id source amount).Attributed := fun hid =>
    ⟨⟨⟨.deposit, rfl⟩, ⟨nofun, List.nodup_nil, nofun⟩, rfl, hid⟩, ⟨nofun, nofun⟩⟩
  exact List.forall_mem_cons.mpr ⟨hrecord (by decide), List.forall_mem_singleton.mpr (hrecord (by decide))⟩

theorem light_fits : light.WellFormed :=
  ⟨⟨⟨.moneyMarket, rfl⟩, ⟨.deposit, rfl⟩⟩, rfl, by decide⟩

/-- What the order of the selected records comes to. -/
theorem bothMatched_refused {σ : Type} {repo : Repository σ} {s s' s'' : σ} {records : List BankRecord}
    {postings : List Posting} (hrecords : repo.answer (.query (.bankById ["B2", "B1"])) s = (.ok records, s'))
    (hpostings : repo.answer (.query (.postingsByKey ["a"])) s' = (.ok postings, s''))
    (hfound : firstMissing? ["B2", "B1"] (records.map BankRecord.id) = none)
    (hfound' : firstMissing? ["a"] (postings.filterMap Posting.groupKey) = none) {failure : Failure}
    (hchecked : ManualMatch.checkSelection {} batchTime "operator" ["B2", "B1"] ["a"] records postings =
      .error failure) :
    (repo.run (bothMatched.1.procedure {} bothMatched.2) s).outcome = .error failure := by
  have hrefused : (repo.run (ManualMatch.create {} batchTime ["B2", "B1"] ["a"] "operator") s).outcome =
      .error failure :=
    ManualMatch.create_refused {} batchTime ["B2", "B1"] ["a"] "operator" rfl rfl hrecords hfound hpostings hfound'
      hchecked
  refine (congrArg Trace.outcome (repo.run_shown _ ManualMatch.toJson s)).trans ?_
  exact congrArg (Except.map ManualMatch.toJson) hrefused

theorem exists_madeOf {records : List BankRecord} (hrecords : ∀ r ∈ records, r.WellFormed ∧ r.Attributed)
    {postings : List Posting} (hpostings : ∀ p ∈ postings, p.WellFormed) {s : Store}
    (hs : Store.ofRecords records postings = .ok s) :
    ∃ db, MadeOf records postings s db ∧ db.Mirrors (s.bank.map BankRecord.price) (.ofStore s) := by
  have hmirrors := ofRecords_mirrors (fun r hr => (hrecords r hr).1.fitsRow (hrecords r hr).2)
    fun p hp => (hpostings p hp).toKnown
  rw [hs] at hmirrors
  obtain ⟨db, hdb, h⟩ := hmirrors.exists_ok
  exact ⟨db, ⟨hs, hdb⟩, h⟩

theorem sums_differ : ∃ s db, MadeOf heavy [light] s db ∧
    (Database.backend.perform true {} bothMatched db).outcome ≠
      (Memory.backend.perform false {} bothMatched (.ofStore s)).outcome := by
  obtain ⟨db, hmade, h⟩ := exists_madeOf heavy_fits (List.forall_mem_singleton.mpr light_fits)
    (show Store.ofRecords heavy [light] = .ok ⟨heavy, [light]⟩ by decide +kernel)
  refine ⟨_, db, hmade, ?_⟩
  obtain ⟨db', hrecords, h'⟩ := h.reconnect.query (show Query.Sized (.bankById ["B2", "B1"]) from trivial)
  obtain ⟨db'', hpostings, -⟩ := h'.query (show Query.Sized (.postingsByKey ["a"]) from trivial)
  have hsorted : Query.reread (.bankById ["B2", "B1"])
      ((Memory.ofStore ⟨heavy, [light]⟩).store.answer (.bankById ["B2", "B1"])) = heavy := by cbv
  have hlisted : Query.reread (.postingsByKey ["a"])
      ((Memory.ofStore ⟨heavy, [light]⟩).store.answer (.postingsByKey ["a"])) = [light] := by cbv
  rw [hsorted] at hrecords
  rw [hlisted] at hpostings
  have hdatabase : (Database.backend.perform true {} bothMatched db).outcome =
      .error (refusal 1980704062856608439838598758) :=
    bothMatched_refused hrecords hpostings (by decide) (by decide) (by decide +kernel)
  have hlisted' : Memory.repository.answer (.query (.postingsByKey ["a"])) (.ofStore ⟨heavy, [light]⟩) =
      (.ok [light], .ofStore ⟨heavy, [light]⟩) := by cbv
  have hturned : Memory.repository.answer (.query (.bankById ["B2", "B1"])) (.ofStore ⟨heavy, [light]⟩) =
      (.ok heavy.reverse, .ofStore ⟨heavy, [light]⟩) := rfl
  have hmemory : (Memory.backend.perform false {} bothMatched (.ofStore ⟨heavy, [light]⟩)).outcome =
      .error (refusal 1980704062856608439838598759) :=
    bothMatched_refused hturned hlisted' (by decide) (by decide) (by decide +kernel)
  rw [hdatabase, hmemory]
  exact fun h => absurd (Except.error.inj h) (by decide)

theorem creators_differ : ∃ s db s', MadeOf [unattributed] [] s db ∧ db.contents = .ok s' ∧ ¬s.Same s' := by
  have hcontents : (Database.ofRecords .faithful [unattributed] [] >>= Database.contents) =
      .ok ⟨[{ unattributed with reference := some ⟨.exact, ["a"], "system", none⟩ }], []⟩ := by decide +kernel
  obtain ⟨db, hdb, hcontents⟩ := Fallible.bind_eq_ok.mp hcontents
  refine ⟨⟨[unattributed], []⟩, db, _, ⟨by decide +kernel, hdb⟩, hcontents, fun h => ?_⟩
  obtain ⟨hsame, -⟩ := List.forall₂_cons.mp h.bank
  exact absurd (congrArg BankRecord.reference hsame.fields) (by decide)

theorem twoGoals_fit : ∀ r ∈ twoGoals.bank, r.WellFormed ∧ r.Attributed := by
  have hplain : GivenAmounts.Plain [] := ⟨nofun, List.nodup_nil, nofun⟩
  refine List.forall_mem_cons.mpr ⟨?_, List.forall_mem_singleton.mpr ?_⟩
  · exact ⟨⟨⟨.deposit, rfl⟩, hplain, rfl, by decide⟩, ⟨nofun, nofun⟩⟩
  · exact ⟨⟨⟨.deposit, rfl⟩, hplain, rfl, by decide⟩, ⟨nofun, nofun⟩⟩

theorem events_differ : ∃ s db, MadeOf twoGoals.bank [] s db ∧
    (Database.backend.perform true {} twoAtOnce db).events ≠
      (Memory.backend.perform false {} twoAtOnce (.ofStore s)).events := by
  obtain ⟨db, hmade, h⟩ := exists_madeOf twoGoals_fit (List.forall_mem_nil _)
    (show Store.ofRecords twoGoals.bank [] = .ok twoGoals by decide +kernel)
  refine ⟨_, db, hmade, fun hsame => ?_⟩
  have hnamed : ∀ price ∈ twoGoals.bank.map BankRecord.price, price.1 ≠ "" := by decide
  have hserved : (twoAtOnce.1.woven true).Served (twoGoals.bank.map BankRecord.price) := trivial
  have hparallels := Operation.procedure_parallels hnamed hserved {} batchTime
  have hevents : (Database.backend.perform true {} twoAtOnce db).events =
    (Memory.backend.perform true {} twoAtOnce (.ofStore twoGoals)).events := (hparallels.run h.reconnect).2.1
  have hwoven : ((Memory.backend.perform true {} twoAtOnce (.ofStore twoGoals)).events.take 2).map
      AuditEvent.started? = [some "goal", some "other"] := by cbv
  have hserial : ((Memory.backend.perform false {} twoAtOnce (.ofStore twoGoals)).events.take 2).map
      AuditEvent.started? = [some "goal", none] := by cbv
  rw [← hevents, hsame, hserial] at hwoven
  exact absurd hwoven (by decide)

def served : List (Operation × Timestamp) :=
  [(.matchGoal "goal" thatDay none true "actor", batchTime), (.createMatch ["first"] ["a"] "operator", batchTime),
    (.sweep { size := 1 }, batchTime), twoAtOnce]

end Sample

/-- **Sums of selected amounts, creators that are not named, and the order of events of several runs at once** are where
a store and a database of well-formed records differ. -/
theorem backends_differ :
    (∀ r ∈ Sample.heavy ++ Sample.unattributed :: Sample.twoGoals.bank, r.WellFormed) ∧ Sample.light.WellFormed ∧
      (∃ s db, MadeOf Sample.heavy [Sample.light] s db ∧
        (Database.backend.perform true {} Sample.bothMatched db).outcome ≠
          (Memory.backend.perform false {} Sample.bothMatched (.ofStore s)).outcome) ∧
      (∃ s db s', MadeOf [Sample.unattributed] [] s db ∧ db.contents = .ok s' ∧ ¬s.Same s') ∧
      ∃ s db, MadeOf Sample.twoGoals.bank [] s db ∧
        (Database.backend.perform true {} Sample.twoAtOnce db).events ≠
          (Memory.backend.perform false {} Sample.twoAtOnce (.ofStore s)).events := by
  have hunattributed : Sample.unattributed.WellFormed :=
    ⟨⟨.deposit, rfl⟩, ⟨nofun, List.nodup_nil, nofun⟩, rfl, by decide⟩
  refine ⟨?_, Sample.light_fits, Sample.sums_differ, Sample.creators_differ, Sample.events_differ⟩
  exact List.forall_mem_append.mpr ⟨fun r hr => (Sample.heavy_fits r hr).1,
    List.forall_mem_cons.mpr ⟨hunattributed, fun r hr => (Sample.twoGoals_fit r hr).1⟩⟩

theorem backends_agree_sample : ∃ s db, MadeOf Sample.twoGoals.bank [Sample.light] s db ∧
    List.Forall₂ Performed.Agrees (Memory.backend.history false {} Sample.served (.ofStore s))
      (Database.backend.history true {} Sample.served db) ∧
    ((Memory.backend.history false {} Sample.served (.ofStore s)).take 3).map (fun done => done.outcome.toBool) =
      [true, true, true] := by
  have hagree := backends_agree Sample.twoGoals_fit (List.forall_mem_singleton.mpr Sample.light_fits) {}
  have hstore : Store.ofRecords Sample.twoGoals.bank [Sample.light] = .ok ⟨Sample.twoGoals.bank, [Sample.light]⟩ := by
    decide +kernel
  rw [hstore] at hagree
  obtain ⟨db, hdb, -, hcalls⟩ := hagree.exists_ok
  refine ⟨_, db, ⟨hstore, hdb⟩, hcalls Sample.served ?_, by decide +kernel⟩
  have hsteady : Steady (Sample.twoGoals.bank.map BankRecord.price) ["first"] := by decide +kernel
  refine List.forall_mem_cons.mpr ⟨trivial, List.forall_mem_cons.mpr ⟨⟨by decide, hsteady⟩, ?_⟩⟩
  exact List.forall_mem_cons.mpr ⟨Int.le_refl 1, List.forall_mem_singleton.mpr trivial⟩

end GoalReconciliation

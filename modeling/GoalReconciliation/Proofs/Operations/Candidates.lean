import GoalReconciliation.Proofs.Operations.Interleaving
import GoalReconciliation.Proofs.Operations.Reversals
import GoalReconciliation.Proofs.Run.ManualPrecedence

/-!
# The search for reversals

* `undoes_answers`, `undoes_text` : what is said of one record, and the record of which nothing can be said;
* `effect_candidates`, `mem_candidates` : a search looks at all records of the goal and the range; what it finds is
  stored and free;
* `Linkable.check_exact`, `link_ok`, `link_fine` : records that exactly undo each other can form a pair, and when one is
  made;
* `Store.Tied`, `Operation.Spares`, `leaves_tied`, `after_tied` : a pair stays one, whatever is called, until it is
  unlinked;
* `Tied.withheld` : neither record of a pair is found by a search or matched by a run;
* `links_iff`, `links_comm` : which records can be linked, and that their order does not matter where types are words;
* `search_finds`, `search_fails`, `link_withholds` : what a search finds, what makes it fail, and what becomes of a pair;
* `Reversal.search_exact` : **a search finds exactly the records that can be linked and undo the source exactly, and once
  they are linked they are found and matched no more**; `Reversal.search_unlisted` : a record whose type is a
  plain text makes the search fail, and is never named first in a link.
-/

namespace GoalReconciliation

set_option autoImplicit false

open Fallible (bind_eq_ok pure_eq_ok)
open Memory (under)

namespace Reversal

/-! ## One record -/

section Record

variable {source r : BankRecord}

/-- A record that a search has to tell by its type: another one that is neither matched nor paired. -/
structure Asked (source r : BankRecord) : Prop where
  other : r.id ≠ source.id
  unmatched : r.reference = none
  free : r.reversal = none

theorem Asked.passed (h : Asked source r) : ¬(r.id = source.id ∨ r.isMatched = true ∨ r.reversal.isSome = true) := by
  simp [h.other, h.unmatched, h.free, BankRecord.isMatched]

theorem passed_of_not_asked (h : ¬Asked source r) : r.id = source.id ∨ r.isMatched = true ∨ r.reversal.isSome = true := by
  by_contra hpassed
  simp only [not_or, BankRecord.isMatched, Bool.not_eq_true, Option.isSome_eq_false_iff, Option.isNone_iff_eq_none]
    at hpassed
  exact h ⟨hpassed.1, hpassed.2.1, hpassed.2.2⟩

/-- Of a record whose type is a plain text it cannot be said whether it undoes another one. -/
theorem undoes_text (h : Asked source r) {text : String} (htype : r.givenType = .text text) :
    undoes source r = .error (.unlisted "is_opposite_of") := by
  rw [undoes, if_neg h.passed, htype]
  rfl

theorem opposes_word {a b : Given TransactionType} {word : TransactionType} (ha : a = .word word) :
    ∃ answer, opposes a b = .ok answer := by
  subst ha
  cases hb : b.listed with
  | known other => exact ⟨word.opposes other, by simp [opposes, hb]⟩
  | unknown text other => exact ⟨false, by simp [opposes, hb]⟩

/-- Of all other records it is said whether they exactly undo a record with an exact amount. -/
theorem undoes_answers (hsource : source.amount.isFinite = true) (hfits : Decimal.Fits source.amount.value)
    (hr : r.amount.isFinite = true) (hword : Asked source r → ∃ word, r.givenType = .word word) :
    ∃ answer, undoes source r = .ok answer ∧ (answer = true ↔ Asked source r ∧
      opposes r.givenType source.givenType = .ok true ∧ source.amount.value + r.amount.value = 0) := by
  by_cases hasked : Asked source r
  · obtain ⟨word, hgiven⟩ := hword hasked
    obtain ⟨opposite, hopposite⟩ := opposes_word (b := source.givenType) hgiven
    rw [undoes, if_neg hasked.passed, hopposite]
    cases opposite with
    | false => exact ⟨false, rfl, by simp⟩
    | true =>
        obtain ⟨opposed, hneg, hworth⟩ := Decimal.neg_fits (Decimal.worth_value hsource) hfits
        have hequal := Decimal.equal_of_worth (Decimal.worth_value hr) hworth
        refine ⟨decide (r.amount.value = -source.amount.value), ?_, ?_⟩
        · exact bind_eq_ok.mpr ⟨true, rfl, bind_eq_ok.mpr
            ⟨opposed, Failure.lift_fault_ok.mpr hneg, Failure.lift_fault_ok.mpr hequal⟩⟩
        · rw [decide_eq_true_iff, eq_neg_iff_add_eq_zero, add_comm]
          simp [hasked]
  · exact ⟨false, by rw [undoes, if_pos (passed_of_not_asked hasked)], by simp [hasked]⟩

end Record

/-! ## The search -/

section Search

variable {faults : Option Faults} {m : Memory}

/-- A search asks for a record and for the records of its goal, and looks at each of these. -/
theorem effect_candidates {source : BankRecord} {id : String} (hsource : m.store.bankRecord? id = some source)
    (range : Option DateRange) :
    (under none).effect (candidates id range) m =
      ((m.store.bankRecords (some source.goalId) range).filterM (undoes source), m) := by
  refine (Repository.effect_bind (effect_need hsource)).trans ?_
  exact (Repository.effect_bind (Memory.effect_query (by simp [Memory.Answers]) m)).trans (Repository.effect_lift _)

theorem free_of_undoes {source r : BankRecord} (h : undoes source r = .ok true) : r.reversal = none := by
  by_contra hpaired
  have hnotAsked : ¬Asked source r := fun hasked => hpaired hasked.free
  have hpassed := passed_of_not_asked hnotAsked
  rw [undoes, if_pos hpassed] at h
  cases h

/-- What a search finds is stored and free. -/
theorem mem_candidates {id : String} {range : Option DateRange} {found : List BankRecord}
    (h : ((under faults).effect (candidates id range) m).1 = .ok found) {r : BankRecord} (hr : r ∈ found) :
    r ∈ m.store.bank ∧ r.reversal = none := by
  have hensures : (candidates id range).Ensures (fun s => s = m.store)
      fun found => ∀ r ∈ found, r ∈ m.store.bank ∧ r.reversal = none := by
    have hneed : (need id).Ensures (fun s => s = m.store) fun _ => True := by
      have hlookup : (lookup id).Ensures (fun s => s = m.store) fun _ => True :=
        Procedure.ensures_bind (Procedure.ensures_query (.bankById [id])) fun _ _ => trivial
      refine Procedure.ensures_bind hlookup fun found _ => ?_
      cases found <;> trivial
    refine Procedure.ensures_bind hneed fun source _ => Procedure.ensures_bind (Procedure.ensures_query _) ?_
    rintro records ⟨_, rfl, rfl⟩
    refine Procedure.ensures_mono (Procedure.ensures_done _) fun found hfound r hr => ?_
    rcases Fallible.filterM_cases (undoes source) (m.store.bankRecords (some source.goalId) range) with
      ⟨kept, hkept, -, hmem⟩ | ⟨_, _, failure, -, hfailed⟩
    · obtain rfl := Except.ok.inj (hkept.symm.trans hfound)
      obtain ⟨hlisted, hundoes⟩ := (hmem r).mp hr
      exact ⟨(Store.mem_bankRecords.mp hlisted).1, free_of_undoes hundoes⟩
    · cases hfailed.symm.trans hfound
  exact (Memory.run_ensures faults hensures rfl).2 found h r hr

end Search

/-! ## The pair -/

section Pair

variable {t : Tolerance} {now : Timestamp} {actor : String} {faults : Option Faults} {m : Memory} {a b : BankRecord}

/-- Two records of one goal, both free, of which the first is told to undo the second by its type. -/
structure Linkable (a b : BankRecord) : Prop where
  distinct : a.id ≠ b.id
  goal : b.goalId = a.goalId
  opposes : opposes a.givenType b.givenType = .ok true
  free : a.reversal = none
  freePartner : b.reversal = none

theorem Linkable.swap (h : Linkable a b) {word : TransactionType} (hword : b.givenType = .word word) :
    Linkable b a where
  distinct := h.distinct.symm
  goal := h.goal.symm
  opposes := opposes_iff.mpr ⟨⟨word, hword⟩, (opposes_iff.mp h.opposes).2.symm⟩
  free := h.freePartner
  freePartner := h.free

/-- Such records can form a pair if they net to zero exactly. -/
theorem Linkable.check_exact (h : Linkable a b) (ht : t.reversalNet.Bounds 0) (ha : a.amount.isFinite = true)
    (hb : b.amount.isFinite = true) (hnet : a.amount.value + b.amount.value = 0) : ∃ net, check t a b = .ok net := by
  have hfits : Decimal.Fits (a.amount.value + b.amount.value) := by
    rw [hnet]
    exact ⟨0, 0, by decide, by decide, by decide, by simp⟩
  obtain ⟨net, hadd, hworth⟩ := Decimal.add_fits (Decimal.worth_value ha) (Decimal.worth_value hb) hfits
  obtain ⟨size, habs, hsize⟩ := Decimal.abs_fits hworth hfits
  have hwithin := Decimal.not_lt_of_bounds hsize (hnet ▸ ht)
  refine ⟨net, ?_⟩
  unfold check checkFree
  rw [if_neg (not_not.mpr h.goal.symm), h.free, h.freePartner]
  exact bind_eq_ok.mpr ⟨true, h.opposes, bind_eq_ok.mpr ⟨net, Failure.lift_fault_ok.mpr hadd, bind_eq_ok.mpr
    ⟨size, Failure.lift_fault_ok.mpr habs, bind_eq_ok.mpr ⟨false, Failure.lift_fault_ok.mpr hwithin, rfl⟩⟩⟩⟩

/-- What is reported of a pair does not change what its saving leaves. -/
theorem saved_ok {records : List BankRecord} {action : AuditAction} {goal : Option String} {made made' : Reversal}
    {after : Memory}
    (h : (under faults).effect (Procedure.saveAll [.bank records] >>= fun _ =>
      Procedure.report action goal actor >>= fun _ => pure made) m = (.ok made', after)) :
    after.store = records.foldl Store.putBank m.store := by
  cases hsaved : (under faults).effect (Procedure.saveAll [.bank records]) m with
  | mk outcome m' =>
      cases outcome with
      | error failure =>
          rw [Repository.effect_bind_error hsaved] at h
          cases (Prod.mk.inj h).1
      | ok _ =>
          rw [Repository.effect_bind hsaved] at h
          obtain rfl : m' = after := (Prod.mk.inj h).2
          exact (congrArg (fun e => e.2.store) hsaved.symm).trans (Memory.saveAll_bank_ok (congrArg Prod.fst hsaved))

/-- A pair that was made is one of two stored records that can form it. -/
theorem link_ok {idA idB : String} {made : Reversal} {after : Memory}
    (h : (under faults).effect (link t now idA idB actor) m = (.ok made, after)) :
    idA ≠ idB ∧ ∃ a b net, m.store.bankRecord? idA = some a ∧ m.store.bankRecord? idB = some b ∧
      check t a b = .ok net ∧
      after.store = [pairWith a b actor now, pairWith b a actor now].foldl Store.putBank m.store := by
  unfold link at h
  by_cases hsame : idA = idB
  · rw [if_pos hsame] at h
    cases (Prod.mk.inj h).1
  rw [if_neg hsame] at h
  simp only [] at h
  cases ha : m.store.bankRecord? idA with
  | none =>
      rw [Repository.effect_bind_error (effect_need_none ha)] at h
      cases (Prod.mk.inj h).1
  | some a =>
      rw [Repository.effect_bind (effect_need ha)] at h
      cases hb : m.store.bankRecord? idB with
      | none =>
          rw [Repository.effect_bind_error (effect_need_none hb)] at h
          cases (Prod.mk.inj h).1
      | some b =>
          rw [Repository.effect_bind (effect_need hb)] at h
          cases hcheck : check t a b with
          | error failure =>
              rw [hcheck] at h
              cases (Prod.mk.inj h).1
          | ok net =>
              rw [hcheck] at h
              exact ⟨hsame, a, b, net, rfl, rfl, hcheck, saved_ok h⟩

/-- Two stored records that can form a pair are made one where nothing fails. -/
theorem link_fine {idA idB : String} (hne : idA ≠ idB) (ha : m.store.bankRecord? idA = some a)
    (hb : m.store.bankRecord? idB = some b) {net : Decimal} (hcheck : check t a b = .ok net) :
    ∃ after, (under none).effect (link t now idA idB actor) m = (.ok ⟨a.goalId, [idA, idB], now⟩, after) := by
  let records := [pairWith a b actor now, pairWith b a actor now]
  obtain ⟨after, hsaved⟩ : ∃ after, (under none).effect (Procedure.saveAll [.bank records]) m = (.ok (), after) :=
    ⟨_, Prod.ext (Memory.saveAll_bank_fine records m).1 rfl⟩
  refine ⟨after, ?_⟩
  unfold link
  rw [if_neg hne]
  simp only []
  rw [Repository.effect_bind (effect_need ha), Repository.effect_bind (effect_need hb), hcheck]
  exact Repository.effect_bind hsaved

end Pair

end Reversal

/-! ## Pairs that stay -/

namespace Store

def LeadsTo (s : Store) (x y : String) : Prop :=
  ∃ r link, s.bankRecord? x = some r ∧ r.reversal = some link ∧ link.partnerId = y

structure Tied (s : Store) (x y : String) : Prop where
  distinct : (s.bank.map BankRecord.id).Nodup
  there : s.LeadsTo x y
  back : s.LeadsTo y x

variable {s s' : Store} {x y : String}

theorem Tied.symm (h : s.Tied x y) : s.Tied y x :=
  ⟨h.distinct, h.back, h.there⟩

theorem LeadsTo.congr (h : s.LeadsTo x y) (hsame : s'.bankRecord? x = s.bankRecord? x) : s'.LeadsTo x y := by
  rwa [LeadsTo, hsame]

theorem LeadsTo.of_cores (h : s.LeadsTo x y) (hs : (s.bank.map BankRecord.id).Nodup) (hcores : s'.cores = s.cores) :
    s'.LeadsTo x y := by
  obtain ⟨r, link, hr, hlink, hpartner⟩ := h
  obtain ⟨hmem, rfl⟩ := (bankRecord?_iff hs).mp hr
  have hcore : r.core ∈ s'.cores := hcores ▸ List.mem_map_of_mem hmem
  obtain ⟨r', hr', hsame⟩ := List.mem_map.mp hcore
  have hs' : (s'.bank.map BankRecord.id).Nodup := by
    rw [← cores_ids, hcores, cores_ids]
    exact hs
  refine ⟨r', link, (bankRecord?_iff hs').mpr ⟨hr', BankRecord.core_id hsame⟩, ?_, hpartner⟩
  rw [BankRecord.core_reversal hsame, hlink]

theorem LeadsTo.stored (h : s.LeadsTo x y) {records : List BankRecord} (hother : ∀ r ∈ records, r.id ≠ x) :
    (records.foldl putBank s).LeadsTo x y := by
  refine h.congr (bankRecord?_foldl_putBank_of_notMem s fun hmem => ?_)
  obtain ⟨r, hr, hid⟩ := List.mem_map.mp hmem
  exact hother r hr hid

/-- A pair is made of free records, so a record with a link is none of them. -/
theorem LeadsTo.linked (h : s.LeadsTo x y) (hs : (s.bank.map BankRecord.id).Nodup) {t : Tolerance} {idA idB : String}
    {a b : BankRecord} {net : Decimal} (ha : s.bankRecord? idA = some a) (hb : s.bankRecord? idB = some b)
    (hcheck : Reversal.check t a b = .ok net) (actor : String) (now : Timestamp) :
    ([Reversal.pairWith a b actor now, Reversal.pairWith b a actor now].foldl putBank s).LeadsTo x y := by
  obtain ⟨-, hfreeA, hfreeB, -⟩ := Reversal.check_ok hcheck
  obtain ⟨r, link, hr, hlink, -⟩ := id h
  have hother : ∀ (c : BankRecord) {id : String}, s.bankRecord? id = some c → c.reversal = none → c.id ≠ x := by
    rintro c id hc hfree rfl
    obtain ⟨hmem, -⟩ := (bankRecord?_iff hs).mp hc
    obtain rfl := Option.some.inj (hr.symm.trans ((bankRecord?_iff hs).mpr ⟨hmem, rfl⟩))
    cases hfree.symm.trans hlink
  exact h.stored (List.forall_mem_cons.mpr ⟨hother a ha hfreeA, List.forall_mem_singleton.mpr (hother b hb hfreeB)⟩)

/-- What is unlinked of another pair is no record of this one. -/
theorem LeadsTo.unlinked (h : s.LeadsTo x y) (hs : (s.bank.map BankRecord.id).Nodup) {id : String} {r : BankRecord}
    {link : ReversalLink} (hr : s.bankRecord? id = some r) (hx : id ≠ x) (hy : id ≠ y) :
    (((Reversal.released s r link).map Reversal.release).foldl putBank s).LeadsTo x y := by
  obtain ⟨-, rfl⟩ := (bankRecord?_iff hs).mp hr
  obtain ⟨held, back, hheld, hback, hpartner⟩ := id h
  refine h.stored fun w hw => ?_
  obtain ⟨c, hc, rfl⟩ := List.mem_map.mp hw
  rcases List.mem_cons.mp hc with rfl | hc
  · exact hx
  · -- a partner that is released leads to the record that is unlinked
    rintro rfl
    obtain ⟨hfound, hpoints⟩ := Option.filter_eq_some_iff.mp (Option.mem_toList.mp hc)
    obtain ⟨hmem, -⟩ := (bankRecord?_iff hs).mp hfound
    obtain rfl := Option.some.inj (hheld.symm.trans ((bankRecord?_iff hs).mpr ⟨hmem, rfl⟩))
    rw [hback] at hpoints
    exact hy ((of_decide_eq_true hpoints).symm.trans hpartner)

theorem tied_of_linked (hs : (s.bank.map BankRecord.id).Nodup) {idA idB : String} {a b : BankRecord} (hne : idA ≠ idB)
    (ha : s.bankRecord? idA = some a) (hb : s.bankRecord? idB = some b) (actor : String) (now : Timestamp) :
    ([Reversal.pairWith a b actor now, Reversal.pairWith b a actor now].foldl putBank s).Tied idA idB := by
  obtain ⟨-, rfl⟩ := (bankRecord?_iff hs).mp ha
  obtain ⟨-, rfl⟩ := (bankRecord?_iff hs).mp hb
  have honce : ([Reversal.pairWith a b actor now, Reversal.pairWith b a actor now].map BankRecord.id).Nodup := by
    simpa [Reversal.pairWith] using hne
  have hfirst : ([Reversal.pairWith a b actor now, Reversal.pairWith b a actor now].foldl putBank s).bankRecord? a.id =
      some (Reversal.pairWith a b actor now) := by
    rw [bankRecord?_foldl_putBank honce]
    simp [Reversal.pairWith]
  have hsecond : ([Reversal.pairWith a b actor now, Reversal.pairWith b a actor now].foldl putBank s).bankRecord? b.id =
      some (Reversal.pairWith b a actor now) := by
    rw [bankRecord?_foldl_putBank honce]
    simp [Reversal.pairWith, hne]
  exact ⟨Write.Preserves.foldl_putBank (Stable.distinct _).bank hs, ⟨_, _, hfirst, rfl, rfl⟩, ⟨_, _, hsecond, rfl, rfl⟩⟩

end Store

/-! ## Until it is unlinked -/

/-- The operation leaves a pair alone: it unlinks neither of its records, and overwrites neither of them directly. -/
def Operation.Spares (x y : String) : Operation → Prop
  | unlinkReversal id _ => id ≠ x ∧ id ≠ y
  | save writes => ∀ w ∈ writes, ∀ r ∈ w.records, r.id ≠ x ∧ r.id ≠ y
  | _ => True

section Calls

variable {t : Tolerance} {m : Memory} {x y : String}

theorem Store.tied_stable {records : List BankRecord} (h : ∀ r ∈ records, r.id ≠ x ∧ r.id ≠ y) :
    Stable (fun s => s.Tied x y) records where
  bank r hr s hs :=
    ⟨nodup_replaceOrAdd hs.distinct, hs.there.congr (find?_replaceOrAdd_of_ne (h r hr).1),
      hs.back.congr (find?_replaceOrAdd_of_ne (h r hr).2)⟩
  posting p s s' hput hs := by
    have hfind : ∀ id, s'.bankRecord? id = s.bankRecord? id := fun id => by
      rw [bankRecord?, bankRecord?, putPosting_bank hput]
    exact ⟨putPosting_bank hput ▸ hs.distinct, hs.there.congr (hfind x), hs.back.congr (hfind y)⟩

/-- **A call that spares a pair leaves it a pair**, whatever fails. -/
theorem Operation.Call.leaves_tied {c : Operation.Call} (hspares : c.operation.Spares x y) (hdepth : m.depth = 0)
    (hm : m.store.Tied x y) : (c.leaves t m).store.Tied x y := by
  rcases c.operation.kind with hmarks | hpairs | hreads | ⟨writes, hsave⟩
  · have hlasting := (Store.lasting_cores m.store hm.distinct).mono fun _ _ => BankRecord.core_marking
    have hcores := leaves_marks (t := t) hlasting hmarks rfl
    refine ⟨?_, hm.there.of_cores hm.distinct hcores, hm.back.of_cores hm.distinct hcores⟩
    exact Memory.run_distinct c.faults _ hm.distinct
  · obtain ⟨operation, now, faults⟩ := c
    have hdistinct := Memory.run_distinct faults (operation.procedure t now) hm.distinct
    suffices hleads : (leaves t m ⟨operation, now, faults⟩).store.LeadsTo x y ∧
        (leaves t m ⟨operation, now, faults⟩).store.LeadsTo y x from ⟨hdistinct, hleads.1, hleads.2⟩
    cases operation with
    | linkReversal idA idB actor =>
        rw [leaves_linkReversal]
        rcases Reversal.link_stores t now idA idB actor hdepth with hsame | ⟨a, b, net, ha, hb, -, hcheck, hstored⟩
        · exact hsame ▸ ⟨hm.there, hm.back⟩
        · rw [hstored]
          exact ⟨hm.there.linked hm.distinct ha hb hcheck actor now, hm.back.linked hm.distinct ha hb hcheck actor now⟩
    | unlinkReversal id actor =>
        rw [leaves_unlinkReversal]
        rcases Reversal.unlink_stores id actor hdepth with hsame | ⟨r, link, hr, -, hstored⟩
        · exact hsame ▸ ⟨hm.there, hm.back⟩
        · rw [hstored]
          exact ⟨hm.there.unlinked hm.distinct hr hspares.1 hspares.2,
            hm.back.unlinked hm.distinct hr hspares.2 hspares.1⟩
    | _ => cases hpairs
  · rwa [leaves_reads t m hreads]
  · obtain ⟨operation, now, faults⟩ := c
    obtain rfl : operation = .save writes := hsave
    exact leaves_save (fun w hw => (Store.tied_stable (hspares w hw)).preserves) t hm now faults

theorem Memory.after_tied {calls : List Operation.Call} (hspares : ∀ c ∈ calls, c.operation.Spares x y)
    (hdepth : m.depth = 0) (hm : m.store.Tied x y) : (m.after t calls).store.Tied x y :=
  (Memory.after_invariant (I := fun m => m.depth = 0 ∧ m.store.Tied x y)
    (fun c hc _ hm => ⟨(Memory.run_depth _ _ _).trans hm.1, Operation.Call.leaves_tied (hspares c hc) hm.1 hm.2⟩)
    ⟨hdepth, hm⟩).2

end Calls

/-! ## What is withheld -/

theorem RunResult.ofGoal_free {faults : Option Faults} {t : Tolerance} {now : Timestamp} {goal : String}
    {range : DateRange} {persistent : Bool} {actor : String} {m : Memory} {result : RunResult}
    (hids : (m.store.bank.map BankRecord.id).Nodup)
    (h : ((under faults).run (ofGoal t now goal range persistent actor) m).outcome = .ok result)
    {found : ReconciledMatch} (hfound : found ∈ result.found) {id : String} (hid : id ∈ found.pairing.bankIds) :
    ∃ r ∈ m.store.bank, r.id = id ∧ r.reversal = none := by
  obtain ⟨a, r, ha, hr, hsame⟩ := ofGoal_ok h
  have hresult := (store_ok _ (hsame.outcome.symm.trans h)).1
  have hfound' : found ∈ r.found := by
    rw [hresult] at hfound
    exact hfound
  obtain ⟨outcome, houtcome, hmade, -⟩ := ofAdmission_ok hr
  obtain ⟨run⟩ := Matching.ofRecords_run (admitted_distinct hids ha) (Admission.ofLoaded_groups ha) houtcome
  have hclaimed : id ∈ run.last.bank := by
    rw [run.bank_eq, ← hmade]
    exact List.mem_flatMap.mpr ⟨_, List.mem_map_of_mem hfound', hid⟩
  obtain ⟨record, hrecord, hname⟩ := List.mem_map.mp (run.bank_of id hclaimed)
  exact ⟨record, admitted_of_store ha hrecord, hname, ((Admission.mem_ofLoaded ha).mp hrecord).2.1⟩

/-- Neither a search for reversals nor a run for a goal returns a record with one of some ids. -/
structure Memory.Withholds (m : Memory) (ids : List String) : Prop where
  searches : ∀ faults id range found, ((under faults).effect (Reversal.candidates id range) m).1 = .ok found →
    ∀ r ∈ found, r.id ∉ ids
  runs : ∀ faults t now goal range persistent actor result,
    ((under faults).run (RunResult.ofGoal t now goal range persistent actor) m).outcome = .ok result →
      ∀ found ∈ result.found, ∀ id ∈ found.pairing.bankIds, id ∉ ids

theorem Store.LeadsTo.not_free {s : Store} {x y : String} (h : s.LeadsTo x y) (hs : (s.bank.map BankRecord.id).Nodup)
    {r : BankRecord} (hr : r ∈ s.bank) (hfree : r.reversal = none) : r.id ≠ x := by
  rintro rfl
  obtain ⟨held, link, hheld, hlink, -⟩ := h
  obtain rfl := Option.some.inj (hheld.symm.trans ((bankRecord?_iff hs).mpr ⟨hr, rfl⟩))
  cases hfree.symm.trans hlink

/-- **The records of a pair are found by no search and matched by no run.** -/
theorem Store.Tied.withheld {m : Memory} {x y : String} (h : m.store.Tied x y) : m.Withholds [x, y] := by
  have hfree : ∀ r ∈ m.store.bank, r.reversal = none → r.id ∉ [x, y] := fun r hr hfree hmem =>
    (List.mem_pair.mp hmem).elim (h.there.not_free h.distinct hr hfree) (h.back.not_free h.distinct hr hfree)
  refine ⟨fun faults id range found hfound r hr => ?_, ?_⟩
  · exact hfree r (Reversal.mem_candidates hfound hr).1 (Reversal.mem_candidates hfound hr).2
  · intro faults t now goal range persistent actor result hresult found hfound id hid
    obtain ⟨r, hr, rfl, hlink⟩ := RunResult.ofGoal_free h.distinct hresult hfound hid
    exact hfree r hr hlink

/-! ## The whole -/

namespace Reversal

/-- Two stored records can be made a pair, if they are named in this order. -/
def Links (t : Tolerance) (now : Timestamp) (actor : String) (s : Store) (a b : BankRecord) : Prop :=
  ∃ made after, Memory.repository.effect (link t now a.id b.id actor) (.ofStore s) = (.ok made, after)

/-- A record that undoes another one: unmatched, in the range and of the exactly opposite amount. -/
structure Undoes (s : Store) (b : BankRecord) (range : Option DateRange) (c : BankRecord) : Prop where
  stored : c ∈ s.bank
  unmatched : c.reference = none
  within : DateRange.admits range c.date = true
  exact : b.amount.value + c.amount.value = 0

/-- A record of the goal and the range that a search has to ask by its type, which is a plain text. -/
structure Untold (b : BankRecord) (range : Option DateRange) (c : BankRecord) : Prop where
  goal : c.goalId = b.goalId
  within : DateRange.admits range c.date = true
  asked : Asked b c
  text : ∃ text, c.givenType = .text text

/-- What a search for the reversals of a record comes to, and what the making of a pair. -/
structure Searched (t : Tolerance) (now : Timestamp) (actor : String) (s : Store) (b : BankRecord)
    (range : Option DateRange) : Prop where
  finds : (∀ c ∈ s.bank, ¬Untold b range c) →
    ∃ found, Memory.repository.effect (candidates b.id range) (.ofStore s) = (.ok found, .ofStore s) ∧
      (∀ c, c ∈ found ↔ Undoes s b range c ∧ Links t now actor s c b) ∧
      ((∃ word, b.givenType = .word word) → ∀ c, c ∈ found ↔ Undoes s b range c ∧ Links t now actor s b c)
  fails : (∃ c ∈ s.bank, Untold b range c) →
    Memory.repository.effect (candidates b.id range) (.ofStore s) = (.error (.unlisted "is_opposite_of"), .ofStore s)
  withheld : ∀ faults idA idB made after,
    (under faults).effect (link t now idA idB actor) (.ofStore s) = (.ok made, after) →
      ∀ t' calls, (∀ c ∈ calls, c.operation.Spares idA idB) → (after.after t' calls).Withholds [idA, idB]

section Exact

variable {s : Store} {t : Tolerance} {b c : BankRecord} {range : Option DateRange}

theorem mem_listed : c ∈ s.bankRecords (some b.goalId) range ↔
    c ∈ s.bank ∧ c.goalId = b.goalId ∧ DateRange.admits range c.date = true := by
  simp [Store.mem_bankRecords, Store.isGoal, eq_comm (a := b.goalId)]

/-- Of each listed record, a search can tell whether it exactly undoes the source, unless its type is a plain text. -/
theorem undoes_listed (hfinite : ∀ r ∈ s.bank, r.amount.isFinite = true) (hfits : Decimal.Fits b.amount.value)
    (hb : b ∈ s.bank) (hc : c ∈ s.bankRecords (some b.goalId) range) :
    Untold b range c ∧ undoes b c = .error (.unlisted "is_opposite_of") ∨
      ∃ answer, undoes b c = .ok answer ∧ (answer = true ↔ Asked b c ∧
        opposes c.givenType b.givenType = .ok true ∧ b.amount.value + c.amount.value = 0) := by
  obtain ⟨hmem, hgoal, hwithin⟩ := mem_listed.mp hc
  by_cases huntold : Untold b range c
  · obtain ⟨text, htype⟩ := huntold.text
    exact .inl ⟨huntold, undoes_text huntold.asked htype⟩
  · refine .inr (undoes_answers (hfinite b hb) hfits (hfinite c hmem) fun hasked => ?_)
    cases htype : c.givenType with
    | word word => exact ⟨word, rfl⟩
    | text text => exact absurd ⟨hgoal, hwithin, hasked, text, htype⟩ huntold

/-- Two stored records whose amounts net to zero exactly can be made a pair if and only if they are free, of one goal,
and told to undo each other. -/
theorem links_iff (hids : (s.bank.map BankRecord.id).Nodup) (hfinite : ∀ r ∈ s.bank, r.amount.isFinite = true)
    (ht : t.reversalNet.Bounds 0) {now : Timestamp} {actor : String} {x y : BankRecord} (hx : x ∈ s.bank)
    (hy : y ∈ s.bank) (hnet : x.amount.value + y.amount.value = 0) : Links t now actor s x y ↔ Linkable x y := by
  have hfound : ∀ {r : BankRecord}, r ∈ s.bank → s.bankRecord? r.id = some r := fun hr =>
    (Store.bankRecord?_iff hids).mpr ⟨hr, rfl⟩
  constructor
  · rintro ⟨made, after, hlinked⟩
    have hlink : (under none).effect (link t now x.id y.id actor) (.ofStore s) = (.ok made, after) := hlinked
    obtain ⟨hne, x', y', net, hx', hy', hcheck, -⟩ := link_ok hlink
    obtain rfl := Option.some.inj ((hfound hx).symm.trans hx')
    obtain rfl := Option.some.inj ((hfound hy).symm.trans hy')
    obtain ⟨hnets, hfree, hfreePartner, hopposes⟩ := check_ok hcheck
    exact ⟨hne, hnets.goal, hopposes, hfree, hfreePartner⟩
  · intro h
    obtain ⟨net, hcheck⟩ := h.check_exact ht (hfinite x hx) (hfinite y hy) hnet
    exact ⟨_, link_fine h.distinct (hfound hx) (hfound hy) hcheck⟩

/-- What a search finds are the records that undo the source and can be linked to it. -/
theorem undoes_iff (hids : (s.bank.map BankRecord.id).Nodup) (hfinite : ∀ r ∈ s.bank, r.amount.isFinite = true)
    (ht : t.reversalNet.Bounds 0) (hb : b ∈ s.bank) (hfree : b.reversal = none) (now : Timestamp) (actor : String) :
    (c ∈ s.bankRecords (some b.goalId) range ∧ Asked b c ∧
      opposes c.givenType b.givenType = .ok true ∧ b.amount.value + c.amount.value = 0) ↔
      Undoes s b range c ∧ Links t now actor s c b := by
  constructor
  · rintro ⟨hlisted, hasked, hopposes, hnet⟩
    obtain ⟨hc, hgoal, hwithin⟩ := mem_listed.mp hlisted
    refine ⟨⟨hc, hasked.unmatched, hwithin, hnet⟩, (links_iff hids hfinite ht hc hb (by rw [add_comm, hnet])).mpr ?_⟩
    exact ⟨hasked.other, hgoal.symm, hopposes, hasked.free, hfree⟩
  · rintro ⟨h, hlinks⟩
    have hlinkable := (links_iff hids hfinite ht h.stored hb (by rw [add_comm, h.exact])).mp hlinks
    exact ⟨mem_listed.mpr ⟨h.stored, hlinkable.goal.symm, h.within⟩,
      ⟨hlinkable.distinct, h.unmatched, hlinkable.free⟩, hlinkable.opposes, h.exact⟩

/-- Where the types are words, it does not matter which of the two records is named first. -/
theorem links_comm (hids : (s.bank.map BankRecord.id).Nodup) (hfinite : ∀ r ∈ s.bank, r.amount.isFinite = true)
    (ht : t.reversalNet.Bounds 0) (hb : b ∈ s.bank) {word : TransactionType} (hword : b.givenType = .word word)
    (htold : ¬Untold b range c) (h : Undoes s b range c) (now : Timestamp) (actor : String) :
    Links t now actor s c b ↔ Links t now actor s b c := by
  rw [links_iff hids hfinite ht h.stored hb (by rw [add_comm, h.exact]), links_iff hids hfinite ht hb h.stored h.exact]
  refine ⟨fun hlinkable => hlinkable.swap hword, fun hlinkable => ?_⟩
  cases htype : c.givenType with
  | word word' => exact hlinkable.swap htype
  | text text =>
      have hasked : Asked b c := ⟨hlinkable.distinct.symm, h.unmatched, hlinkable.freePartner⟩
      exact absurd ⟨hlinkable.goal, h.within, hasked, text, htype⟩ htold

/-- Where no record has a plain text for its type, a search finds what undoes the source. -/
theorem search_finds (hids : (s.bank.map BankRecord.id).Nodup) (hfinite : ∀ r ∈ s.bank, r.amount.isFinite = true)
    (hfits : Decimal.Fits b.amount.value) (ht : t.reversalNet.Bounds 0) (hb : b ∈ s.bank) (hfree : b.reversal = none)
    (hall : ∀ c ∈ s.bank, ¬Untold b range c) (now : Timestamp) (actor : String) :
    ∃ found, Memory.repository.effect (candidates b.id range) (.ofStore s) = (.ok found, .ofStore s) ∧
      ∀ c, c ∈ found ↔ Undoes s b range c ∧ Links t now actor s c b := by
  have hsource : (Memory.ofStore s).store.bankRecord? b.id = some b := (Store.bankRecord?_iff hids).mpr ⟨hb, rfl⟩
  have htold : ∀ c ∈ s.bankRecords (some b.goalId) range, _ := fun c hc =>
    (undoes_listed hfinite hfits hb hc).resolve_left fun huntold => hall c (mem_listed.mp hc).1 huntold.1
  rcases Fallible.filterM_cases (undoes b) (s.bankRecords (some b.goalId) range) with
    ⟨found, hfound, -, hmem⟩ | ⟨c, hc, failure, hfailure, -⟩
  · refine ⟨found, (effect_candidates hsource range).trans (congrArg (·, _) hfound), fun c => ?_⟩
    rw [hmem, ← undoes_iff hids hfinite ht hb hfree now actor]
    refine and_congr_right fun hc => ?_
    obtain ⟨answer, hanswer, htrue⟩ := htold c hc
    rw [hanswer, ← htrue, Except.ok.injEq]
  · obtain ⟨answer, hanswer, -⟩ := htold c hc
    cases hanswer.symm.trans hfailure

/-- A record that the search cannot tell makes it fail. -/
theorem search_fails (hids : (s.bank.map BankRecord.id).Nodup) (hfinite : ∀ r ∈ s.bank, r.amount.isFinite = true)
    (hfits : Decimal.Fits b.amount.value) (hb : b ∈ s.bank) (hc : c ∈ s.bank) (huntold : Untold b range c) :
    Memory.repository.effect (candidates b.id range) (.ofStore s) =
      (.error (.unlisted "is_opposite_of"), .ofStore s) := by
  have hsource : (Memory.ofStore s).store.bankRecord? b.id = some b := (Store.bankRecord?_iff hids).mpr ⟨hb, rfl⟩
  have hlisted : c ∈ s.bankRecords (some b.goalId) range := mem_listed.mpr ⟨hc, huntold.goal, huntold.within⟩
  rcases Fallible.filterM_cases (undoes b) (s.bankRecords (some b.goalId) range) with
    ⟨found, -, hanswers, -⟩ | ⟨d, hd, failure, hfailure, hfailed⟩
  · obtain ⟨answer, hanswer⟩ := hanswers c hlisted
    obtain ⟨text, htype⟩ := huntold.text
    cases (undoes_text huntold.asked htype).symm.trans hanswer
  · refine (effect_candidates hsource range).trans (congrArg (·, _) (hfailed.trans ?_))
    rcases undoes_listed hfinite hfits hb hd with ⟨-, hunlisted⟩ | ⟨answer, hanswer, -⟩
    · rw [Except.error.inj (hfailure.symm.trans hunlisted)]
    · cases hanswer.symm.trans hfailure

/-- Once two records are linked, no search finds them and no run matches them, until they are unlinked. -/
theorem link_withholds (hids : (s.bank.map BankRecord.id).Nodup) {now : Timestamp} {actor idA idB : String}
    {faults : Option Faults} {made : Reversal} {after : Memory}
    (hlinked : (under faults).effect (link t now idA idB actor) (.ofStore s) = (.ok made, after)) (t' : Tolerance)
    {calls : List Operation.Call} (hspares : ∀ c ∈ calls, c.operation.Spares idA idB) :
    (after.after t' calls).Withholds [idA, idB] := by
  obtain ⟨hne, a, b, net, ha, hb, -, hstored⟩ := link_ok hlinked
  have htied : after.store.Tied idA idB := hstored ▸ Store.tied_of_linked hids hne ha hb actor now
  have hdepth : after.depth = 0 := (congrArg (fun e => e.2.depth) hlinked).symm.trans (Memory.run_depth faults _ _)
  exact (Memory.after_tied hspares hdepth htied).withheld

/-- **A search for reversals finds exactly the records that can be linked and undo the source exactly**, unless it comes
upon a record whose type is a plain text; and once two records are linked, no search finds them and no run matches them,
until they are unlinked. -/
theorem search_exact (hids : (s.bank.map BankRecord.id).Nodup) (hfinite : ∀ r ∈ s.bank, r.amount.isFinite = true)
    (hfits : Decimal.Fits b.amount.value) (ht : t.reversalNet.Bounds 0) (hb : b ∈ s.bank) (hfree : b.reversal = none)
    (range : Option DateRange) (now : Timestamp) (actor : String) : Searched t now actor s b range where
  finds hall := by
    obtain ⟨found, hfound, hmem⟩ := search_finds hids hfinite hfits ht hb hfree hall now actor
    refine ⟨found, hfound, hmem, fun ⟨word, hword⟩ c => (hmem c).trans (and_congr_right fun h => ?_)⟩
    exact links_comm hids hfinite ht hb hword (hall c h.stored) h now actor
  fails := fun ⟨_, hc, huntold⟩ => search_fails hids hfinite hfits hb hc huntold
  withheld _ _ _ _ _ hlinked t' _ hspares := link_withholds hids hlinked t' hspares

end Exact

namespace Sample

open GoalReconciliation.Sample (day record)

def deposit : BankRecord :=
  record "deposit" "s1" 100

def withdrawal : BankRecord :=
  { record "withdrawal" "s2" 100 with givenType := .word .withdrawal, amount := .finite true 100 0 }

def reversible : Store :=
  { bank := [deposit, withdrawal] }

def fee : BankRecord :=
  { record "fee" "s3" 5 with givenType := .text "FEE" }

def charged : Store :=
  { bank := [deposit, withdrawal, fee] }

/-- The deposit with a plain text for its type. -/
def written : BankRecord :=
  { deposit with givenType := .text "DEPOSIT" }

def untyped : Store :=
  { bank := [written, withdrawal] }

def noon : Timestamp :=
  ⟨day, 12, 0, 0, 0, some 0⟩

theorem fits_deposit : Decimal.Fits deposit.amount.value :=
  ⟨100, 0, by decide, by decide, by decide, rfl⟩

theorem bounds_default : Decimal.Bounds (Tolerance.reversalNet {}) 0 :=
  (Decimal.bounds_of_worth (Decimal.worth_value rfl)).mpr (by norm_num [Decimal.value, Decimal.signed])

theorem opposite : deposit.amount.value + withdrawal.amount.value = 0 := by
  norm_num [deposit, withdrawal, record, Decimal.value, Decimal.signed]

theorem links_deposit {s : Store} (hdeposit : s.bankRecord? "deposit" = some deposit)
    (hwithdrawal : s.bankRecord? "withdrawal" = some withdrawal) : Links {} noon "operator" s deposit withdrawal := by
  have hcheck : check {} deposit withdrawal = .ok (.finite false 0 0) := by decide +kernel
  exact ⟨_, link_fine (m := .ofStore s) (by decide) hdeposit hwithdrawal hcheck⟩

end Sample

theorem search_exact_sample :
    ∃ found, Memory.repository.effect (candidates "deposit" none) (.ofStore Sample.reversible) =
        (.ok found, .ofStore Sample.reversible) ∧ Sample.withdrawal ∈ found := by
  have hsearch := search_exact (s := Sample.reversible) (t := {}) (b := Sample.deposit) (by decide) (by decide)
    Sample.fits_deposit Sample.bounds_default (by decide) rfl none Sample.noon "operator"
  have hwords : ∀ c ∈ Sample.reversible.bank, ∀ text, c.givenType ≠ .text text := by
    simp [Sample.reversible, Sample.deposit, Sample.withdrawal, Sample.record]
  obtain ⟨found, hfound, -, hmem⟩ := hsearch.finds fun c hc huntold =>
    huntold.text.elim fun text htype => hwords c hc text htype
  refine ⟨found, hfound, (hmem ⟨.deposit, rfl⟩ _).mpr ⟨⟨by decide, rfl, rfl, Sample.opposite⟩, ?_⟩⟩
  exact Sample.links_deposit rfl rfl

/-- **A record whose type is a plain text makes the search fail**, although another record exactly undoes the source and
can be linked to it. **A source whose type is a plain text is linked to nothing**, although the search finds a record. -/
theorem search_unlisted :
    ((∀ r ∈ Sample.charged.bank, r.amount.isFinite = true) ∧ Sample.deposit ∈ Sample.charged.bank ∧
      Sample.deposit.reversal = none ∧ Undoes Sample.charged Sample.deposit none Sample.withdrawal ∧
      Links {} Sample.noon "operator" Sample.charged Sample.deposit Sample.withdrawal ∧
      Memory.repository.effect (candidates "deposit" none) (.ofStore Sample.charged) =
        (.error (.unlisted "is_opposite_of"), .ofStore Sample.charged)) ∧
    (∀ r ∈ Sample.untyped.bank, r.amount.isFinite = true) ∧ Sample.written ∈ Sample.untyped.bank ∧
      Sample.written.reversal = none ∧
      ¬Links {} Sample.noon "operator" Sample.untyped Sample.written Sample.withdrawal ∧
      ∃ found, Memory.repository.effect (candidates "deposit" none) (.ofStore Sample.untyped) =
          (.ok found, .ofStore Sample.untyped) ∧ Sample.withdrawal ∈ found := by
  refine ⟨⟨by decide, by decide, rfl, ⟨by decide, rfl, rfl, Sample.opposite⟩, Sample.links_deposit rfl rfl, ?_⟩,
    by decide, by decide, rfl, ?_, ?_⟩
  · exact search_fails (s := Sample.charged) (b := Sample.deposit) (c := Sample.fee) (by decide) (by decide)
      Sample.fits_deposit (by decide) (by decide) ⟨rfl, rfl, ⟨by decide, rfl, rfl⟩, "FEE", rfl⟩
  · rintro ⟨made, after, hlinked⟩
    have hrefused : (Memory.repository.effect (link {} Sample.noon "deposit" "withdrawal" "operator")
        (.ofStore Sample.untyped)).1 = .error (.unlisted "is_opposite_of") := rfl
    cases (congrArg Prod.fst hlinked).symm.trans hrefused
  · have htold : ∀ c ∈ Sample.untyped.bank, ¬Untold Sample.written none c := by
      refine List.forall_mem_cons.mpr ⟨fun h => h.asked.other rfl, List.forall_mem_singleton.mpr fun h => ?_⟩
      obtain ⟨text, htype⟩ := h.text
      cases htype
    obtain ⟨found, hfound, hmem⟩ := search_finds (s := Sample.untyped) (t := {}) (b := Sample.written) (by decide)
      (by decide) Sample.fits_deposit Sample.bounds_default (by decide) rfl htold Sample.noon "operator"
    refine ⟨found, hfound, (hmem _).mpr ⟨⟨by decide, rfl, rfl, Sample.opposite⟩, ?_⟩⟩
    have hcheck : check {} Sample.withdrawal Sample.written = .ok (.finite false 0 0) := by decide +kernel
    exact ⟨_, link_fine (m := .ofStore Sample.untyped) (by decide) rfl rfl hcheck⟩

end Reversal

end GoalReconciliation

import GoalReconciliation.Proofs.Resolution.Verdicts
import GoalReconciliation.Proofs.Run.Admission

/-!
# What a sweep sees of records that no run would match

* `BankRecord.admitted`, `Posting.admitted` : records and postings that a run for their goal would match, and
  `ofLoaded_admitted` : a run matches just these;
* `Store.SameAdmitted` : two stores that differ in other records and postings only;
* `SameAdmitted.reasonOf`, `SameAdmitted.reasonOfKey` : what of the difference the reasons show;
* `refused_hidden` : **sweeps of such stores resolve an admitted record or key alike**, unless its goal differs in refused
  postings on channels that count, or in refused records of the key's type;
* `refused_seen` : one of a reversal pair, and a posting without a source id, as counterparts.
-/

namespace GoalReconciliation

set_option autoImplicit false

open Store (keyOf)

/-- A bank record that a run for its goal would match. -/
def BankRecord.admitted (r : BankRecord) : Bool :=
  (r.check r.goalId).toBool && r.reversal.isNone

def Posting.counts (t : Tolerance) (p : Posting) : Bool :=
  !t.excludedChannels.contains p.channel

/-- A posting that a run for its goal would match. -/
def Posting.admitted (t : Tolerance) (p : Posting) : Bool :=
  (p.check p.goalId).toBool && p.counts t

/-- Of the records and postings of a goal, a run matches the admitted ones. -/
theorem Admission.ofLoaded_admitted {t : Tolerance} {goal : String} {records : List BankRecord} {postings : List Posting}
    {a : Admission} (hrecords : ∀ r ∈ records, r.goalId = goal) (hpostings : ∀ p ∈ postings, p.goalId = goal)
    (h : ofLoaded t goal records postings = .ok a) :
    a.records = records.filter BankRecord.admitted ∧ ∃ keyed errors,
      Group.gather (postings.filter (Posting.admitted t)) = .ok keyed ∧ buildGroups keyed = .ok (a.groups, errors) := by
  obtain ⟨keyed, hkeyed, h⟩ := Fallible.bind_eq_ok.mp h
  obtain ⟨⟨groups, errors⟩, hgroups, h⟩ := Fallible.bind_eq_ok.mp h
  obtain rfl := Fallible.pure_eq_ok.mp h
  have hpassing : passing (fun p => p.check goal) (onChannel t postings) = postings.filter (Posting.admitted t) := by
    rw [passing, onChannel, List.filter_filter]
    refine List.filter_congr fun p hp => ?_
    rw [Posting.admitted, hpostings p hp]
    rfl
  refine ⟨?_, keyed, errors, ?_, hgroups⟩
  · change (passing _ records).filter _ = _
    rw [passing, List.filter_filter]
    refine List.filter_congr fun r hr => ?_
    rw [BankRecord.admitted, hrecords r hr, Bool.and_comm]
  · rw [← hpassing]
    exact Failure.lift_problem_ok.mp hkeyed

namespace Store

variable {t : Tolerance} {s s' : Store} {sweep : Sweep}

/-- Two stores that differ only in records and postings that no run would match. -/
structure SameAdmitted (t : Tolerance) (s s' : Store) : Prop where
  sound : s.Sound
  sound' : s'.Sound
  bank : ∀ r, r.admitted = true → (r ∈ s'.bank ↔ r ∈ s.bank)
  ledger : ∀ p, p.admitted t = true → (p ∈ s'.ledger ↔ p ∈ s.ledger)

def KeyAdmitted (t : Tolerance) (s : Store) (key : String) : Prop :=
  ∀ p ∈ s.ledger, keyOf p = key → p.admitted t = true

/-- The same postings of a goal on channels that count, as far as no run would match them. -/
def SameRefusedPostings (t : Tolerance) (s s' : Store) (goal : String) : Prop :=
  ∀ p, p.goalId = goal → p.counts t = true → p.admitted t = false → (p ∈ s'.ledger ↔ p ∈ s.ledger)

/-- The same records of a goal and a type, as far as no run would match them. -/
def SameRefusedRecords (s s' : Store) (goal : String) (type : Listed TransactionType) : Prop :=
  ∀ r, r.goalId = goal → r.transactionType = type → r.admitted = false → (r ∈ s'.bank ↔ r ∈ s.bank)

/-- The postings of a goal can be summed up: all amounts are numbers that can be added. -/
def SumsUp (t : Tolerance) (s : Store) (goal : String) : Bool :=
  (Sweep.candidateGroups t (s.postings (some goal) none)).toBool

namespace SameAdmitted

theorem candidateGroups (h : s.SameAdmitted t s') {goal : String} (hrefused : s.SameRefusedPostings t s' goal) :
    Sweep.candidateGroups t (s'.postings (some goal) none) = Sweep.candidateGroups t (s.postings (some goal) none) := by
  have hcounting : Admission.onChannel t (s'.postings (some goal) none) =
      Admission.onChannel t (s.postings (some goal) none) := by
    have hsame : ∀ p, p.goalId = goal → p.counts t = true → (p ∈ s'.ledger ↔ p ∈ s.ledger) := by
      intro p hgoal hcounts
      cases hadmitted : p.admitted t with
      | true => exact h.ledger p hadmitted
      | false => exact hrefused p hgoal hcounts hadmitted
    refine Sorting.filter_newestFirst (h.sound.ledger_once.sublist (List.filter_sublist.map _))
      (h.sound'.ledger_once.sublist (List.filter_sublist.map _)) fun p hcounts => ?_
    rw [List.mem_filter, List.mem_filter]
    refine and_congr_left fun hlisted => hsame p ?_ hcounts
    exact (of_decide_eq_true (Bool.and_eq_true_iff.mp hlisted).1).symm
  rw [Sweep.candidateGroups, Sweep.candidateGroups, hcounting]

theorem sameType (h : s.SameAdmitted t s') {goal : String} {type : Listed TransactionType}
    (hrefused : s.SameRefusedRecords s' goal type) :
    (s'.bankRecords (some goal) none).filter (·.transactionType = type) =
      (s.bankRecords (some goal) none).filter (·.transactionType = type) := by
  have hsame : ∀ r, r.goalId = goal → r.transactionType = type → (r ∈ s'.bank ↔ r ∈ s.bank) := by
    intro r hgoal htype
    cases hadmitted : r.admitted with
    | true => exact h.bank r hadmitted
    | false => exact hrefused r hgoal htype hadmitted
  refine Sorting.filter_newestFirst (h.sound.bank_once.sublist (List.filter_sublist.map _))
    (h.sound'.bank_once.sublist (List.filter_sublist.map _)) fun r htype => ?_
  rw [List.mem_filter, List.mem_filter]
  refine and_congr_left fun hlisted => hsame r ?_ (of_decide_eq_true htype)
  exact (of_decide_eq_true (Bool.and_eq_true_iff.mp hlisted).1).symm

/-- A record is judged by the postings on channels that count, the refused ones among them. -/
theorem reasonOf (h : s.SameAdmitted t s') {r : BankRecord} (hrefused : s.SameRefusedPostings t s' r.goalId) :
    sweep.reasonOf t s' r = sweep.reasonOf t s r :=
  Sweep.reasonOf_congr (h.candidateGroups hrefused)

/-- A key is judged by the records of its goal and type, the refused ones among them. -/
theorem reasonOfKey (h : s.SameAdmitted t s') {key : String} (hkey : s.KeyAdmitted t key) (hkey' : s'.KeyAdmitted t key)
    (hrefused : ∀ p ∈ s.ledger, keyOf p = key →
      s.SameRefusedRecords s' p.goalId p.transactionType ∧ s'.SumsUp t p.goalId = s.SumsUp t p.goalId) :
    sweep.reasonOfKey t s' key = sweep.reasonOfKey t s key := by
  refine Sweep.reasonOfKey_congr h.sound h.sound' (fun p hp => ?_) fun first hfirst hfirstKey tag g htype => ?_
  · constructor
    · intro hmem
      exact (h.ledger p (hkey' p hmem hp)).mp hmem
    · intro hmem
      exact (h.ledger p (hkey p hmem hp)).mpr hmem
  · obtain ⟨hrecords, hsums⟩ := hrefused first hfirst hfirstKey
    -- A group looks at the records of its type alone, whatever groups there are beside it.
    have hreason : ∀ groups groups' : List Group,
        Candidates.reasonForGroup ⟨s'.bankRecords (some first.goalId) none, groups'⟩ t tag g =
          Candidates.reasonForGroup ⟨s.bankRecords (some first.goalId) none, groups⟩ t tag g := by
      intro groups groups'
      unfold Candidates.reasonForGroup
      rw [htype, h.sameType hrecords]
    rw [Sweep.candidates?_eq, Sweep.candidates?_eq]
    unfold SumsUp at hsums
    generalize Sweep.candidateGroups t (s'.postings (some first.goalId) none) = groups' at hsums ⊢
    generalize Sweep.candidateGroups t (s.postings (some first.goalId) none) = groups at hsums ⊢
    cases groups with
    | error failure =>
        cases groups' with
        | error failure' => rfl
        | ok _ => cases hsums
    | ok groups =>
        cases groups' with
        | error failure' => cases hsums
        | ok groups' =>
            change (Candidates.reasonForGroup _ t tag g).toOption.join = (Candidates.reasonForGroup _ t tag g).toOption.join
            rw [hreason groups groups']

end SameAdmitted

theorem judged_bankRecord? {now : Timestamp} (hs : s.Sound) {r : BankRecord} (hr : r ∈ s.bank) :
    (sweep.judged t now s).bankRecord? r.id = some (sweep.judgedRecord t now s r) :=
  (bankRecord?_iff (hs.of_plain (Sweep.judged_plain t now sweep s)).bank_once).mpr
    ⟨List.mem_map_of_mem hr, rfl⟩

theorem judged_posting? {now : Timestamp} (hs : s.Sound) {p : Posting} (hp : p ∈ s.ledger) :
    (sweep.judged t now s).posting? p.id = some (sweep.judgedPosting t now s p) :=
  (Lookup.find?_eq_some_iff (hs.of_plain (Sweep.judged_plain t now sweep s)).ledger_once).mpr
    ⟨List.mem_map_of_mem hp, (congrArg Posting.id (Sweep.judgedPosting_plain t now sweep s p)).trans rfl⟩

end Store

/-- **A sweep resolves an admitted record or key alike, whatever other records are refused**: for a record unless they are
postings of its goal on channels that count, for a key unless they are bank records of its goal and type, or keep the goal's
postings from being summed up. -/
theorem refused_hidden (t : Tolerance) (now : Timestamp) {s s' : Store} (h : s.SameAdmitted t s') (sweep : Sweep)
    (hroom : ((sweep.worklist s).length : Int) ≤ sweep.size) (hroom' : ((sweep.worklist s').length : Int) ≤ sweep.size) :
    ∃ result result' final final',
      Memory.repository.effect (sweep.run t now) (.ofStore s) = (.ok result, final) ∧
      Memory.repository.effect (sweep.run t now) (.ofStore s') = (.ok result', final') ∧
      (∀ r ∈ s.bank, r.admitted = true → s.SameRefusedPostings t s' r.goalId →
        final'.store.bankRecord? r.id = final.store.bankRecord? r.id) ∧
      ∀ p ∈ s.ledger, s.KeyAdmitted t (keyOf p) → s'.KeyAdmitted t (keyOf p) →
        (∀ q ∈ s.ledger, keyOf q = keyOf p →
          s.SameRefusedRecords s' q.goalId q.transactionType ∧ s'.SumsUp t q.goalId = s.SumsUp t q.goalId) →
        final'.store.posting? p.id = final.store.posting? p.id := by
  obtain ⟨result, final, hrun, hstored⟩ := Sweep.run_judges t now h.sound hroom
  obtain ⟨result', final', hrun', hstored'⟩ := Sweep.run_judges t now h.sound' hroom'
  refine ⟨result, result', final, final', hrun, hrun', fun r hr hadmitted hrefused => ?_, fun p hp hkey hkey' hrefused => ?_⟩
  · have hr' : r ∈ s'.bank := (h.bank r hadmitted).mpr hr
    rw [hstored, hstored', Store.judged_bankRecord? h.sound hr, Store.judged_bankRecord? h.sound' hr',
      Sweep.judgedRecord, Sweep.judgedRecord, h.reasonOf hrefused]
  · have hp' : p ∈ s'.ledger := (h.ledger p (hkey p hp rfl)).mpr hp
    rw [hstored, hstored', Store.judged_posting? h.sound hp, Store.judged_posting? h.sound' hp',
      Sweep.judgedPosting, Sweep.judgedPosting, h.reasonOfKey hkey hkey' hrefused]

namespace Refused.Sample

def noon : Timestamp :=
  ⟨Sweep.Sample.monday, 12, 0, 0, 0, some 0⟩

/-- One of a pair: the deposit that was undone. -/
def undone : BankRecord :=
  { Sweep.Sample.tagged "undone" with review := {}, reversal := some ⟨"undoing", "ops", some noon⟩ }

/-- The payment that undid it. -/
def undoing : BankRecord :=
  { undone with id := "undoing", givenType := .word .withdrawal, reversal := some ⟨"undone", "ops", some noon⟩ }

def excluded : Posting :=
  { Sweep.Sample.posting with id := "p0", groupKey := some "other", channel := "Transfer_Reversal", review := {} }

def sourceless : Posting :=
  { Sweep.Sample.posting with id := "p0", sourceId := "", review := {} }

/-- The sample with a refused record of another type, and a refused posting of another channel. -/
def cluttered : Store :=
  { bank := [undoing, Sweep.Sample.tagged "first"], ledger := [excluded, Sweep.Sample.posting] }

theorem sameAdmitted_cluttered : Sweep.Sample.store.SameAdmitted {} cluttered where
  sound := ⟨by decide, by decide, by decide +kernel⟩
  sound' := ⟨by decide, by decide, by decide +kernel⟩
  bank := mem_cons_of_not (by decide +kernel)
  ledger := mem_cons_of_not (by decide +kernel)

theorem sameRefusedPostings_cluttered : Sweep.Sample.store.SameRefusedPostings {} cluttered "goal" :=
  fun p _ hcounts _ => mem_cons_of_not (P := fun p => p.counts {} = true) (by decide +kernel) p hcounts

theorem sameRefusedRecords_cluttered :
    Sweep.Sample.store.SameRefusedRecords cluttered "goal" (.known .deposit) :=
  fun r _ htype _ => mem_cons_of_not (P := fun r => r.transactionType = .known .deposit) (by decide) r htype

def swept (store : Store) : Store :=
  (Memory.repository.effect (Sweep.run {} noon { size := 10 }) (.ofStore store)).2.store

end Refused.Sample

open Refused.Sample in
/-- The record and the posting are resolved all the same. -/
theorem refused_hidden_sample :
    ((swept Sweep.Sample.store).bankRecord? "first").map (·.review.resolved) = some true ∧
      ((swept Sweep.Sample.store).posting? "p1").map (·.review.resolved) = some true ∧
      (swept cluttered).bankRecord? "first" = (swept Sweep.Sample.store).bankRecord? "first" ∧
      (swept cluttered).posting? "p1" = (swept Sweep.Sample.store).posting? "p1" := by
  have hsums : cluttered.SumsUp {} "goal" = Sweep.Sample.store.SumsUp {} "goal" :=
    congrArg Except.toBool (sameAdmitted_cluttered.candidateGroups sameRefusedPostings_cluttered)
  obtain ⟨result, result', final, final', hrun, hrun', hrecords, hkeys⟩ :=
    refused_hidden {} noon sameAdmitted_cluttered { size := 10 } (by decide +kernel) (by decide +kernel)
  have hfinal : swept Sweep.Sample.store = final.store := congrArg (fun outcome => outcome.2.store) hrun
  have hfinal' : swept cluttered = final'.store := congrArg (fun outcome => outcome.2.store) hrun'
  refine ⟨by decide +kernel, by decide +kernel, ?_, ?_⟩
  · rw [hfinal, hfinal']
    exact hrecords (Sweep.Sample.tagged "first") List.mem_cons_self (by decide +kernel) sameRefusedPostings_cluttered
  · rw [hfinal, hfinal']
    refine hkeys Sweep.Sample.posting List.mem_cons_self ?_ ?_ ?_
    · exact fun p hp _ => List.mem_singleton.mp hp ▸ (by decide +kernel)
    · intro p hp hkey
      rcases List.mem_cons.mp hp with rfl | hp
      · exact absurd hkey (by decide +kernel)
      · exact List.mem_singleton.mp hp ▸ (by decide +kernel)
    · intro p hp _
      obtain rfl := List.mem_singleton.mp hp
      exact ⟨sameRefusedRecords_cluttered, hsums⟩

open Refused.Sample in
/-- One of a reversal pair is the counterpart of a key, and a posting that fails the check that of a bank record: without
them, neither is resolved. -/
theorem refused_seen :
    (Store.SameAdmitted {} ⟨[], [Sweep.Sample.posting]⟩ ⟨[undone], [Sweep.Sample.posting]⟩ ∧
      Store.KeyAdmitted {} ⟨[], [Sweep.Sample.posting]⟩ "key" ∧
      Store.KeyAdmitted {} ⟨[undone], [Sweep.Sample.posting]⟩ "key" ∧
      ((swept ⟨[], [Sweep.Sample.posting]⟩).posting? "p1").map (·.review.resolved) = some false ∧
      ((swept ⟨[undone], [Sweep.Sample.posting]⟩).posting? "p1").map (·.review.resolved) = some true) ∧
    Store.SameAdmitted {} ⟨[Sweep.Sample.tagged "first"], []⟩ ⟨[Sweep.Sample.tagged "first"], [sourceless]⟩ ∧
      (Sweep.Sample.tagged "first").admitted = true ∧
      ((swept ⟨[Sweep.Sample.tagged "first"], []⟩).bankRecord? "first").map (·.review.resolved) = some false ∧
      ((swept ⟨[Sweep.Sample.tagged "first"], [sourceless]⟩).bankRecord? "first").map (·.review.resolved) =
        some true := by
  refine ⟨⟨⟨⟨by decide, by decide, by decide +kernel⟩, ⟨by decide, by decide, by decide +kernel⟩, ?_, fun _ _ => Iff.rfl⟩,
    ?_, ?_, by decide +kernel, by decide +kernel⟩,
    ⟨⟨by decide, by decide, by decide +kernel⟩, ⟨by decide, by decide, by decide +kernel⟩, fun _ _ => Iff.rfl, ?_⟩,
    by decide +kernel, by decide +kernel, by decide +kernel⟩
  · exact mem_cons_of_not (by decide +kernel)
  · exact fun p hp _ => List.mem_singleton.mp hp ▸ (by decide +kernel)
  · exact fun p hp _ => List.mem_singleton.mp hp ▸ (by decide +kernel)
  · exact mem_cons_of_not (by decide +kernel)

end GoalReconciliation

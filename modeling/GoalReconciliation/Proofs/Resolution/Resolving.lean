import GoalReconciliation.Proofs.Resolution.Counterparts
import GoalReconciliation.Proofs.Resolution.Truthful
import GoalReconciliation.Proofs.Sorting

/-!
# A sweep resolves what has a counterpart

* `performAll_entry` : each visit finds the postings of its key, and all but reviews, as they were before the first;
* `perform_record_iff`, `perform_group_agreeing`, `perform_group_disagreeing` : what one visit resolves;
* `exists_firstPending`, `build_postings` : the tag that a visit of a key goes by, and the group that it looks for;
* `record_resolves`, `group_resolves`, `group_fails` : what a chunk leaves of a record, and of a key;
* `run_resolves` : **a chunk resolves the visited records that have a counterpart, and no others**.
-/

namespace GoalReconciliation.Sweep

set_option autoImplicit false

open Repository (effect_bind)
open Store (keyOf)

/-! ## Visits -/

section Visits

variable (t : Tolerance) (now : Timestamp) (batchId : String)

theorem effect_savePending {m : Memory} (hm : m.store.Sound) {v : ResolvedVariance} {key : String}
    (hname : (v.side, v.recordId) = (.ledger, key)) :
    ∃ m', (Memory.under none).effect (Procedure.saveAll [.postings
        ((pending (m.store.postingsByKey [key])).map fun p =>
          { p with review := p.review.resolve v.reason batchId now })]) m = (.ok (), m') ∧
      m'.store = resolvedStore now batchId [v] m.store := by
  obtain ⟨hok, hstored⟩ := Memory.saveAll_postings (putPostings_resolved hm hname)
  exact ⟨_, Prod.ext hok rfl, hstored⟩

/-- What a visit finds: all but reviews, and the reviews of its task, are as they were before the first one. -/
def Untouched (task : Task) (s s' : Store) : Prop :=
  Reviewed (fun id => decide (task.name = (.bank, id))) (fun key => decide (task.name = (.ledger, key))) s s'

theorem avoids_of_ne {task other : Task} (h : task.name ≠ other.name) :
    task.Avoids (fun id => decide (other.name = (.bank, id))) fun key => decide (other.name = (.ledger, key)) := by
  cases task with
  | record r => exact decide_eq_false fun e => h e.symm
  | group key => exact decide_eq_false fun e => h e.symm

/-- Each visit of different records and keys finds its record or key as it was before the first. -/
theorem performAll_entry {tasks : List Task} {m : Memory} (hm : m.store.Sound)
    (hstored : ∀ task ∈ tasks, task.Stored m.store) (honce : (tasks.map Task.name).Nodup) :
    ∀ entry ∈ (performAll none t now batchId tasks m).1, ∃ m', Untouched entry.1 m.store m'.store ∧
      (entry.1.perform none t now batchId m').1 = entry.2 := by
  induction tasks generalizing m with
  | nil => exact fun entry h => absurd h List.not_mem_nil
  | cons task rest ih =>
      obtain ⟨hfirst, hrest⟩ := List.forall_mem_cons.mp hstored
      obtain ⟨hnew, honce⟩ := List.nodup_cons.mp honce
      have hplain := perform_plain none t now batchId hm hfirst
      refine List.forall_mem_cons.mpr ⟨⟨m, Reviewed.refl _, rfl⟩, fun entry hentry => ?_⟩
      obtain ⟨m', huntouched, hperform⟩ :=
        ih (hm.of_plain hplain) (fun other hother => (hrest other hother).of_plain hplain) honce entry hentry
      refine ⟨m', Reviewed.trans (perform_reviewed none t now batchId hm hfirst (avoids_of_ne fun hsame => hnew ?_))
        huntouched, hperform⟩
      have htask : entry.1 ∈ rest := by
        rw [← performAll_tasks none t now batchId rest]
        exact List.mem_map_of_mem hentry
      rw [hsame]
      exact List.mem_map_of_mem htask

end Visits

/-! ## What a visit resolves -/

/-- The candidates of a goal: its bank records, and the groups of its postings that count. -/
structure CandidatesOf (t : Tolerance) (s : Store) (goal : String) (c : Candidates) : Prop where
  records : c.records = s.bankRecords (some goal) none
  groups : ∀ g, g ∈ c.groups ↔ GroupOf t s goal g
  bounded : ∀ g ∈ c.groups, g.amount.Bounded

section Outcomes

variable {t : Tolerance} {now : Timestamp} {batchId : String} {s : Store} {m : Memory}

theorem comparable_moderate {a b : Decimal} (ha : a.Bounded) (hb : b.Moderate) : a.Comparable b :=
  ⟨ha.finite, hb.finite, add_lt_add_of_le_of_lt ha.size hb.size⟩

theorem comparable_bounded {a b : Decimal} (ha : a.Moderate) (hb : b.Bounded) : a.Comparable b := by
  refine ⟨ha.finite, hb.finite, ?_⟩
  rw [add_comm]
  exact add_lt_add_of_le_of_lt hb.size ha.size

/-- Whatever reviews have been written, the candidates of a goal are loaded, and are those that were stored. -/
theorem attemptWith_moderate (hs : s.Sound) (hmoderate : s.Moderate) (hplain : m.store.plain = s.plain)
    (goal : String) {visit : Candidates → Procedure (Option ResolvedVariance)} (hvisit : ∀ c, visit c.plain = visit c) :
    ∃ c, CandidatesOf t s goal c ∧ attemptWith none t goal visit m = (Memory.under none).effect (visit c) m := by
  obtain ⟨groups, hgroups, hmem, hbounded⟩ := candidateGroups_moderate t hs hmoderate goal
  have hfresh : fresh none t (Memory.ofStore s) goal = .ok ⟨s.bankRecords (some goal) none, groups⟩ := by
    unfold fresh
    change (candidateGroups t (s.postings (some goal) none) >>= _) = _
    rw [hgroups]
    rfl
  refine ⟨⟨s.bankRecords (some goal) none, groups⟩, ⟨rfl, hmem, hbounded⟩, ?_⟩
  unfold attemptWith
  rw [fresh_plain (m := Memory.ofStore s) hplain, hfresh]
  exact congrArg (fun p => (Memory.under none).effect p m) (hvisit _)

theorem resolveRecord_resolves (r : BankRecord) (c : Candidates) :
    (∃ v, ((Memory.under none).effect (resolveRecord t now batchId r c) m).1 = .ok (some v)) ↔
      ∃ reason, c.reasonForRecord t r = .ok (some reason) := by
  unfold resolveRecord
  cases hreason : c.reasonForRecord t r with
  | error fault => exact iff_of_false (fun ⟨_, h⟩ => by cases h) fun ⟨_, h⟩ => by cases h
  | ok found =>
      cases found with
      | none => exact iff_of_false (fun ⟨_, h⟩ => by cases h) fun ⟨_, h⟩ => by cases h
      | some reason =>
          cases htag : r.review.tag with
          | none =>
              unfold Candidates.reasonForRecord at hreason
              rw [htag] at hreason
              cases hreason
          | some tag => exact iff_of_true ⟨_, rfl⟩ ⟨reason, rfl⟩

/-- A bank record is resolved just if a group is its counterpart. -/
theorem perform_record_iff (hs : s.Sound) (hmoderate : s.Moderate) (hplain : m.store.plain = s.plain) {r : BankRecord}
    (hr : r.amount.Moderate) :
    (∃ v, ((Task.record r).perform none t now batchId m).1 = .ok (some v)) ↔
      ∃ g, GroupOf t s r.goalId g ∧ LedgerCounterpart t r g := by
  obtain ⟨c, hc, hattempt⟩ := attemptWith_moderate (t := t) hs hmoderate hplain r.goalId
    (resolveRecord_plain t now batchId r)
  have hperform : (Task.record r).perform none t now batchId m =
      attemptWith none t r.goalId (resolveRecord t now batchId r) m := rfl
  rw [hperform, hattempt, resolveRecord_resolves,
    Candidates.reasonForRecord_iff fun g hg => comparable_moderate (hc.bounded g hg) hr]
  exact exists_congr fun g => and_congr_left' (hc.groups g)

theorem Untouched.postingsByKey {key : String} {s' : Store} (h : Untouched (.group key) s s') :
    s'.postingsByKey [key] = s.postingsByKey [key] := by
  have hkeys : ∀ p : Posting, [key].contains (keyOf p) = decide ((Task.group key).name = (.ledger, keyOf p)) := by
    intro p
    by_cases hkey : keyOf p = key
    · simp [Task.name, hkey]
    · have hne : key ≠ keyOf p := fun e => hkey e.symm
      simp [Task.name, hkey, hne]
  unfold Store.postingsByKey
  simp only [hkeys]
  rw [Reviewed.ledger h]

theorem resolveGroup_resolves (hm : m.store.Sound) (key : String) (g : Group) (tag : ReviewTag) (c : Candidates) :
    (∃ v, ((Memory.under none).effect
        (resolveGroup t now batchId g tag (pending (m.store.postingsByKey [key])) c) m).1 = .ok (some v)) ↔
      ∃ reason, c.reasonForGroup t tag g = .ok (some reason) := by
  unfold resolveGroup
  cases hreason : c.reasonForGroup t tag g with
  | error fault => exact iff_of_false (fun ⟨_, h⟩ => by cases h) fun ⟨_, h⟩ => by cases h
  | ok found =>
      cases found with
      | none => exact iff_of_false (fun ⟨_, h⟩ => by cases h) fun ⟨_, h⟩ => by cases h
      | some reason =>
          obtain ⟨m', hsave, -⟩ := effect_savePending now batchId hm
            (v := ⟨key, .ledger, g.goalId, g.sourceId, g.amount, tag, reason⟩) rfl
          refine iff_of_true ⟨⟨g.key, .ledger, g.goalId, g.sourceId, g.amount, tag, reason⟩, ?_⟩ ⟨reason, rfl⟩
          exact congrArg Prod.fst (effect_bind hsave)

/-- A group is resolved just if a bank record is its counterpart. -/
theorem perform_group_agreeing (hs : s.Sound) (hmoderate : s.Moderate) {key : String}
    (huntouched : Untouched (.group key) s m.store) {g : Group} {tag : ReviewTag}
    (htagged : taggedGroup key (s.postingsByKey [key]) = .ok (some (tag, g))) (hg : g.amount.Bounded) :
    (∃ v, ((Task.group key).perform none t now batchId m).1 = .ok (some v)) ↔
      ∃ r ∈ s.bank, r.goalId = g.goalId ∧ BankCounterpart t tag g r := by
  have hpostings := huntouched.postingsByKey
  obtain ⟨c, hc, hattempt⟩ := attemptWith_moderate (t := t) hs hmoderate huntouched.plain g.goalId
    (resolveGroup_plain t now batchId g tag (pending (m.store.postingsByKey [key])))
  have hperform : (Task.group key).perform none t now batchId m =
      attemptWith none t g.goalId (resolveGroup t now batchId g tag (pending (m.store.postingsByKey [key]))) m := by
    unfold Task.perform
    simp only []
    rw [hpostings, htagged]
  have hrecords : ∀ r, r ∈ c.records ↔ r ∈ s.bank ∧ r.goalId = g.goalId := by
    intro r
    rw [hc.records, Store.mem_bankRecords]
    simp [Store.isGoal, DateRange.admits, eq_comm]
  rw [hperform, hattempt, resolveGroup_resolves (hs.of_plain huntouched.plain),
    Candidates.reasonForGroup_iff fun r hr => comparable_bounded (hmoderate.bank r ((hrecords r).mp hr).1) hg]
  simp only [hrecords, and_assoc]

/-- A group whose postings do not agree fails. -/
theorem perform_group_disagreeing {key : String} (huntouched : Untouched (.group key) s m.store) {failure : Failure}
    (htagged : taggedGroup key (s.postingsByKey [key]) = .error failure) :
    (Task.group key).perform none t now batchId m = (.error failure, m) := by
  unfold Task.perform
  simp only []
  rw [huntouched.postingsByKey, htagged]

end Outcomes

/-! ## The postings of a key -/

def PendingPosting (s : Store) (key : String) (p : Posting) : Prop :=
  p ∈ s.ledger ∧ keyOf p = key ∧ p.review.resolved = false ∧
    (p.review.tag = some .missingInBank ∨ p.review.tag = some .timingDifference)

/-- The pending posting of a key that is listed first: the newest one and, of those of one day, the one with the smallest
id. -/
structure FirstPending (s : Store) (key : String) (first : Posting) : Prop where
  pending : PendingPosting s key first
  first : ∀ p, PendingPosting s key p →
    p.date.ordinal < first.date.ordinal ∨ first.date = p.date ∧ first.id ≤ p.id

def Agreeing (s : Store) (key : String) : Prop :=
  ∀ p ∈ s.ledger, ∀ q ∈ s.ledger, keyOf p = key → keyOf q = key →
    p.transactionType = q.transactionType ∧ p.date = q.date ∧ p.sourceId = q.sourceId

section Postings

variable {s : Store} {key : String}

theorem pendingPosting_iff {p : Posting} : PendingPosting s key p ↔ p ∈ pending (s.postingsByKey [key]) := by
  rw [mem_pending, isPending_iff]
  rfl

theorem exists_firstPending {p : Posting} (hp : PendingPosting s key p) :
    ∃ first tag, FirstPending s key first ∧ first.review.tag = some tag ∧
      (pending (s.postingsByKey [key])).head?.bind (·.review.tag) = some tag := by
  have hsorted : (pending (s.postingsByKey [key])).Pairwise fun a b =>
      b.date.ordinal < a.date.ordinal ∨ a.date = b.date ∧ a.id ≤ b.id :=
    (Sorting.newestFirst_sorted _).sublist List.filter_sublist
  cases hlisted : pending (s.postingsByKey [key]) with
  | nil =>
      have hmem := pendingPosting_iff.mp hp
      rw [hlisted] at hmem
      cases hmem
  | cons first rest =>
      have hfirst : PendingPosting s key first := pendingPosting_iff.mpr (hlisted ▸ List.mem_cons_self)
      obtain ⟨tag, htag⟩ : ∃ tag, first.review.tag = some tag := by
        obtain htag | htag := hfirst.2.2.2
        · exact ⟨_, htag⟩
        · exact ⟨_, htag⟩
      refine ⟨first, tag, ⟨hfirst, fun q hq => ?_⟩, htag, htag⟩
      have hmem := pendingPosting_iff.mp hq
      rw [hlisted] at hmem hsorted
      rcases List.mem_cons.mp hmem with rfl | hrest
      · exact .inr ⟨rfl, String.le_refl _⟩
      · exact (List.pairwise_cons.mp hsorted).1 q hrest

theorem build_postings (hmoderate : s.Moderate) {p : Posting} (hp : p ∈ s.ledger) (hkey : keyOf p = key) :
    Agreeing s key ∧ (∃ g, Group.build key (s.postingsByKey [key]) = .ok g ∧ g.amount.Bounded) ∨
      ¬Agreeing s key ∧ ∃ problem, Group.build key (s.postingsByKey [key]) = .error (.invalid problem) := by
  have hamounts : ∀ p ∈ s.postingsByKey [key], p.amount.Moderate := fun p hp =>
    hmoderate.ledger p (Store.mem_postingsByKey.mp hp).1
  have hmem : ∀ p, p ∈ s.postingsByKey [key] ↔ p ∈ s.ledger ∧ keyOf p = key := fun p => Store.mem_postingsByKey
  cases hlisted : s.postingsByKey [key] with
  | nil =>
      have hnone := (hmem p).mpr ⟨hp, hkey⟩
      rw [hlisted] at hnone
      cases hnone
  | cons first rest =>
      rw [hlisted] at hamounts hmem
      have hagrees : ∀ q, Group.agrees first q = true ↔
          q.transactionType = first.transactionType ∧ q.date = first.date ∧ q.sourceId = first.sourceId := by
        intro q
        simp [Group.agrees, and_assoc]
      obtain ⟨hall, hbuild⟩ | ⟨q, hq, hdisagrees, herror⟩ := Group.build_cases key hamounts
      · refine .inl ⟨fun a ha b hb hakey hbkey => ?_, hbuild⟩
        obtain ⟨htype, hdate, hsource⟩ := (hagrees a).mp (hall a ((hmem a).mpr ⟨ha, hakey⟩))
        obtain ⟨htype', hdate', hsource'⟩ := (hagrees b).mp (hall b ((hmem b).mpr ⟨hb, hbkey⟩))
        exact ⟨htype.trans htype'.symm, hdate.trans hdate'.symm, hsource.trans hsource'.symm⟩
      · refine .inr ⟨fun hagreeing => ?_, _, herror⟩
        obtain ⟨hqledger, hqkey⟩ := (hmem q).mp hq
        obtain ⟨hfirst, hfirstKey⟩ := (hmem first).mp List.mem_cons_self
        have hsame := (hagrees q).mpr (hagreeing q hqledger first hfirst hqkey hfirstKey)
        rw [hdisagrees] at hsame
        cases hsame

end Postings

/-! ## A chunk -/

/-- What a chunk leaves of what it has visited: the bank records that have a counterpart are resolved, and no others;
so are the pending postings of a key whose postings agree; a key whose postings do not agree has failed and is left. -/
structure Resolves (t : Tolerance) (s : Sweep) (before after : Store) (result : SweepResult) : Prop where
  processed : result.processed = (s.listed before).length
  records : ∀ r, .record r ∈ s.listed before →
    ((∃ r' ∈ after.bank, r'.id = r.id ∧ r'.review.resolved = true) ↔
      ∃ g, GroupOf t before r.goalId g ∧ LedgerCounterpart t r g)
  agreeing : ∀ key, .group key ∈ s.listed before → Agreeing before key →
    ∃ g first tag, Group.build key (before.postingsByKey [key]) = .ok g ∧ FirstPending before key first ∧
      first.review.tag = some tag ∧
      ((∀ p, PendingPosting before key p → ∃ p' ∈ after.ledger, p'.id = p.id ∧ p'.review.resolved = true) ↔
        ∃ r ∈ before.bank, r.goalId = g.goalId ∧ BankCounterpart t tag g r)
  disagreeing : ∀ key, .group key ∈ s.listed before → ¬Agreeing before key →
    key ∈ result.errors.map RecordError.recordId ∧
      after.ledger.filter (fun p => keyOf p = key) = before.ledger.filter fun p => keyOf p = key

section Chunk

variable {now : Timestamp} {batchId : String} {details : List ResolvedVariance} {store : Store}

theorem resolved_record_iff (hs : store.Sound) {r : BankRecord} (hr : r ∈ store.bank)
    (hunresolved : r.review.resolved = false) :
    (∃ r' ∈ (resolvedStore now batchId details store).bank, r'.id = r.id ∧ r'.review.resolved = true) ↔
      (Side.bank, r.id) ∈ details.map fun v => (v.side, v.recordId) := by
  rw [← not_iff_not, ← told_eq_none]
  constructor
  · intro hnone
    cases hfound : told details .bank r.id with
    | none => rfl
    | some v =>
        refine absurd ⟨_, List.mem_map_of_mem hr, rfl, ?_⟩ hnone
        rw [resolvedRecord, hfound]
        rfl
  · rintro hnone ⟨r', hr', hid, hresolved⟩
    obtain ⟨x, hx, rfl⟩ := List.mem_map.mp hr'
    obtain rfl := Lookup.eq_of_name hs.bank_once hx hr hid
    rw [resolvedRecord_of_none hnone, hunresolved] at hresolved
    cases hresolved

theorem resolved_postings_iff (hs : store.Sound) {key : String} {first : Posting}
    (hfirst : PendingPosting store key first) :
    (∀ p, PendingPosting store key p →
        ∃ p' ∈ (resolvedStore now batchId details store).ledger, p'.id = p.id ∧ p'.review.resolved = true) ↔
      (Side.ledger, key) ∈ details.map fun v => (v.side, v.recordId) := by
  constructor
  · intro hall
    obtain ⟨p', hp', hid, hresolved⟩ := hall first hfirst
    obtain ⟨p, hp, rfl⟩ := List.mem_map.mp hp'
    have hkept : (resolvedPosting now batchId details p).id = p.id := by
      unfold resolvedPosting
      split <;> rfl
    obtain rfl := Lookup.eq_of_name hs.ledger_once hp hfirst.1 (hkept.symm.trans hid)
    by_contra hnot
    rw [← hfirst.2.1] at hnot
    rw [resolvedPosting_of_none (told_eq_none.mpr hnot), hfirst.2.2.1] at hresolved
    cases hresolved
  · rintro htold p ⟨hp, hkey, hpending⟩
    refine ⟨_, List.mem_map_of_mem hp, ?_⟩
    cases hfound : told details .ledger (keyOf p) with
    | none => exact absurd (hkey ▸ htold) (told_eq_none.mp hfound)
    | some v =>
        rw [resolvedPosting, if_pos (isPending_iff.mpr hpending), hfound]
        exact ⟨rfl, rfl⟩

theorem kept_postings {key : String} (hnot : (Side.ledger, key) ∉ details.map fun v => (v.side, v.recordId)) :
    (resolvedStore now batchId details store).ledger.filter (fun p => keyOf p = key) =
      store.ledger.filter fun p => keyOf p = key := by
  have hkeys : (fun p => decide (keyOf p = key)) ∘ resolvedPosting now batchId details =
      fun p => decide (keyOf p = key) := funext fun p => congrArg (fun k => decide (k = key)) (resolvedPosting_key _ p)
  have hkept : (store.ledger.filter fun p => keyOf p = key).map (resolvedPosting now batchId details) =
      (store.ledger.filter fun p => keyOf p = key).map id := by
    refine List.map_congr_left fun p hp => resolvedPosting_of_none (told_eq_none.mpr ?_)
    rwa [of_decide_eq_true (List.mem_filter.mp hp).2]
  rw [resolvedStore, List.filter_map, hkeys, hkept, List.map_id]

theorem told_of_entry {entries : List Entry}
    (hnamed : ∀ entry ∈ entries, ∀ v, entry.resolved? = some v → (v.side, v.recordId) = entry.1.name)
    (honce : (entries.map fun entry => entry.1.name).Nodup) {entry : Entry} (hentry : entry ∈ entries) :
    entry.1.name ∈ ((entries.filterMap Entry.resolved?).map fun v => (v.side, v.recordId)) ↔
      ∃ v, entry.2 = .ok (some v) := by
  constructor
  · intro htold
    obtain ⟨v, hv, hname⟩ := List.mem_map.mp htold
    obtain ⟨other, hother, hresolved⟩ := List.mem_filterMap.mp hv
    have hsame : other.1.name = entry.1.name := (hnamed other hother v hresolved).symm.trans hname
    obtain rfl := List.inj_on_of_nodup_map honce hother hentry hsame
    exact ⟨v, Entry.outcome_of_resolved hresolved⟩
  · rintro ⟨v, hv⟩
    have hresolved : entry.resolved? = some v := by
      unfold Entry.resolved?
      rw [hv]
    rw [← hnamed entry hentry v hresolved]
    exact List.mem_map_of_mem (List.mem_filterMap.mpr ⟨entry, hentry, hresolved⟩)

end Chunk

/-! ### The tasks of a chunk -/

/-- A chunk tells of a task just if a visit that finds it as it was at first resolves it. -/
structure Settled (t : Tolerance) (now : Timestamp) (s : Sweep) (store : Store) (details : List ResolvedVariance)
    (task : Task) (m : Memory) : Prop where
  untouched : Untouched task store m.store
  told : task.name ∈ (details.map fun v => (v.side, v.recordId)) ↔
    ∃ v, (task.perform none t now s.batchId m).1 = .ok (some v)

section Listed

variable {t : Tolerance} {now : Timestamp} {s : Sweep} {store : Store} {m : Memory} {details : List ResolvedVariance}

theorem record_resolves (hs : store.Sound) (hmoderate : store.Moderate) {r : BankRecord}
    (hr : .record r ∈ s.listed store) (hsettled : Settled t now s store details (.record r) m) :
    (∃ r' ∈ (resolvedStore now s.batchId details store).bank, r'.id = r.id ∧ r'.review.resolved = true) ↔
      ∃ g, GroupOf t store r.goalId g ∧ LedgerCounterpart t r g := by
  have hmem := listed_stored hr
  have hunresolved : r.review.resolved = false := by
    obtain ⟨x, hx, hid, hunresolved, -⟩ := listed_pending hr
    exact Lookup.eq_of_name hs.bank_once hx hmem hid ▸ hunresolved
  rw [resolved_record_iff hs hmem hunresolved]
  exact hsettled.told.trans (perform_record_iff hs hmoderate hsettled.untouched.plain (hmoderate.bank r hmem))

theorem group_resolves (hs : store.Sound) (hmoderate : store.Moderate) {key : String}
    (hkey : .group key ∈ s.listed store)
    (hsettled : Settled t now s store details (.group key) m) (hagreeing : Agreeing store key) :
    ∃ g first tag, Group.build key (store.postingsByKey [key]) = .ok g ∧ FirstPending store key first ∧
      first.review.tag = some tag ∧
      ((∀ p, PendingPosting store key p →
          ∃ p' ∈ (resolvedStore now s.batchId details store).ledger, p'.id = p.id ∧ p'.review.resolved = true) ↔
        ∃ r ∈ store.bank, r.goalId = g.goalId ∧ BankCounterpart t tag g r) := by
  have hpending : Pending store s.range .ledger key := listed_pending hkey
  obtain ⟨p, hp, hpkey, hunresolved, htag, -⟩ := hpending
  obtain ⟨first, tag, hfirst, hfirstTag, hhead⟩ := exists_firstPending ⟨hp, hpkey, hunresolved, htag⟩
  obtain ⟨-, g, hbuild, hbounded⟩ | ⟨hnot, -⟩ := build_postings hmoderate hp hpkey
  · have htagged : taggedGroup key (store.postingsByKey [key]) = .ok (some (tag, g)) := by
      rw [taggedGroup, hhead, hbuild]
      rfl
    refine ⟨g, first, tag, hbuild, hfirst, hfirstTag, ?_⟩
    rw [resolved_postings_iff hs hfirst.pending]
    exact hsettled.told.trans (perform_group_agreeing hs hmoderate hsettled.untouched htagged hbounded)
  · exact absurd hagreeing hnot

/-- The visit of a key whose postings do not agree fails. -/
theorem group_fails (hmoderate : store.Moderate) {key : String} (hkey : .group key ∈ s.listed store)
    (huntouched : Untouched (.group key) store m.store) (hdisagreeing : ¬Agreeing store key) :
    ∃ failure, ((Task.group key).perform none t now s.batchId m).1 = .error failure := by
  have hpending : Pending store s.range .ledger key := listed_pending hkey
  obtain ⟨p, hp, hpkey, hunresolved, htag, -⟩ := hpending
  obtain ⟨first, tag, -, -, hhead⟩ := exists_firstPending ⟨hp, hpkey, hunresolved, htag⟩
  obtain ⟨hagreeing, -⟩ | ⟨-, problem, hbuild⟩ := build_postings hmoderate hp hpkey
  · exact absurd hagreeing hdisagreeing
  · have htagged : taggedGroup key (store.postingsByKey [key]) = .error (.invalid problem) := by
      rw [taggedGroup, hhead, hbuild]
      rfl
    exact ⟨_, congrArg Prod.fst (perform_group_disagreeing huntouched htagged)⟩

end Listed

/-- What visits of the listed tasks leave, where no save fails, and what a chunk notes of them. -/
theorem resolves_of_performed {t : Tolerance} {now : Timestamp} {s : Sweep} {m m' : Memory} (hm : m.depth = 0)
    (hs : m.store.Sound) (hmoderate : m.store.Moderate) {entries : List Entry}
    (hperform : performAll none t now s.batchId (s.listed m.store) m = (entries, m')) (remaining : Nat) :
    Resolves t s m.store m'.store ((s.noted entries).close remaining) := by
  have hstored : ∀ task ∈ s.listed m.store, task.Stored m.store := fun task htask =>
    worklist_stored s m.store task ((listed_sublist s m.store).subset htask)
  have htasks := performAll_tasks none t now s.batchId (s.listed m.store) m
  have hvisits := performAll_visits none t now s.batchId (s.listed m.store) hm
  have hfound := performAll_entry t now s.batchId hs hstored (nodup_listed_names s hs)
  rw [hperform] at htasks hvisits hfound
  obtain ⟨honce, hafter⟩ := hvisits.of_listed hs htasks
  -- Each task has been visited, and has found its record or key as it was at first.
  have hentry : ∀ task ∈ s.listed m.store, ∃ found : Memory,
      (task, (task.perform none t now s.batchId found).1) ∈ entries ∧
        Settled t now s m.store (entries.filterMap Entry.resolved?) task found := by
    intro task htask
    rw [← htasks] at htask
    obtain ⟨entry, hentry, rfl⟩ := List.mem_map.mp htask
    obtain ⟨found, huntouched, houtcome⟩ := hfound _ hentry
    refine ⟨found, ?_, huntouched, ?_⟩
    · rw [houtcome]
      exact hentry
    · rw [houtcome]
      exact told_of_entry hvisits.named honce hentry
  exact {
    processed := by
      rw [← htasks, List.length_map]
      exact noted_processed s entries
    records := by
      intro r hr
      obtain ⟨found, -, hsettled⟩ := hentry _ hr
      rw [hafter]
      exact record_resolves hs hmoderate hr hsettled
    agreeing := by
      intro key hkey hagreeing
      obtain ⟨found, -, hsettled⟩ := hentry _ hkey
      rw [hafter]
      exact group_resolves hs hmoderate hkey hsettled hagreeing
    disagreeing := by
      intro key hkey hdisagreeing
      obtain ⟨found, hin, hsettled⟩ := hentry _ hkey
      obtain ⟨failure, hfailure⟩ := group_fails (t := t) (m := found) hmoderate hkey hsettled.untouched hdisagreeing
      refine ⟨?_, ?_⟩
      · change key ∈ (s.noted entries).errors.map RecordError.recordId
        rw [hfailure] at hin
        rw [noted_errors]
        exact List.mem_map.mpr ⟨_, List.mem_filterMap.mpr ⟨_, hin, rfl⟩, rfl⟩
      · rw [hafter]
        refine kept_postings fun htold => ?_
        obtain ⟨v, hv⟩ := hsettled.told.mp htold
        rw [hfailure] at hv
        cases hv }

/-- **Where no save fails, a chunk resolves the visited records that have a counterpart, and no others.** -/
theorem run_resolves (t : Tolerance) (now : Timestamp) (s : Sweep) {store : Store} (hs : store.Sound)
    (hmoderate : store.Moderate) :
    ∃ result final, Memory.repository.effect (run t now s) (.ofStore store) = (.ok result, final) ∧
      Resolves t s store final.store result := by
  obtain ⟨entries, final, hperform⟩ : ∃ entries final,
      performAll none t now s.batchId (s.listed store) (.ofStore store) = (entries, final) := ⟨_, _, rfl⟩
  have hlistings : ∀ f ∈ (none : Option Faults), f.queries = false := fun f hf => by cases hf
  have hrun : (Memory.under none).effect (run t now s) (.ofStore store) = _ := effect_run hlistings t now hs hperform
  exact ⟨_, final, hrun, resolves_of_performed (m := .ofStore store) rfl hs hmoderate hperform _⟩

namespace Sample

theorem moderate_store : store.Moderate := by
  have hamount : Decimal.Moderate (.finite false 100 0) := ⟨rfl, by norm_num [Decimal.value, Decimal.signed]⟩
  exact ⟨fun r hr => List.mem_singleton.mp hr ▸ hamount, fun p hp => List.mem_singleton.mp hp ▸ hamount⟩

end Sample

/-- The record and the posting are each other's counterpart: both are resolved. -/
theorem run_resolves_sample :
    ∃ result final, Memory.repository.effect (run {} ⟨Sample.monday, 12, 0, 0, 0, some 0⟩ { size := 2 })
        (.ofStore Sample.store) = (.ok result, final) ∧
      result.details.map ResolvedVariance.recordId = ["first", "key"] ∧
      Resolves {} { size := 2 } Sample.store final.store result := by
  have hsound : Sample.store.Sound := ⟨by decide, by decide, by decide +kernel⟩
  obtain ⟨result, final, hrun, hresolves⟩ := run_resolves {} ⟨Sample.monday, 12, 0, 0, 0, some 0⟩
    (s := { size := 2 }) hsound Sample.moderate_store
  have houtcome : (Memory.repository.effect (run {} ⟨Sample.monday, 12, 0, 0, 0, some 0⟩ { size := 2 })
      (.ofStore Sample.store)).1.toOption.map (fun result => result.details.map ResolvedVariance.recordId) =
      some ["first", "key"] := by decide +kernel
  rw [hrun] at houtcome
  exact ⟨result, final, hrun, Option.some.inj houtcome, hresolves⟩

end GoalReconciliation.Sweep

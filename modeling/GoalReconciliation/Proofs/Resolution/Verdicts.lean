import GoalReconciliation.Proofs.Resolution.Resolving
import GoalReconciliation.Proofs.Store.Arrangement

/-!
# What a chunk that visits everything leaves

* `Task.verdict` : why a record or a key is resolved, if it is, by the candidates of its goal as they are stored;
* `perform_verdict` : a visit resolves its task for this reason, or not at all, whatever was resolved before it;
* `told_entry` : what a chunk tells of a task is what its visit has found;
* `reasonOf`, `reasonOfKey`, `judged` : the reasons for all tagged records behind the cursors, and a store with them;
* `reasonOf_congr`, `reasonOfKey_congr` : what these reasons depend on;
* `run_judges` : **where no save fails, a chunk with room for all tagged records leaves each with its reason**.
-/

namespace GoalReconciliation.Sweep

set_option autoImplicit false

open Repository (effect_bind)
open Store (keyOf)

/-! ## Verdicts -/

def candidates? (t : Tolerance) (store : Store) (goal : String) : Option Candidates :=
  (fresh none t (.ofStore store) goal).toOption

/-- Why a task is resolved, if it is, by what is stored. -/
def Task.verdict (t : Tolerance) (store : Store) : Task → Option String
  | record r => do
    let c ← candidates? t store r.goalId
    (c.reasonForRecord t r).toOption.join
  | group key => do
    let (tag, g) ← (taggedGroup key (store.postingsByKey [key])).toOption.join
    let c ← candidates? t store g.goalId
    (c.reasonForGroup t tag g).toOption.join

section Stored

variable {t : Tolerance} {key : String}

theorem candidates?_eq (t : Tolerance) (store : Store) (goal : String) :
    candidates? t store goal = (candidateGroups t (store.postings (some goal) none)).toOption.map fun groups =>
      ⟨store.bankRecords (some goal) none, groups⟩ := by
  unfold candidates? fresh
  change ((candidateGroups t (store.postings (some goal) none)) >>= _).toOption = _
  cases candidateGroups t (store.postings (some goal) none) <;> rfl

theorem taggedGroup_first {postings : List Posting} {tag : ReviewTag} {g : Group}
    (h : taggedGroup key postings = .ok (some (tag, g))) :
    ∃ first ∈ postings, g.goalId = first.goalId ∧ g.transactionType = first.transactionType := by
  unfold taggedGroup at h
  split at h
  · cases h
  · obtain ⟨built, hbuild, hpair⟩ := Fallible.map_eq_ok.mp h
    obtain rfl : built = g := congrArg Prod.snd (Option.some.inj hpair)
    cases postings with
    | nil => cases hbuild
    | cons first rest =>
        obtain ⟨sums, -, hbuild⟩ := Fallible.bind_eq_ok.mp hbuild
        obtain rfl := Fallible.pure_eq_ok.mp hbuild
        exact ⟨first, List.mem_cons_self, rfl, rfl⟩

end Stored

section Visits

variable {t : Tolerance} {now : Timestamp} {batchId : String} {store : Store} {m : Memory}

def reason? (outcome : Except Failure (Option ResolvedVariance)) : Option String :=
  outcome.toOption.join.map ResolvedVariance.reason

theorem reason?_resolveRecord (r : BankRecord) (c : Candidates) :
    reason? ((Memory.under none).effect (resolveRecord t now batchId r c) m).1 =
      (c.reasonForRecord t r).toOption.join := by
  unfold resolveRecord
  cases hreason : c.reasonForRecord t r with
  | error fault => rfl
  | ok found =>
      cases found with
      | none => rfl
      | some reason =>
          cases htag : r.review.tag with
          | none =>
              unfold Candidates.reasonForRecord at hreason
              rw [htag] at hreason
              cases hreason
          | some tag => rfl

theorem reason?_resolveGroup (hm : m.store.Sound) (key : String) (g : Group) (tag : ReviewTag) (c : Candidates) :
    reason? ((Memory.under none).effect
        (resolveGroup t now batchId g tag (pending (m.store.postingsByKey [key])) c) m).1 =
      (c.reasonForGroup t tag g).toOption.join := by
  unfold resolveGroup
  cases c.reasonForGroup t tag g with
  | error fault => rfl
  | ok found =>
      cases found with
      | none => rfl
      | some reason =>
          obtain ⟨m', hsave, -⟩ := effect_savePending now batchId hm
            (v := ⟨key, .ledger, g.goalId, g.sourceId, g.amount, tag, reason⟩) rfl
          exact congrArg reason? (congrArg Prod.fst (effect_bind hsave))

/-- What a visit finds with the candidates of a goal does not depend on reviews that were written before it. -/
theorem reason?_attemptWith (hplain : m.store.plain = store.plain) (goal : String)
    {visit : Candidates → Procedure (Option ResolvedVariance)} (hvisit : ∀ c, visit c.plain = visit c)
    {why : Candidates → Option String} (hwhy : ∀ c, reason? ((Memory.under none).effect (visit c) m).1 = why c) :
    reason? (attemptWith none t goal visit m).1 = (candidates? t store goal).bind why := by
  unfold attemptWith candidates?
  rw [fresh_plain (m := Memory.ofStore store) hplain]
  cases fresh none t (Memory.ofStore store) goal with
  | error failure => rfl
  | ok c =>
      change reason? ((Memory.under none).effect (visit c.plain) m).1 = why c
      rw [hvisit, hwhy]

/-- **A visit resolves its task for the reason that the stored candidates give**, or not at all. -/
theorem perform_verdict (hs : store.Sound) {task : Task} (huntouched : Untouched task store m.store) :
    reason? (task.perform none t now batchId m).1 = task.verdict t store := by
  cases task with
  | record r =>
      exact reason?_attemptWith huntouched.plain r.goalId (resolveRecord_plain t now batchId r)
        fun c => reason?_resolveRecord r c
  | group key =>
      unfold Task.perform Task.verdict
      simp only []
      rw [huntouched.postingsByKey]
      cases htagged : taggedGroup key (store.postingsByKey [key]) with
      | error failure => rfl
      | ok found =>
          cases found with
          | none => rfl
          | some pair =>
              obtain ⟨tag, g⟩ := pair
              rw [← huntouched.postingsByKey]
              exact reason?_attemptWith huntouched.plain g.goalId (resolveGroup_plain t now batchId g tag _)
                fun c => reason?_resolveGroup (hs.of_plain huntouched.plain) key g tag c

/-! ## What is told -/

section Told

variable {entries : List Entry}
  (hnamed : ∀ entry ∈ entries, ∀ v, entry.resolved? = some v → (v.side, v.recordId) = entry.1.name)
  (honce : (entries.map fun entry => entry.1.name).Nodup)
include hnamed honce

theorem told_entry {entry : Entry} (hentry : entry ∈ entries) :
    told (entries.filterMap Entry.resolved?) entry.1.name.1 entry.1.name.2 = entry.resolved? := by
  cases hresolved : entry.resolved? with
  | none =>
      refine told_eq_none.mpr fun htold => ?_
      obtain ⟨v, hv⟩ := (told_of_entry hnamed honce hentry).mp htold
      rw [Entry.resolved?, hv] at hresolved
      cases hresolved
  | some v =>
      have hdetails : ((entries.filterMap Entry.resolved?).map fun v => (v.side, v.recordId)).Nodup :=
        honce.sublist (map_filterMap_sublist hnamed)
      have hname := hnamed entry hentry v hresolved
      refine (told_iff hdetails).mpr ⟨List.mem_filterMap.mpr ⟨entry, hentry, hresolved⟩, ?_, ?_⟩
      · exact congrArg Prod.fst hname
      · exact congrArg Prod.snd hname

omit honce in
theorem told_of_unvisited {side : Side} {name : String}
    (hnot : (side, name) ∉ entries.map fun entry => entry.1.name) :
    told (entries.filterMap Entry.resolved?) side name = none :=
  told_eq_none.mpr fun htold => hnot ((map_filterMap_sublist hnamed).subset htold)

end Told

end Visits

/-! ## A whole sweep in one chunk -/

section Judged

variable (t : Tolerance) (now : Timestamp) (s : Sweep) (store : Store)

/-- Why a sweep resolves a bank record, if it does: it has to be tagged and behind the cursor. -/
def reasonOf (r : BankRecord) : Option String :=
  if (s.bankFilter s.bankCursor).selects r.review r.date && (s.bankFilter s.bankCursor).isBehind r.id
  then (Task.record r).verdict t store else none

/-- Why a sweep resolves the pending postings of a key, if it does. -/
def reasonOfKey (key : String) : Option String :=
  if key ∈ store.taggedKeys (s.groupFilter s.groupCursor) then (Task.group key).verdict t store else none

def judgedReview (reason : Option String) (review : Review) : Review :=
  match reason with
  | some reason => review.resolve reason s.batchId now
  | none => review

def judgedRecord (r : BankRecord) : BankRecord :=
  { r with review := s.judgedReview now (s.reasonOf t store r) r.review }

def judgedPosting (p : Posting) : Posting :=
  if isPending p then { p with review := s.judgedReview now (s.reasonOfKey t store (keyOf p)) p.review } else p

/-- A store with the reason of each tagged record behind the cursors written. -/
def judged : Store :=
  ⟨store.bank.map (s.judgedRecord t now store), store.ledger.map (s.judgedPosting t now store)⟩

theorem judgedPosting_plain (p : Posting) : (s.judgedPosting t now store p).plain = p.plain := by
  unfold judgedPosting
  split <;> rfl

theorem judged_plain : (s.judged t now store).plain = store.plain := by
  have hposting : Posting.plain ∘ s.judgedPosting t now store = Posting.plain :=
    funext (judgedPosting_plain t now s store)
  rw [judged, Store.plain, Store.plain, List.map_map, List.map_map, hposting]
  rfl

/-! ### What a reason depends on -/

section Reasons

variable {t s store} {store' : Store}

theorem reasonOf_congr {r : BankRecord}
    (h : candidateGroups t (store'.postings (some r.goalId) none) = candidateGroups t (store.postings (some r.goalId) none)) :
    s.reasonOf t store' r = s.reasonOf t store r := by
  have hverdict : (Task.record r).verdict t store' = (Task.record r).verdict t store := by
    unfold Task.verdict
    simp only []
    rw [candidates?_eq, candidates?_eq, h]
    cases candidateGroups t (store.postings (some r.goalId) none) <;> rfl
  rw [reasonOf, reasonOf, hverdict]

/-- A key is judged by its postings, and by what the candidates of the goal of one of them make of its group. -/
theorem reasonOfKey_congr (hs : store.Sound) (hs' : store'.Sound) {key : String}
    (hkey : ∀ p, keyOf p = key → (p ∈ store'.ledger ↔ p ∈ store.ledger))
    (h : ∀ first ∈ store.ledger, keyOf first = key → ∀ (tag : ReviewTag) (g : Group),
      g.transactionType = first.transactionType →
      ((candidates? t store' first.goalId).bind fun c => (c.reasonForGroup t tag g).toOption.join) =
        (candidates? t store first.goalId).bind fun c => (c.reasonForGroup t tag g).toOption.join) :
    s.reasonOfKey t store' key = s.reasonOfKey t store key := by
  have hpostings : store'.postingsByKey [key] = store.postingsByKey [key] := by
    refine Sorting.newestFirst_eq_of_mem_iff (hs.ledger_once.sublist (List.filter_sublist.map _))
      (hs'.ledger_once.sublist (List.filter_sublist.map _)) fun p => ?_
    rw [List.mem_filter, List.mem_filter, List.contains_iff_mem, List.mem_singleton]
    exact and_congr_left (hkey p)
  have hverdict : (Task.group key).verdict t store' = (Task.group key).verdict t store := by
    unfold Task.verdict
    simp only []
    rw [hpostings]
    cases htagged : taggedGroup key (store.postingsByKey [key]) with
    | error failure => rfl
    | ok found =>
        cases found with
        | none => rfl
        | some pair =>
            obtain ⟨tag, g⟩ := pair
            obtain ⟨first, hfirst, hgoal, htype⟩ := taggedGroup_first htagged
            obtain ⟨hmem, hfirstKey⟩ := Store.mem_postingsByKey.mp hfirst
            have hwhy := h first hmem hfirstKey tag g htype
            rw [← hgoal] at hwhy
            exact hwhy
  have hlisted : key ∈ store'.taggedKeys (s.groupFilter s.groupCursor) ↔
      key ∈ store.taggedKeys (s.groupFilter s.groupCursor) := by
    rw [Store.mem_taggedKeys, Store.mem_taggedKeys]
    refine and_congr_left fun _ => exists_congr fun p => ?_
    constructor
    · rintro ⟨hp, hselected, hpKey⟩
      exact ⟨(hkey p hpKey).mp hp, hselected, hpKey⟩
    · rintro ⟨hp, hselected, hpKey⟩
      exact ⟨(hkey p hpKey).mpr hp, hselected, hpKey⟩
  unfold reasonOfKey
  exact if_congr hlisted hverdict rfl

end Reasons

variable {t now s store}

theorem resolvedReview_eq {found : Option ResolvedVariance} {reason : Option String}
    (h : found.map ResolvedVariance.reason = reason) (review : Review) :
    resolvedReview now s.batchId found review = s.judgedReview now reason review := by
  subst h
  cases found <;> rfl

theorem record_mem_worklist {r : BankRecord} :
    .record r ∈ s.worklist store ↔ r ∈ store.bank ∧
      ((s.bankFilter s.bankCursor).selects r.review r.date && (s.bankFilter s.bankCursor).isBehind r.id) = true := by
  rw [Bool.and_eq_true, ← and_assoc, ← Store.mem_taggedBank, worklist, List.mem_append]
  simp

theorem group_mem_worklist {key : String} :
    .group key ∈ s.worklist store ↔ key ∈ store.taggedKeys (s.groupFilter s.groupCursor) := by
  rw [worklist, List.mem_append]
  simp

/-- What visits of all tasks leave, as far as each finds its task as it was at first. -/
theorem resolvedStore_eq_judged (hs : store.Sound) {entries : List Entry}
    (htasks : entries.map Prod.fst = s.worklist store)
    (hnamed : ∀ entry ∈ entries, ∀ v, entry.resolved? = some v → (v.side, v.recordId) = entry.1.name)
    (hverdicts : ∀ entry ∈ entries, reason? entry.2 = entry.1.verdict t store) :
    resolvedStore now s.batchId (entries.filterMap Entry.resolved?) store = s.judged t now store := by
  have hnames : (entries.map fun entry => entry.1.name) = (s.worklist store).map Task.name := by
    rw [← htasks, List.map_map]
    rfl
  have honce : (entries.map fun entry => entry.1.name).Nodup := hnames ▸ nodup_worklist_names s hs
  have htold : ∀ task ∈ s.worklist store,
      (told (entries.filterMap Entry.resolved?) task.name.1 task.name.2).map ResolvedVariance.reason =
        task.verdict t store := by
    intro task htask
    rw [← htasks] at htask
    obtain ⟨entry, hentry, rfl⟩ := List.mem_map.mp htask
    rw [told_entry hnamed honce hentry, ← hverdicts entry hentry]
    obtain ⟨task, outcome⟩ := entry
    cases outcome <;> rfl
  refine congrArg₂ Store.mk (List.map_congr_left fun r hr => ?_) (List.map_congr_left fun p hp => ?_)
  · refine congrArg (fun review => { r with review := review }) (resolvedReview_eq ?_ _)
    unfold reasonOf
    split
    · rename_i hselected
      exact htold (.record r) (record_mem_worklist.mpr ⟨hr, hselected⟩)
    · rename_i hunselected
      have hunvisited : (Side.bank, r.id) ∉ entries.map fun entry => entry.1.name := by
        rw [hnames]
        intro hmem
        obtain ⟨task, htask, hname⟩ := List.mem_map.mp hmem
        cases task with
        | record x =>
            obtain ⟨hx, hselected⟩ := record_mem_worklist.mp htask
            obtain rfl := Lookup.eq_of_name hs.bank_once hx hr (congrArg Prod.snd hname)
            exact hunselected hselected
        | group key => cases hname
      rw [told_of_unvisited hnamed hunvisited]
      rfl
  · unfold resolvedPosting judgedPosting
    refine if_congr Iff.rfl (congrArg (fun review => { p with review := review }) (resolvedReview_eq ?_ _)) rfl
    unfold reasonOfKey
    split
    · rename_i hlisted
      exact htold (.group (keyOf p)) (group_mem_worklist.mpr hlisted)
    · rename_i hunlisted
      have hunvisited : (Side.ledger, keyOf p) ∉ entries.map fun entry => entry.1.name := by
        rw [hnames]
        intro hmem
        obtain ⟨task, htask, hname⟩ := List.mem_map.mp hmem
        cases task with
        | record x => cases hname
        | group key =>
            obtain rfl : key = keyOf p := congrArg Prod.snd hname
            exact hunlisted (group_mem_worklist.mp htask)
      rw [told_of_unvisited hnamed hunvisited]
      rfl

end Judged

/-- **Where no save fails, a chunk with room for all that is tagged leaves each record with its reason**, and all else as
it was. -/
theorem run_judges (t : Tolerance) (now : Timestamp) {s : Sweep} {store : Store} (hs : store.Sound)
    (hroom : ((s.worklist store).length : Int) ≤ s.size) :
    ∃ result final, Memory.repository.effect (run t now s) (.ofStore store) = (.ok result, final) ∧
      final.store = s.judged t now store := by
  have hlisted : s.listed store = s.worklist store := by
    rw [listed_eq_take (by omega), List.take_of_length_le (by omega)]
  obtain ⟨entries, final, hperform⟩ : ∃ entries final,
      performAll none t now s.batchId (s.listed store) (.ofStore store) = (entries, final) := ⟨_, _, rfl⟩
  have hlistings : ∀ f ∈ (none : Option Faults), f.queries = false := fun f hf => by cases hf
  have hrun : (Memory.under none).effect (run t now s) (.ofStore store) = _ := effect_run hlistings t now hs hperform
  refine ⟨_, final, hrun, ?_⟩
  have hstored : ∀ task ∈ s.listed store, task.Stored store := by
    rw [hlisted]
    exact worklist_stored s store
  have htasks := performAll_tasks none t now s.batchId (s.listed store) (.ofStore store)
  have hvisits := performAll_visits none t now s.batchId (s.listed store) (m := .ofStore store) rfl
  have hfound := performAll_entry t now s.batchId (m := .ofStore store) hs hstored (nodup_listed_names s hs)
  rw [hperform] at htasks hvisits hfound
  refine (hvisits.of_listed hs htasks).2.trans
    (resolvedStore_eq_judged hs (htasks.trans hlisted) hvisits.named fun entry hentry => ?_)
  obtain ⟨m', huntouched, houtcome⟩ := hfound entry hentry
  rw [← houtcome]
  exact perform_verdict hs huntouched

end GoalReconciliation.Sweep

import GoalReconciliation.Proofs.Resolution.Accounts
import GoalReconciliation.Proofs.Store.Listing

/-!
# One chunk of a sweep

* `worklist` : the tasks behind the cursors of a sweep; `listed_eq_take` : a chunk lists the first of them;
* `effect_run` : **a chunk performs the tasks that it lists, in turn, and counts those that its cursors leave**;
* `worklist_resume` : **from the cursors of a chunk, there is to do what it has not visited**, whatever its visits
  have changed.
-/

namespace GoalReconciliation.Sweep

set_option autoImplicit false

open Repository (effect_bind)

/-! ## What there is to do -/

/-- The tasks behind the cursors of a sweep. -/
def worklist (s : Sweep) (store : Store) : List Task :=
  (store.taggedBank (s.bankFilter s.bankCursor)).map .record ++
    (store.taggedKeys (s.groupFilter s.groupCursor)).map .group

/-- The tasks of one chunk: records up to its size, then keys as far as there is room. -/
def listed (s : Sweep) (store : Store) : List Task :=
  let records := Store.limited (some s.size) (store.taggedBank (s.bankFilter s.bankCursor))
  let room : Int := s.size - records.length
  let keys := if 0 < room then Store.limited (some room) (store.taggedKeys (s.groupFilter s.groupCursor)) else []
  records.map .record ++ keys.map .group

/-- A chunk takes as many tasks as it has room for. -/
theorem listed_eq_take {s : Sweep} (hsize : 0 ≤ s.size) (store : Store) :
    s.listed store = (s.worklist store).take s.size.toNat := by
  unfold listed worklist
  simp only []
  rw [Store.limited_eq_take hsize, List.take_append, ← List.map_take, ← List.map_take, List.length_map, List.length_take]
  congr 2
  split
  · rename_i hroom
    rw [Store.limited_eq_take (by omega)]
    congr 1
    omega
  · rename_i hroom
    have hfull : s.size.toNat - (store.taggedBank (s.bankFilter s.bankCursor)).length = 0 := by omega
    rw [hfull, List.take_zero]

theorem stored_of_taggedBank {store : Store} {f : TagFilter} {r : BankRecord} (h : r ∈ store.taggedBank f) :
    (Task.record r).Stored store :=
  Store.plain_mem_bank (Store.mem_taggedBank.mp h).1.1

theorem worklist_stored (s : Sweep) (store : Store) : ∀ task ∈ s.worklist store, task.Stored store := by
  refine List.forall_mem_append.mpr ⟨?_, ?_⟩
  · exact List.forall_mem_map.mpr fun r hr => stored_of_taggedBank hr
  · exact List.forall_mem_map.mpr fun key _ => trivial

/-! ## One chunk -/

def resume (s : Sweep) (result : SweepResult) : Sweep :=
  { s with bankCursor := result.bankCursor, groupCursor := result.groupCursor }

section Chunk

variable {faults : Option Faults} (hlistings : ∀ f ∈ faults, f.queries = false) (t : Tolerance) (now : Timestamp)
include hlistings

theorem effect_taggedBank (f : TagFilter) (limit : Option Int) (m : Memory) :
    (Memory.under faults).effect (Procedure.taggedBank f limit) m =
      (.ok (Store.limited limit (m.store.taggedBank f)), m) :=
  Memory.effect_query (show Memory.Answers faults (.taggedBank f limit) from hlistings) m

theorem effect_taggedBankCount (f : TagFilter) (m : Memory) :
    (Memory.under faults).effect (Procedure.taggedBankCount f) m = (.ok (m.store.taggedBank f).length, m) :=
  Memory.effect_query (show Memory.Answers faults (.taggedBankCount f) from hlistings) m

omit hlistings in
theorem effect_taggedKeys (f : TagFilter) (limit : Option Int) (m : Memory) :
    (Memory.under faults).effect (Procedure.taggedKeys f limit) m =
      (.ok (Store.limited limit (m.store.taggedKeys f)), m) :=
  Memory.effect_query (show Memory.Answers faults (.taggedKeys f limit) from fun _ _ => rfl) m

omit hlistings in
theorem effect_taggedKeyCount (f : TagFilter) (m : Memory) :
    (Memory.under faults).effect (Procedure.taggedKeyCount f) m = (.ok (m.store.taggedKeys f).length, m) :=
  Memory.effect_query (show Memory.Answers faults (.taggedKeyCount f) from fun _ _ => rfl) m

def finish (keys : List String) (result : SweepResult) (loaded : Loaded) (s : Sweep) : Procedure SweepResult := do
  let result ← visitGroups t now keys result loaded
  let records ← Procedure.taggedBankCount (s.bankFilter result.bankCursor)
  let groups ← Procedure.taggedKeyCount (s.groupFilter result.groupCursor)
  let result := result.close (records + groups)
  Procedure.report
    (.sweepCompleted result.batchId result.resolvedCount result.processed result.failed result.remaining)
    none s.actor
  return result

theorem effect_finish {keys : List String} {result : SweepResult} {loaded : Loaded} {s : Sweep} {m m' : Memory}
    {entries : List Entry} (hloaded : Faithful faults t loaded m) (hm : m.store.Sound)
    (hbatch : result.batchId = s.batchId)
    (hperform : performAll faults t now s.batchId (keys.map .group) m = (entries, m')) :
    (Memory.under faults).effect (finish t now keys result loaded s) m =
      (.ok ((entries.foldl noteEntry result).close
        ((s.resume (entries.foldl noteEntry result)).worklist m'.store).length), m') := by
  have hvisited := effect_visitGroups faults t now s.batchId keys hloaded hm hbatch
  rw [hperform] at hvisited
  unfold finish
  rw [effect_bind hvisited, effect_bind (effect_taggedBankCount hlistings _ m'),
    effect_bind (effect_taggedKeyCount _ m')]
  unfold worklist
  rw [List.length_append, List.length_map, List.length_map]
  rfl

/-- One chunk performs the tasks that it lists, in turn. -/
theorem effect_run {s : Sweep} {m m' : Memory} {entries : List Entry} (hm : m.store.Sound)
    (hperform : performAll faults t now s.batchId (s.listed m.store) m = (entries, m')) :
    (Memory.under faults).effect (run t now s) m =
      (.ok ((s.noted entries).close ((s.resume (s.noted entries)).worklist m'.store).length), m') := by
  unfold listed at hperform
  simp only [] at hperform
  generalize hrecords : Store.limited (some s.size) (m.store.taggedBank (s.bankFilter s.bankCursor)) = records
    at hperform
  have hstored : ∀ r ∈ records, (Task.record r).Stored m.store := by
    intro r hr
    rw [← hrecords] at hr
    exact stored_of_taggedBank ((Store.limited_sublist _ _).subset hr)
  have hplain := performAll_plain faults t now s.batchId hm (List.forall_mem_map.mpr hstored)
  have hbatch : s.start.batchId = s.batchId := rfl
  obtain ⟨loaded, hvisited, hloaded⟩ := effect_visitRecords faults t now s.batchId records (faithful_nil m) hm hstored
    hbatch
  -- The visits of bank records leave the listing of keys as it was.
  have hreviewed : Reviewed (fun _ => false) (s.groupFilter s.groupCursor).isBehind m.store
      (performAll faults t now s.batchId (records.map .record) m).2.store :=
    performAll_reviewed faults t now s.batchId hm (List.forall_mem_map.mpr hstored)
      (List.forall_mem_map.mpr fun _ _ => rfl)
  rw [performAll_append] at hperform
  obtain ⟨rfl, rfl⟩ := Prod.mk.inj hperform
  unfold noted
  rw [List.foldl_append]
  unfold start at hvisited ⊢
  unfold run
  rw [effect_bind (effect_taggedBank hlistings _ _ m), hrecords, effect_bind hvisited]
  simp only []
  split
  · rw [effect_bind (effect_taggedKeys _ _ _), hreviewed.taggedKeys]
    exact effect_finish hlistings t now hloaded (hm.of_plain hplain) (foldl_noteEntry_batchId _ _) rfl
  · exact effect_finish hlistings t now hloaded (hm.of_plain hplain) (foldl_noteEntry_batchId _ _) rfl

end Chunk

/-! ## From one chunk to the next -/

theorem note_cursors (result : SweepResult) (id : String) (outcome : Except Failure (Option ResolvedVariance)) :
    (result.note id outcome).bankCursor = result.bankCursor ∧
      (result.note id outcome).groupCursor = result.groupCursor := by
  unfold SweepResult.note
  split <;> exact ⟨rfl, rfl⟩

theorem noted_records {records : List BankRecord} {entries : List Entry}
    (h : entries.map Prod.fst = records.map .record) (result : SweepResult) :
    (entries.foldl noteEntry result).bankCursor =
        (records.map BankRecord.id).foldl (fun _ name => some name) result.bankCursor ∧
      (entries.foldl noteEntry result).groupCursor = result.groupCursor := by
  induction records generalizing entries result with
  | nil =>
      obtain rfl := List.map_eq_nil_iff.mp h
      exact ⟨rfl, rfl⟩
  | cons r rest ih =>
      obtain ⟨entry, others, rfl, htask, hothers⟩ := List.map_eq_cons_iff.mp h
      obtain ⟨task, outcome⟩ := entry
      obtain rfl : task = .record r := htask
      obtain ⟨hbank, hgroup⟩ := ih hothers (noteEntry result (.record r, outcome))
      exact ⟨hbank, hgroup.trans (note_cursors _ _ _).2⟩

theorem noted_keys {keys : List String} {entries : List Entry} (h : entries.map Prod.fst = keys.map .group)
    (result : SweepResult) :
    (entries.foldl noteEntry result).bankCursor = result.bankCursor ∧
      (entries.foldl noteEntry result).groupCursor =
        keys.foldl (fun _ name => some name) result.groupCursor := by
  induction keys generalizing entries result with
  | nil =>
      obtain rfl := List.map_eq_nil_iff.mp h
      exact ⟨rfl, rfl⟩
  | cons key rest ih =>
      obtain ⟨entry, others, rfl, htask, hothers⟩ := List.map_eq_cons_iff.mp h
      obtain ⟨task, outcome⟩ := entry
      obtain rfl : task = .group key := htask
      obtain ⟨hbank, hgroup⟩ := ih hothers (noteEntry result (.group key, outcome))
      exact ⟨hbank.trans (note_cursors _ _ _).1, hgroup⟩

section Next

variable (faults : Option Faults) (t : Tolerance) (now : Timestamp)

theorem noted_bankCursor (s : Sweep) (xs : List BankRecord) (ks : List String) (m : Memory) :
    (s.noted (performAll faults t now s.batchId (xs.map .record ++ ks.map .group) m).1).bankCursor =
      (xs.map BankRecord.id).foldl (fun _ name => some name) s.bankCursor := by
  rw [performAll_append, noted, List.foldl_append]
  exact (noted_keys (performAll_tasks faults t now s.batchId _ _) _).1.trans
    (noted_records (performAll_tasks faults t now s.batchId _ _) _).1

theorem noted_groupCursor (s : Sweep) (xs : List BankRecord) (ks : List String) (m : Memory) :
    (s.noted (performAll faults t now s.batchId (xs.map .record ++ ks.map .group) m).1).groupCursor =
      ks.foldl (fun _ name => some name) s.groupCursor := by
  rw [performAll_append, noted, List.foldl_append, (noted_keys (performAll_tasks faults t now s.batchId _ _) _).2]
  exact congrArg (ks.foldl fun _ name => some name) (noted_records (performAll_tasks faults t now s.batchId _ _) _).2

/-- The cursors that visits return leave what they have not visited, whatever they have changed. -/
theorem worklist_past {s : Sweep} {m : Memory} (hm : m.store.Sound) {xs ys : List BankRecord} {ks ls : List String}
    (hbank : m.store.taggedBank (s.bankFilter s.bankCursor) = xs ++ ys)
    (hkeys : m.store.taggedKeys (s.groupFilter s.groupCursor) = ks ++ ls) :
    (s.resume (s.noted (performAll faults t now s.batchId (xs.map .record ++ ks.map .group) m).1)).worklist
        (performAll faults t now s.batchId (xs.map .record ++ ks.map .group) m).2.store =
      ys.map .record ++ ls.map .group := by
  have hrecords := Store.ascending_taggedBank hm (s.bankFilter s.bankCursor)
  have hgroups := Store.ascending_taggedKeys m.store (s.groupFilter s.groupCursor)
  rw [hbank] at hrecords
  rw [hkeys] at hgroups
  have hstored : ∀ task ∈ xs.map Task.record ++ ks.map Task.group, task.Stored m.store := by
    refine fun task htask => worklist_stored s m.store task ?_
    rw [worklist, hbank, hkeys, List.map_append, List.map_append]
    have hsublist := (List.sublist_append_left (xs.map Task.record) (ys.map .record)).append
      (List.sublist_append_left (ks.map Task.group) (ls.map .group))
    exact hsublist.subset htask
  have havoids : ∀ task ∈ xs.map Task.record ++ ks.map Task.group, task.Avoids
      ((s.bankFilter s.bankCursor).past (xs.map BankRecord.id)).isBehind
      ((s.groupFilter s.groupCursor).past ks).isBehind := by
    refine List.forall_mem_append.mpr ⟨?_, ?_⟩
    · refine List.forall_mem_map.mpr fun r hr => ?_
      have hasc : Ascending BankRecord.id xs := hrecords.sublist (List.sublist_append_left xs ys)
      exact TagFilter.isBehind_passed hasc.names (List.mem_map_of_mem hr)
    · refine List.forall_mem_map.mpr fun key hkey => ?_
      exact TagFilter.isBehind_passed (hgroups.sublist (List.sublist_append_left ks ls)) hkey
  have hreviewed := performAll_reviewed faults t now s.batchId hm hstored havoids
  unfold worklist resume
  simp only [noted_bankCursor, noted_groupCursor]
  congr 2
  · exact hreviewed.taggedBank.trans (Store.taggedBank_past hm hbank)
  · exact hreviewed.taggedKeys.trans (Store.taggedKeys_past hkeys)

/-- A chunk leaves for the next one what it has not visited. -/
theorem worklist_resume {s : Sweep} {m m' : Memory} {entries : List Entry} (hm : m.store.Sound) (n : Nat)
    (hperform : performAll faults t now s.batchId ((s.worklist m.store).take n) m = (entries, m')) :
    (s.resume (s.noted entries)).worklist m'.store = (s.worklist m.store).drop n := by
  unfold worklist at hperform ⊢
  rw [List.take_append, ← List.map_take, ← List.map_take, List.length_map] at hperform
  rw [List.drop_append, ← List.map_drop, ← List.map_drop, List.length_map]
  generalize n - (m.store.taggedBank (s.bankFilter s.bankCursor)).length = k at hperform ⊢
  have hbank := (List.take_append_drop n (m.store.taggedBank (s.bankFilter s.bankCursor))).symm
  have hkeys := (List.take_append_drop k (m.store.taggedKeys (s.groupFilter s.groupCursor))).symm
  have hpast := worklist_past faults t now hm hbank hkeys
  rw [hperform] at hpast
  exact hpast

end Next

end GoalReconciliation.Sweep

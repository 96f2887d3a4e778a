import GoalReconciliation.Proofs.Related
import GoalReconciliation.Proofs.Resolution.Chunks

/-!
# A sweep in chunks is one sweep

* `Pending` : the records and keys that a sweep is about;
* `Calls` : chunks from the cursors that the ones before returned, until nothing is left;
* `run_in_chunks` : **whatever the size of the chunks, they come to an end, visit what is pending exactly once, and
  together tell and leave what a single large chunk does**.
-/

namespace GoalReconciliation.Sweep

set_option autoImplicit false

/-! ## What a sweep is about -/

/-- The records and keys that a sweep is about: unresolved ones with a tag of their side, on a day of its range. -/
def Pending (store : Store) (range : Option DateRange) : Side → String → Prop
  | .bank, id => ∃ r ∈ store.bank, r.id = id ∧ r.review.resolved = false ∧
      (r.review.tag = some .missingInLedger ∨ r.review.tag = some .timingDifference) ∧
      DateRange.admits range r.date = true
  | .ledger, key => ∃ p ∈ store.ledger, Store.keyOf p = key ∧ p.review.resolved = false ∧
      (p.review.tag = some .missingInBank ∨ p.review.tag = some .timingDifference) ∧
      DateRange.admits range p.date = true

theorem bankFilter_selects {s : Sweep} {cursor : Option String} {review : Review} {date : Date} :
    (s.bankFilter cursor).selects review date = true ↔ review.resolved = false ∧
      (review.tag = some .missingInLedger ∨ review.tag = some .timingDifference) ∧
      DateRange.admits s.range date = true := by
  rw [TagFilter.selects_iff]
  simp [bankFilter, ReviewTag.sweptOnBank]

theorem groupFilter_selects {s : Sweep} {cursor : Option String} {review : Review} {date : Date} :
    (s.groupFilter cursor).selects review date = true ↔ review.resolved = false ∧
      (review.tag = some .missingInBank ∨ review.tag = some .timingDifference) ∧
      DateRange.admits s.range date = true := by
  rw [TagFilter.selects_iff]
  simp [groupFilter, ReviewTag.sweptOnLedger]

/-- Without cursors, there is a task for each pending record and key. -/
theorem mem_worklist_names {s : Sweep} (hbank : s.bankCursor = none) (hgroup : s.groupCursor = none) {store : Store}
    (side : Side) (name : String) :
    (side, name) ∈ (s.worklist store).map Task.name ↔ Pending store s.range side name := by
  unfold worklist
  rw [List.map_append, List.map_map, List.map_map, List.mem_append, hbank, hgroup]
  cases side with
  | bank =>
      have hnone : (Side.bank, name) ∉ (store.taggedKeys (s.groupFilter none)).map (Task.name ∘ Task.group) := by
        simp [Task.name]
      rw [or_iff_left hnone, List.mem_map]
      constructor
      · rintro ⟨r, hr, hname⟩
        obtain ⟨⟨hmem, hselects⟩, -⟩ := Store.mem_taggedBank.mp hr
        exact ⟨r, hmem, congrArg Prod.snd hname, bankFilter_selects.mp hselects⟩
      · rintro ⟨r, hmem, rfl, hselects⟩
        exact ⟨r, Store.mem_taggedBank.mpr ⟨⟨hmem, bankFilter_selects.mpr hselects⟩, rfl⟩, rfl⟩
  | ledger =>
      have hnone : (Side.ledger, name) ∉ (store.taggedBank (s.bankFilter none)).map (Task.name ∘ Task.record) := by
        simp [Task.name]
      rw [or_iff_right hnone, List.mem_map]
      constructor
      · rintro ⟨key, hkey, hname⟩
        obtain ⟨⟨p, hmem, hselects, rfl⟩, -⟩ := Store.mem_taggedKeys.mp hkey
        exact ⟨p, hmem, congrArg Prod.snd hname, groupFilter_selects.mp hselects⟩
      · rintro ⟨p, hmem, rfl, hselects⟩
        exact ⟨_, Store.mem_taggedKeys.mpr ⟨⟨p, hmem, groupFilter_selects.mpr hselects, rfl⟩, rfl⟩, rfl⟩

theorem nodup_worklist_names (s : Sweep) {store : Store} (hs : store.Sound) :
    ((s.worklist store).map Task.name).Nodup := by
  have hrecords := (Store.ascending_taggedBank hs (s.bankFilter s.bankCursor)).nodup_names
  have hkeys := (Store.ascending_taggedKeys store (s.groupFilter s.groupCursor)).nodup_names
  rw [List.map_id] at hkeys
  unfold worklist
  rw [List.map_append, List.map_map, List.map_map, List.nodup_append]
  refine ⟨?_, hkeys.map (Prod.mk_right_injective Side.ledger), ?_⟩
  · have hmap := hrecords.map (Prod.mk_right_injective Side.bank)
    rw [List.map_map] at hmap
    exact hmap
  · rintro a ha b hb rfl
    obtain ⟨r, -, rfl⟩ := List.mem_map.mp ha
    obtain ⟨key, -, hname⟩ := List.mem_map.mp hb
    cases hname

/-! ## Chunk after chunk -/

/-- Chunks, each one from the cursors that the one before returned, until one leaves nothing: the names that each
visits, their results, and what they leave stored. -/
inductive Calls (faults : Option Faults) (t : Tolerance) (now : Timestamp) :
    Sweep → Memory → List (List (Side × String)) → List SweepResult → Memory → Prop where
  | last {s : Sweep} {m final : Memory} {result : SweepResult}
      (hrun : (Memory.under faults).effect (run t now s) m = (.ok result, final)) (hdone : result.remaining = 0) :
      Calls faults t now s m [(s.listed m.store).map Task.name] [result] final
  | more {s : Sweep} {m m' final : Memory} {result : SweepResult} {visited : List (List (Side × String))}
      {results : List SweepResult} (hrun : (Memory.under faults).effect (run t now s) m = (.ok result, m'))
      (hmore : 0 < result.remaining) (hrest : Calls faults t now (s.resume result) m' visited results final) :
      Calls faults t now s m ((s.listed m.store).map Task.name :: visited) (result :: results) final

section Loop

variable (faults : Option Faults) (t : Tolerance) (now : Timestamp)

/-- The visits and the results of some chunks, and what they leave, are those of all tasks performed in turn. -/
structure Done (s : Sweep) (m : Memory) (visited : List (List (Side × String))) (results : List SweepResult)
    (final : Memory) : Prop where
  names : visited.flatten = (s.worklist m.store).map Task.name
  accounts : List.Forall₂ Accounts visited results
  details : results.flatMap SweepResult.details =
    (performAll faults t now s.batchId (s.worklist m.store) m).1.filterMap Entry.resolved?
  errors : results.flatMap SweepResult.errors =
    (performAll faults t now s.batchId (s.worklist m.store) m).1.filterMap Entry.error?
  left : final = (performAll faults t now s.batchId (s.worklist m.store) m).2

theorem Done.nil {s : Sweep} {m : Memory} (h : s.worklist m.store = []) : Done faults t now s m [] [] m := by
  constructor <;> simp [h, performAll]

variable {faults t now}

theorem Done.cons {s : Sweep} (hsize : 0 ≤ s.size) {m m' final : Memory} (hm : m.store.Sound) {entries : List Entry}
    (hperform : performAll faults t now s.batchId ((s.worklist m.store).take s.size.toNat) m = (entries, m'))
    {visited : List (List (Side × String))} {results : List SweepResult} (remaining : Nat)
    (hrest : Done faults t now (s.resume (s.noted entries)) m' visited results final) :
    Done faults t now s m ((s.listed m.store).map Task.name :: visited)
      ((s.noted entries).close remaining :: results) final := by
  have hlisted := listed_eq_take hsize m.store
  have haccounts := noted_accounts faults t now s ((s.worklist m.store).take s.size.toNat) m remaining
  rw [hperform] at haccounts
  obtain ⟨hnames, heach, hdetails, herrors, hleft⟩ := hrest
  rw [worklist_resume faults t now hm _ hperform] at hnames hdetails herrors hleft
  have hsplit : performAll faults t now s.batchId (s.worklist m.store) m =
      (entries ++ (performAll faults t now s.batchId ((s.worklist m.store).drop s.size.toNat) m').1,
        (performAll faults t now s.batchId ((s.worklist m.store).drop s.size.toNat) m').2) := by
    conv_lhs => rw [← List.take_append_drop s.size.toNat (s.worklist m.store)]
    rw [performAll_append, hperform]
  refine { names := ?_, accounts := .cons (hlisted ▸ haccounts) heach, details := ?_, errors := ?_, left := ?_ }
  · rw [List.flatten_cons, hlisted, hnames, ← List.map_append, List.take_append_drop]
  · rw [hsplit, List.filterMap_append]
    exact congr (congrArg (· ++ ·) (noted_details s entries)) hdetails
  · rw [hsplit, List.filterMap_append]
    exact congr (congrArg (· ++ ·) (noted_errors s entries)) herrors
  · rw [hsplit]
    exact hleft

variable (hlistings : ∀ f ∈ faults, f.queries = false)
include hlistings

/-- A chunk performs as many tasks as it has room for. -/
theorem effect_run_take {s : Sweep} (hsize : 0 ≤ s.size) {m m' : Memory} {entries : List Entry} (hm : m.store.Sound)
    (hperform : performAll faults t now s.batchId ((s.worklist m.store).take s.size.toNat) m = (entries, m')) :
    (Memory.under faults).effect (run t now s) m =
      (.ok ((s.noted entries).close ((s.worklist m.store).drop s.size.toNat).length), m') := by
  rw [← worklist_resume faults t now hm _ hperform]
  rw [← listed_eq_take hsize] at hperform
  exact effect_run hlistings t now hm hperform

variable (t now) in
/-- Chunk after chunk comes to an end, and has then done all that there was. -/
theorem exists_calls {s : Sweep} (hsize : 1 ≤ s.size) {m : Memory} (hm : m.store.Sound) :
    ∃ visited results final, Calls faults t now s m visited results final ∧
      Done faults t now s m visited results final := by
  induction hlength : (s.worklist m.store).length using Nat.strong_induction_on generalizing s m with
  | _ length ih =>
      subst hlength
      obtain ⟨entries, m', hperform⟩ : ∃ entries m',
          performAll faults t now s.batchId ((s.worklist m.store).take s.size.toNat) m = (entries, m') := ⟨_, _, rfl⟩
      have hrun := effect_run_take hlistings (by omega) hm hperform
      have hnext := worklist_resume faults t now hm s.size.toNat hperform
      by_cases hdone : (s.worklist m.store).drop s.size.toNat = []
      · rw [hdone] at hrun hnext
        exact ⟨_, _, m', .last hrun rfl, Done.cons (by omega) hm hperform _ (Done.nil faults t now hnext)⟩
      · have hmore := List.length_pos_iff.mpr hdone
        have hsound : m'.store.Sound := by
          have hplain := performAll_plain faults t now s.batchId hm fun task htask =>
            worklist_stored s m.store task (List.mem_of_mem_take (i := s.size.toNat) htask)
          rw [hperform] at hplain
          exact hm.of_plain hplain
        -- Each chunk visits at least one task, so the next one has fewer to visit.
        have hfewer : ((s.resume (s.noted entries)).worklist m'.store).length < (s.worklist m.store).length := by
          rw [hnext, List.length_drop]
          rw [List.length_drop] at hmore
          omega
        obtain ⟨visited, results, final, hcalls, hrest⟩ :=
          ih _ hfewer (s := s.resume (s.noted entries)) hsize hsound rfl
        exact ⟨_, _, final, .more hrun hmore hcalls, Done.cons (by omega) hm hperform _ hrest⟩

end Loop

/-! ## One large chunk -/

def countOf (tag : String) (result : SweepResult) : Nat :=
  (Assoc.get? tag result.byTag).getD 0

/-- Several results that, taken together, are one. -/
structure SameSweep (results : List SweepResult) (whole : SweepResult) : Prop where
  details : results.flatMap SweepResult.details = whole.details
  errors : results.flatMap SweepResult.errors = whole.errors
  processed : Natural.total (results.map SweepResult.processed) = whole.processed
  failed : Natural.total (results.map SweepResult.failed) = whole.failed
  resolvedCount : Natural.total (results.map SweepResult.resolvedCount) = whole.resolvedCount
  byTag : ∀ tag, Natural.total (results.map (countOf tag)) = countOf tag whole

theorem total_flatMap {α β : Type} (count : List β → Nat) (hnil : count [] = 0)
    (happend : ∀ xs ys, count (xs ++ ys) = count xs + count ys) (f : α → List β) (items : List α) :
    Natural.total (items.map fun a => count (f a)) = count (items.flatMap f) := by
  induction items with
  | nil => exact hnil.symm
  | cons a rest ih => rw [List.flatMap_cons, happend, ← ih, List.map_cons, Natural.total]

/-- Results that list together what one lists agree with it in their counters, too. -/
theorem sameSweep_of_told {results : List SweepResult} {whole : SweepResult}
    (hcounted : ∀ result ∈ results, Counted result) (hwhole : Counted whole)
    (hdetails : results.flatMap SweepResult.details = whole.details)
    (herrors : results.flatMap SweepResult.errors = whole.errors)
    (hprocessed : Natural.total (results.map SweepResult.processed) = whole.processed) :
    SameSweep results whole := by
  refine { details := hdetails, errors := herrors, processed := hprocessed, failed := ?_, resolvedCount := ?_,
           byTag := fun tag => ?_ }
  · rw [hwhole.failed, ← herrors, List.map_congr_left fun result h => (hcounted result h).failed]
    exact total_flatMap List.length rfl (fun _ _ => List.length_append) SweepResult.errors results
  · rw [hwhole.resolvedCount, ← hdetails, List.map_congr_left fun result h => (hcounted result h).resolvedCount]
    exact total_flatMap List.length rfl (fun _ _ => List.length_append) SweepResult.details results
  · have hcount : ∀ result, Counted result → countOf tag result = (result.details.map fun v => v.tag.name).count tag :=
      fun result h => h.get?_byTag tag
    rw [hcount whole hwhole, ← hdetails, List.map_congr_left fun result h => hcount result (hcounted result h)]
    refine total_flatMap (fun details : List ResolvedVariance => (details.map fun v => v.tag.name).count tag) rfl ?_ _
      results
    intro xs ys
    rw [List.map_append, List.count_append]

theorem accounts_counted {visited : List (List (Side × String))} {results : List SweepResult}
    (h : List.Forall₂ Accounts visited results) : ∀ result ∈ results, Counted result := by
  intro result hresult
  obtain ⟨_, -, haccounts⟩ := Related.exists_of_mem h hresult
  exact haccounts.toCounted

theorem accounts_processed {visited : List (List (Side × String))} {results : List SweepResult}
    (h : List.Forall₂ Accounts visited results) :
    Natural.total (results.map SweepResult.processed) = visited.flatten.length := by
  induction h with
  | nil => rfl
  | cons hfirst _ ih =>
      rw [List.map_cons, Natural.total, List.flatten_cons, List.length_append, hfirst.processed, ih]

/-- **Chunks of any size come to an end, have then visited what was pending, each record and key once, and together
tell and leave what one chunk does that is large enough for all of it.** -/
theorem run_in_chunks {faults : Option Faults} (hlistings : ∀ f ∈ faults, f.queries = false) (t : Tolerance)
    (now : Timestamp) {s : Sweep} (hsize : 1 ≤ s.size) (hbank : s.bankCursor = none) (hgroup : s.groupCursor = none)
    {m : Memory} (hm : m.store.Sound) :
    ∃ visited results final, Calls faults t now s m visited results final ∧
      List.Forall₂ Accounts visited results ∧ visited.flatten.Nodup ∧
      (∀ side name, (side, name) ∈ visited.flatten ↔ Pending m.store s.range side name) ∧
      ∀ size : Int, visited.flatten.length ≤ size →
        ∃ whole, (Memory.under faults).effect (run t now { s with size := size }) m = (.ok whole, final) ∧
          whole.remaining = 0 ∧ SameSweep results whole := by
  obtain ⟨visited, results, final, hcalls, hdone⟩ := exists_calls t now hlistings hsize hm
  refine ⟨visited, results, final, hcalls, hdone.accounts, ?_, ?_, ?_⟩
  · rw [hdone.names]
    exact nodup_worklist_names s hm
  · intro side name
    rw [hdone.names]
    exact mem_worklist_names hbank hgroup side name
  · intro size hlarge
    have hprocessed := accounts_processed hdone.accounts
    rw [hdone.names, List.length_map] at hlarge hprocessed
    have hfits : (s.worklist m.store).length ≤ size.toNat := by omega
    have hperform : performAll faults t now s.batchId ((s.worklist m.store).take size.toNat) m =
        performAll faults t now s.batchId (s.worklist m.store) m := by rw [List.take_of_length_le hfits]
    have hrun := effect_run_take (s := { s with size := size }) hlistings (show 0 ≤ size by omega) hm hperform
    rw [← hdone.left] at hrun
    have hcounted := accounts_counted hdone.accounts
    refine ⟨_, hrun, ?_, sameSweep_of_told hcounted (counted_noted _ _ _) ?_ ?_ ?_⟩
    · exact congrArg List.length (List.drop_of_length_le hfits)
    · exact hdone.details.trans (noted_details _ _).symm
    · exact hdone.errors.trans (noted_errors _ _).symm
    · refine hprocessed.trans (Eq.trans ?_ (noted_processed _ _).symm)
      rw [← List.length_map Prod.fst, performAll_tasks]

namespace Sample

def monday : Date :=
  ⟨2024, 3, 4, by decide⟩

def tagged (id : String) : BankRecord :=
  { id := id, goalId := "goal", accountId := "account", sourceId := "s1", givenType := .word .deposit,
    date := monday, amount := .finite false 100 0, givenInstruments := [], review := { tag := some .missingInLedger } }

def posting : Posting :=
  { id := "p1", goalId := "goal", accountId := "account", sourceId := "s1", channel := "app",
    givenInstrument := .word .moneyMarket, givenType := .word .deposit, date := monday,
    amount := .finite false 100 0, groupKey := some "key", review := { tag := some .missingInBank } }

def memory : Memory :=
  .ofStore { bank := [tagged "first", tagged "second"], ledger := [posting] }

def faults : Faults :=
  { failure := .storage (.saveBank "second"), bank := ["second"] }

end Sample

theorem run_in_chunks_sample :
    ∃ visited results final,
      Calls (some Sample.faults) {} ⟨Sample.monday, 12, 0, 0, 0, some 0⟩ { size := 1 } Sample.memory visited results
        final ∧
      List.Forall₂ Accounts visited results ∧ visited.flatten.Nodup ∧
      (.bank, "first") ∈ visited.flatten ∧ (.bank, "second") ∈ visited.flatten ∧ (.ledger, "key") ∈ visited.flatten ∧
      ∀ size : Int, visited.flatten.length ≤ size → ∃ whole,
        (Memory.under (some Sample.faults)).effect (run {} ⟨Sample.monday, 12, 0, 0, 0, some 0⟩ { size := size })
          Sample.memory = (.ok whole, final) ∧ whole.remaining = 0 ∧ SameSweep results whole := by
  have hlistings : ∀ f ∈ some Sample.faults, f.queries = false := by
    rintro f hf
    cases hf
    rfl
  have hsound : Sample.memory.store.Sound := ⟨by decide, by decide, by decide +kernel⟩
  obtain ⟨visited, results, final, hcalls, haccounts, honce, hpending, hwhole⟩ :=
    run_in_chunks hlistings {} ⟨Sample.monday, 12, 0, 0, 0, some 0⟩ (s := { size := 1 }) (by decide) rfl rfl hsound
  refine ⟨visited, results, final, hcalls, haccounts, honce, ?_, ?_, ?_, hwhole⟩
  · exact (hpending .bank "first").mpr ⟨Sample.tagged "first", by decide, rfl, rfl, .inl rfl, rfl⟩
  · exact (hpending .bank "second").mpr ⟨Sample.tagged "second", by decide, rfl, rfl, .inl rfl, rfl⟩
  · exact (hpending .ledger "key").mpr ⟨Sample.posting, by decide, rfl, rfl, .inl rfl, rfl⟩

end GoalReconciliation.Sweep

import GoalReconciliation.Proofs.Resolution.Resolved
import GoalReconciliation.Proofs.Resolution.Whole

/-!
# A chunk tells what it has done

* `Marked` : the fields of a review that a sweep sets, and those that it keeps;
* `Traced` : a review that is resolved by a sweep if, and only if, the sweep tells of it;
* `Split` : what a chunk has visited, as what it has resolved, what has failed, and what is left pending;
* `Truthful` : the stored records before and after a chunk, and its counts, are as its result tells;
* `run_truthful` : **whichever saves break, a chunk is truthful**.
-/

namespace GoalReconciliation.Sweep

set_option autoImplicit false

open Store (keyOf)

/-! ## Reviews -/

/-- The fields of a review that a sweep sets, and those that it keeps. -/
structure Marked (now : Timestamp) (reason batchId : String) (before after : Review) : Prop where
  resolved : after.resolved = true
  resolvedAt : after.resolvedAt = some now
  reason : after.reason = some reason
  batchId : after.batchId = some batchId
  tag : after.tag = before.tag
  notes : after.notes = before.notes
  reviewer : after.reviewer = before.reviewer
  reviewedAt : after.reviewedAt = before.reviewedAt

/-- A review before and after a chunk: what is resolved is kept, and what changes is resolved by the chunk, just where
it tells so. -/
structure Traced (now : Timestamp) (batchId : String) (details : List ResolvedVariance)
    (tells : ResolvedVariance → Prop) (before after : Review) : Prop where
  kept : before.resolved = true → after = before
  changed : after ≠ before ↔ ∃ v ∈ details, tells v
  marked : ∀ v ∈ details, tells v → Marked now v.reason batchId before after

/-- A record that is left as it is, up to its review. -/
structure TracedRecord (now : Timestamp) (batchId : String) (details : List ResolvedVariance)
    (before after : BankRecord) : Prop where
  unchanged : { after with review := before.review } = before
  review : Traced now batchId details (fun v => v.side = .bank ∧ v.recordId = before.id) before.review after.review

/-- A posting that is left as it is, up to its review. A key that is told of stands for its pending postings. -/
structure TracedPosting (now : Timestamp) (batchId : String) (details : List ResolvedVariance)
    (before after : Posting) : Prop where
  unchanged : { after with review := before.review } = before
  review : Traced now batchId details
    (fun v => v.side = .ledger ∧ v.recordId = keyOf before ∧ before.review.resolved = false ∧
      (before.review.tag = some .missingInBank ∨ before.review.tag = some .timingDifference))
    before.review after.review

section Traced

variable {now : Timestamp} {batchId : String} {details : List ResolvedVariance}

theorem marked_resolve (reason batchId : String) (review : Review) :
    Marked now reason batchId review (review.resolve reason batchId now) := by
  constructor <;> rfl

theorem traced_resolvedReview {tells : ResolvedVariance → Prop} (found : Option ResolvedVariance) {review : Review}
    (hfound : ∀ v, found = some v ↔ v ∈ details ∧ tells v)
    (hpending : ∀ v ∈ details, tells v → review.resolved = false) :
    Traced now batchId details tells review (resolvedReview now batchId found review) := by
  cases found with
  | none =>
      have hnone : ∀ v ∈ details, ¬tells v := fun v hv htells => by cases (hfound v).mpr ⟨hv, htells⟩
      refine ⟨fun _ => rfl, iff_of_false (fun h => h rfl) ?_, fun v hv htells => absurd htells (hnone v hv)⟩
      rintro ⟨v, hv, htells⟩
      exact hnone v hv htells
  | some v =>
      obtain ⟨hv, htells⟩ := (hfound v).mp rfl
      have hunresolved := hpending v hv htells
      refine ⟨fun h => ?_, iff_of_true (fun h => ?_) ⟨v, hv, htells⟩, fun w hw hwtells => ?_⟩
      · exact absurd (h.symm.trans hunresolved) (by decide)
      · have hresolved : (resolvedReview now batchId (some v) review).resolved = true := rfl
        rw [h, hunresolved] at hresolved
        cases hresolved
      · obtain rfl := Option.some.inj ((hfound w).mpr ⟨hw, hwtells⟩)
        exact marked_resolve v.reason batchId review

theorem told_iff (honce : (details.map fun v => (v.side, v.recordId)).Nodup) {side : Side} {name : String}
    {v : ResolvedVariance} :
    told details side name = some v ↔ v ∈ details ∧ v.side = side ∧ v.recordId = name := by
  constructor
  · intro h
    obtain ⟨hv, hname⟩ := told_eq_some h
    exact ⟨hv, congrArg Prod.fst hname, congrArg Prod.snd hname⟩
  · rintro ⟨hv, rfl, rfl⟩
    cases hfound : told details v.side v.recordId with
    | none => exact absurd (List.mem_map_of_mem hv) (told_eq_none.mp hfound)
    | some w =>
        obtain ⟨hw, hname⟩ := told_eq_some hfound
        exact congrArg some (List.inj_on_of_nodup_map honce hw hv hname)

end Traced

/-! ## Visits -/

/-- The tasks of some visits are those that were resolved, those that failed, and those that were left. -/
theorem exists_split {entries : List Entry}
    (hnamed : ∀ entry ∈ entries, ∀ v, entry.resolved? = some v → (v.side, v.recordId) = entry.1.name) :
    ∃ failed left : List (Side × String),
      (entries.filterMap Entry.error?).map RecordError.recordId = failed.map Prod.snd ∧
      (((entries.filterMap Entry.resolved?).map fun v => (v.side, v.recordId)) ++ (failed ++ left)).Perm
        (entries.map fun entry => entry.1.name) := by
  induction entries with
  | nil => exact ⟨[], [], rfl, .nil⟩
  | cons entry rest ih =>
      obtain ⟨hfirst, hrest⟩ := List.forall_mem_cons.mp hnamed
      obtain ⟨failed, left, herrors, hperm⟩ := ih hrest
      obtain ⟨task, outcome⟩ := entry
      cases outcome with
      | error failure =>
          refine ⟨task.name :: failed, left, congrArg (task.name.2 :: ·) herrors, ?_⟩
          exact List.perm_middle.trans (hperm.cons task.name)
      | ok found =>
          cases found with
          | none =>
              refine ⟨failed, task.name :: left, herrors, ?_⟩
              have hmoved : (failed ++ task.name :: left).Perm (task.name :: (failed ++ left)) := List.perm_middle
              exact (hmoved.append_left _).trans (List.perm_middle.trans (hperm.cons task.name))
          | some v =>
              refine ⟨failed, left, herrors, ?_⟩
              have hname : (v.side, v.recordId) = task.name := hfirst v rfl
              exact (List.Perm.of_eq (congrArg (· :: _) hname)).trans (hperm.cons task.name)

/-- The tasks that a chunk has visited: each was pending before, and is pending afterwards just if it has failed or was
left. -/
structure Split (s : Sweep) (before after : Store) (result : SweepResult) (failed left : List (Side × String)) :
    Prop where
  processed : result.processed = (s.listed before).length
  once : ((s.listed before).map Task.name).Nodup
  visited : ((result.details.map fun v => (v.side, v.recordId)) ++ (failed ++ left)).Perm
    ((s.listed before).map Task.name)
  errors : result.errors.map RecordError.recordId = failed.map Prod.snd
  pending : ∀ name ∈ (s.listed before).map Task.name, Pending before s.range name.1 name.2
  unresolved : ∀ name ∈ (s.listed before).map Task.name, Pending after s.range name.1 name.2 ↔ name ∈ failed ++ left

/-- What a chunk leaves stored, and what it counts, are as its result tells. -/
structure Truthful (now : Timestamp) (s : Sweep) (before after : Store) (result : SweepResult) : Prop where
  bank : List.Forall₂ (TracedRecord now s.batchId result.details) before.bank after.bank
  ledger : List.Forall₂ (TracedPosting now s.batchId result.details) before.ledger after.ledger
  size : (result.processed : Int) ≤ s.size
  resolvedCount : result.resolvedCount = result.details.length
  failed : result.failed = result.errors.length
  byTag : ∀ tag, countOf tag result = (result.details.map fun v => v.tag.name).count tag
  total : Natural.total (result.byTag.map Prod.snd) = result.details.length
  visits : ∃ failed left, Split s before after result failed left

section Told

variable {now : Timestamp} {s : Sweep} {before : Store} {details : List ResolvedVariance}

/-- A record that is told of was pending. -/
theorem tracedRecord (hs : before.Sound) (honce : (details.map fun v => (v.side, v.recordId)).Nodup)
    (hpending : ∀ v ∈ details, Pending before s.range v.side v.recordId) {r : BankRecord} (hr : r ∈ before.bank) :
    TracedRecord now s.batchId details r (resolvedRecord now s.batchId details r) where
  unchanged := rfl
  review := by
    refine traced_resolvedReview _ (fun v => told_iff honce) fun v hv ⟨hside, hname⟩ => ?_
    have hstored := hpending v hv
    rw [hside, hname] at hstored
    obtain ⟨x, hx, hid, hunresolved, -⟩ := hstored
    exact Lookup.eq_of_name hs.bank_once hx hr hid ▸ hunresolved

theorem isPending_iff {p : Posting} :
    isPending p = true ↔ p.review.resolved = false ∧
      (p.review.tag = some .missingInBank ∨ p.review.tag = some .timingDifference) := by
  unfold isPending
  rw [Bool.and_eq_true, Bool.not_eq_true', and_comm]
  cases p.review.tag <;> simp [ReviewTag.sweptOnLedger]

theorem tracedPosting (honce : (details.map fun v => (v.side, v.recordId)).Nodup) (p : Posting) :
    TracedPosting now s.batchId details p (resolvedPosting now s.batchId details p) where
  unchanged := by
    unfold resolvedPosting
    split <;> rfl
  review := by
    unfold resolvedPosting
    split
    · rename_i hp
      refine traced_resolvedReview _ (fun v => ?_) fun v hv ⟨_, _, hunresolved, _⟩ => hunresolved
      rw [told_iff honce, ← isPending_iff, and_iff_left hp]
    · rename_i hp
      refine traced_resolvedReview none (fun v => ?_) fun v hv ⟨_, _, hunresolved, _⟩ => hunresolved
      rw [← isPending_iff]
      simp [hp]

theorem pending_resolvedRecord {batchId : String} {r : BankRecord}
    (h : (resolvedRecord now batchId details r).review.resolved = false) : told details .bank r.id = none := by
  cases hfound : told details .bank r.id with
  | none => rfl
  | some v =>
      rw [resolvedRecord, hfound] at h
      cases h

theorem pending_resolvedPosting {batchId : String} {p : Posting}
    (h : isPending (resolvedPosting now batchId details p) = true) : told details .ledger (keyOf p) = none := by
  unfold resolvedPosting at h
  split at h
  · cases hfound : told details .ledger (keyOf p) with
    | none => rfl
    | some v =>
        rw [hfound] at h
        cases (isPending_iff.mp h).1
  · rename_i hp
    exact absurd h hp

/-- What a chunk leaves pending is what was pending and is not told of. -/
theorem pending_resolvedStore (batchId : String) (range : Option DateRange) (side : Side) (name : String) :
    Pending (resolvedStore now batchId details before) range side name ↔
      Pending before range side name ∧ (side, name) ∉ details.map fun v => (v.side, v.recordId) := by
  rw [← told_eq_none]
  cases side with
  | bank =>
      constructor
      · rintro ⟨r', hr', rfl, hunresolved, htag, hdate⟩
        obtain ⟨r, hr, rfl⟩ := List.mem_map.mp hr'
        have hnone := pending_resolvedRecord hunresolved
        rw [resolvedRecord_of_none hnone] at hunresolved htag hdate ⊢
        exact ⟨⟨r, hr, rfl, hunresolved, htag, hdate⟩, hnone⟩
      · rintro ⟨⟨r, hr, rfl, hpending⟩, hnone⟩
        refine ⟨r, List.mem_map.mpr ⟨r, hr, resolvedRecord_of_none hnone⟩, rfl, hpending⟩
  | ledger =>
      constructor
      · rintro ⟨p', hp', rfl, hunresolved, htag, hdate⟩
        obtain ⟨p, hp, rfl⟩ := List.mem_map.mp hp'
        have hnone := pending_resolvedPosting (isPending_iff.mpr ⟨hunresolved, htag⟩)
        rw [resolvedPosting_of_none hnone] at hunresolved htag hdate ⊢
        exact ⟨⟨p, hp, rfl, hunresolved, htag, hdate⟩, hnone⟩
      · rintro ⟨⟨p, hp, rfl, hpending⟩, hnone⟩
        refine ⟨p, List.mem_map.mpr ⟨p, hp, resolvedPosting_of_none hnone⟩, rfl, hpending⟩

end Told

/-! ## A chunk -/

section Listed

variable {s : Sweep} {store : Store} {task : Task}

theorem listed_sublist (s : Sweep) (store : Store) : (s.listed store).Sublist (s.worklist store) := by
  refine List.Sublist.append ((Store.limited_sublist _ _).map _) (List.Sublist.map _ ?_)
  split
  · exact Store.limited_sublist _ _
  · exact List.nil_sublist _

theorem listed_cases (h : task ∈ s.listed store) :
    (∃ r ∈ store.taggedBank (s.bankFilter s.bankCursor), task = .record r) ∨
      ∃ key ∈ store.taggedKeys (s.groupFilter s.groupCursor), task = .group key := by
  rcases List.mem_append.mp ((listed_sublist s store).subset h) with h | h
  · obtain ⟨r, hr, rfl⟩ := List.mem_map.mp h
    exact .inl ⟨r, hr, rfl⟩
  · obtain ⟨key, hkey, rfl⟩ := List.mem_map.mp h
    exact .inr ⟨key, hkey, rfl⟩

theorem listed_stored {r : BankRecord} (h : Task.record r ∈ s.listed store) : r ∈ store.bank := by
  obtain ⟨x, hx, htask⟩ | ⟨key, -, htask⟩ := listed_cases h
  · obtain rfl := Task.record.inj htask
    exact (Store.mem_taggedBank.mp hx).1.1
  · cases htask

theorem listed_pending (h : task ∈ s.listed store) : Pending store s.range task.name.1 task.name.2 := by
  obtain ⟨r, hr, rfl⟩ | ⟨key, hkey, rfl⟩ := listed_cases h
  · obtain ⟨⟨hmem, hselects⟩, -⟩ := Store.mem_taggedBank.mp hr
    exact ⟨r, hmem, rfl, bankFilter_selects.mp hselects⟩
  · obtain ⟨⟨p, hmem, hselects, rfl⟩, -⟩ := Store.mem_taggedKeys.mp hkey
    exact ⟨p, hmem, rfl, groupFilter_selects.mp hselects⟩

theorem nodup_listed_names (s : Sweep) (hs : store.Sound) : ((s.listed store).map Task.name).Nodup :=
  (nodup_worklist_names s hs).sublist ((listed_sublist s store).map _)

end Listed

/-- Visits of the listed tasks leave the reviews of those that they have resolved. -/
theorem Visits.of_listed {now : Timestamp} {s : Sweep} {before after : Store} (hs : before.Sound) {entries : List Entry}
    (htasks : entries.map Prod.fst = s.listed before) (hvisits : Visits now s.batchId before entries after) :
    (entries.map fun entry => entry.1.name).Nodup ∧
      after = resolvedStore now s.batchId (entries.filterMap Entry.resolved?) before := by
  have honce : (entries.map fun entry => entry.1.name).Nodup := by
    have hnames := nodup_listed_names s hs
    rwa [← htasks, List.map_map] at hnames
  refine ⟨honce, hvisits.stored hs honce fun entry hentry r hr => ?_⟩
  have htask : entry.1 ∈ s.listed before := htasks ▸ List.mem_map_of_mem hentry
  rw [hr] at htask
  exact listed_stored htask

/-- What visits of the listed tasks leave, and what a chunk notes of them, is truthful. -/
theorem truthful_of_visits {now : Timestamp} {s : Sweep} (hsize : 0 ≤ s.size) {before after : Store}
    (hs : before.Sound) {entries : List Entry} (htasks : entries.map Prod.fst = s.listed before)
    (hvisits : Visits now s.batchId before entries after) (remaining : Nat) :
    Truthful now s before after ((s.noted entries).close remaining) := by
  generalize hresult : (s.noted entries).close remaining = result
  have hcounted : Counted result := hresult ▸ counted_noted s entries remaining
  have hdetails : result.details = entries.filterMap Entry.resolved? := by
    rw [← hresult]
    exact noted_details s entries
  have herrors : result.errors = entries.filterMap Entry.error? := by
    rw [← hresult]
    exact noted_errors s entries
  have hprocessed : result.processed = (s.listed before).length := by
    rw [← hresult, ← htasks, List.length_map]
    exact noted_processed s entries
  have hnames : (s.listed before).map Task.name = entries.map fun entry => entry.1.name := by
    rw [← htasks]
    exact List.map_map
  obtain ⟨honce, hstored⟩ := hvisits.of_listed hs htasks
  rw [← hdetails] at hstored
  have hlisted : ∀ name ∈ (s.listed before).map Task.name, Pending before s.range name.1 name.2 :=
    List.forall_mem_map.mpr fun task => listed_pending
  obtain ⟨failed, left, hfailed, hsplit⟩ := exists_split hvisits.named
  rw [← hdetails, ← hnames] at hsplit
  rw [← herrors] at hfailed
  -- What is told of is neither among the failed nor among the left ones.
  obtain ⟨htold, -, hapart⟩ := List.nodup_append.mp (hsplit.nodup_iff.mpr (hnames ▸ honce))
  have hunresolved : ∀ name ∈ (s.listed before).map Task.name,
      name ∉ result.details.map (fun v => (v.side, v.recordId)) ↔ name ∈ failed ++ left := by
    intro name hname
    constructor
    · exact fun hnot => (List.mem_append.mp (hsplit.mem_iff.mpr hname)).resolve_left hnot
    · exact fun hin htold => hapart name htold name hin rfl
  have hrecords : ∀ v ∈ result.details, Pending before s.range v.side v.recordId := fun v hv =>
    hlisted (v.side, v.recordId) (hsplit.subset (List.mem_append_left _ (List.mem_map_of_mem hv)))
  exact {
    bank := by
      rw [hstored]
      exact List.forall₂_map_right_iff.mpr (List.forall₂_same.mpr fun r hr => tracedRecord hs htold hrecords hr)
    ledger := by
      rw [hstored]
      exact List.forall₂_map_right_iff.mpr (List.forall₂_same.mpr fun p _ => tracedPosting htold p)
    size := by
      rw [hprocessed, listed_eq_take hsize, List.length_take]
      omega
    resolvedCount := hcounted.resolvedCount
    failed := hcounted.failed
    byTag := hcounted.get?_byTag
    total := hcounted.total_byTag
    visits := by
      refine ⟨failed, left, hprocessed, hnames ▸ honce, hsplit, hfailed, hlisted, fun name hname => ?_⟩
      rw [hstored, pending_resolvedStore, and_iff_right (hlisted name hname)]
      exact hunresolved name hname }

/-- **A chunk any of whose saves may break ends with a result. What was resolved it leaves as it was; what it changes is
what it tells to have resolved, in the marks of the resolution only; and it accounts for each record and key that it
visits.** -/
theorem run_truthful (pattern : Nat → Option Breakdown) (t : Tolerance) (now : Timestamp) {s : Sweep}
    (hsize : 1 ≤ s.size) {store : Store} (hstore : store.Sound) :
    ∃ result final, (Memory.breaking pattern).effect (run t now s) (.ofStore store, 0) = (.ok result, final) ∧
      Truthful now s store final.1.store result := by
  obtain ⟨entries, remaining, final, hrun, htasks, hvisits⟩ :=
    effect_run_breaking pattern t now s (show (Memory.ofStore store, 0).1.depth = 0 from rfl)
  exact ⟨_, final, hrun, truthful_of_visits (by omega) hstore htasks hvisits remaining⟩

namespace Sample

def store : Store :=
  { bank := [tagged "first"], ledger := [posting] }

def firstBreaks : Nat → Option Breakdown
  | 0 => some { failure := .storage (.saveBank "first") }
  | _ => none

end Sample

/-- The record cannot be stored; the posting is resolved all the same. -/
theorem run_truthful_sample :
    ∃ result final, (Memory.breaking Sample.firstBreaks).effect
        (run {} ⟨Sample.monday, 12, 0, 0, 0, some 0⟩ { size := 2 }) (.ofStore Sample.store, 0) = (.ok result, final) ∧
      result.errors.map RecordError.recordId = ["first"] ∧
      result.details.map ResolvedVariance.recordId = ["key"] ∧
      Truthful ⟨Sample.monday, 12, 0, 0, 0, some 0⟩ { size := 2 } Sample.store final.1.store result := by
  have hsound : Sample.store.Sound := ⟨by decide, by decide, by decide +kernel⟩
  obtain ⟨result, final, hrun, htruthful⟩ := run_truthful Sample.firstBreaks {} ⟨Sample.monday, 12, 0, 0, 0, some 0⟩
    (s := { size := 2 }) (by decide) hsound
  have houtcome : ((Memory.breaking Sample.firstBreaks).effect
      (run {} ⟨Sample.monday, 12, 0, 0, 0, some 0⟩ { size := 2 }) (.ofStore Sample.store, 0)).1.toOption.map
        (fun result => (result.errors.map RecordError.recordId, result.details.map ResolvedVariance.recordId)) =
      some (["first"], ["key"]) := by decide +kernel
  rw [hrun] at houtcome
  obtain ⟨herrors, hdetails⟩ := Prod.mk.inj (Option.some.inj houtcome)
  exact ⟨result, final, hrun, herrors, hdetails, htruthful⟩

end GoalReconciliation.Sweep

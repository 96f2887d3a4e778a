import GoalReconciliation.Proofs.Resolution.Visits

/-!
# What the result of a chunk tells

* `noted` : the result that a chunk makes of its visits;
* `noted_details`, `noted_errors`, `noted_processed` : its parts, by the entries of the visits;
* `Counted` : a result whose counters agree with what it lists; `counting_note` : a visit keeps them in step;
* `Accounts` : a result that tells of some visits, and of nothing else; `noted_accounts` : **so does the result of a
  chunk of the tasks that it performs**.
-/

namespace GoalReconciliation.Sweep

set_option autoImplicit false

def start (s : Sweep) : SweepResult :=
  { batchId := s.batchId, bankCursor := s.bankCursor, groupCursor := s.groupCursor }

def noted (s : Sweep) (entries : List Entry) : SweepResult :=
  entries.foldl noteEntry s.start

/-! ## Part by part -/

def Entry.resolved? (entry : Entry) : Option ResolvedVariance :=
  match entry.2 with
  | .ok found => found
  | .error _ => none

def Entry.error? (entry : Entry) : Option RecordError :=
  match entry.2 with
  | .ok _ => none
  | .error failure => some ⟨entry.1.name.2, failure.message, failure.kind⟩

theorem Entry.outcome_of_resolved {entry : Entry} {v : ResolvedVariance} (h : entry.resolved? = some v) :
    entry.2 = .ok (some v) := by
  unfold Entry.resolved? at h
  split at h
  · rename_i found hfound
    rw [hfound, h]
  · cases h

theorem Entry.name_of_error {entry : Entry} {e : RecordError} (h : entry.error? = some e) :
    e.recordId = entry.1.name.2 := by
  unfold Entry.error? at h
  split at h
  · cases h
  · exact congrArg RecordError.recordId (Option.some.inj h).symm

theorem noteEntry_tells (result : SweepResult) (entry : Entry) :
    (noteEntry result entry).details = result.details ++ entry.resolved?.toList ∧
      (noteEntry result entry).errors = result.errors ++ entry.error?.toList ∧
      (noteEntry result entry).processed = result.processed + 1 := by
  obtain ⟨task, outcome⟩ := entry
  cases task <;> cases outcome with
  | error failure => exact ⟨(List.append_nil _).symm, rfl, rfl⟩
  | ok found =>
      cases found with
      | none => exact ⟨(List.append_nil _).symm, (List.append_nil _).symm, rfl⟩
      | some v => exact ⟨rfl, (List.append_nil _).symm, rfl⟩

theorem filterMap_cons_toList {α β : Type} (f : α → Option β) (a : α) (items : List α) :
    (a :: items).filterMap f = (f a).toList ++ items.filterMap f := by
  cases h : f a with
  | none => exact List.filterMap_cons_none h
  | some b => exact List.filterMap_cons_some h

theorem foldl_noteEntry_tells (entries : List Entry) (result : SweepResult) :
    (entries.foldl noteEntry result).details = result.details ++ entries.filterMap Entry.resolved? ∧
      (entries.foldl noteEntry result).errors = result.errors ++ entries.filterMap Entry.error? ∧
      (entries.foldl noteEntry result).processed = result.processed + entries.length := by
  induction entries generalizing result with
  | nil => exact ⟨(List.append_nil _).symm, (List.append_nil _).symm, rfl⟩
  | cons entry rest ih =>
      obtain ⟨hdetails, herrors, hprocessed⟩ := noteEntry_tells result entry
      obtain ⟨hdetails', herrors', hprocessed'⟩ := ih (noteEntry result entry)
      rw [filterMap_cons_toList, filterMap_cons_toList, List.length_cons, List.foldl_cons]
      refine ⟨?_, ?_, ?_⟩
      · rw [hdetails', hdetails, List.append_assoc]
      · rw [herrors', herrors, List.append_assoc]
      · omega

section Told

variable (s : Sweep) (entries : List Entry)

theorem noted_details : (s.noted entries).details = entries.filterMap Entry.resolved? :=
  (foldl_noteEntry_tells entries s.start).1

theorem noted_errors : (s.noted entries).errors = entries.filterMap Entry.error? :=
  (foldl_noteEntry_tells entries s.start).2.1

theorem noted_processed : (s.noted entries).processed = entries.length :=
  (foldl_noteEntry_tells entries s.start).2.2.trans (Nat.zero_add _)

end Told

/-! ## Counters -/

/-- The counters of the visits so far agree with what they have listed. -/
structure Counting (result : SweepResult) : Prop where
  failed : result.failed = result.errors.length
  byTag : result.byTag = Assoc.tally (result.details.map fun v => v.tag.name)

/-- All counters of a chunk agree with what it lists. -/
structure Counted (result : SweepResult) : Prop extends Counting result where
  resolvedCount : result.resolvedCount = result.details.length

theorem counting_note {result : SweepResult} (h : Counting result) (id : String)
    (visit : Except Failure (Option ResolvedVariance)) : Counting (result.note id visit) := by
  obtain ⟨hfailed, hbyTag⟩ := h
  unfold SweepResult.note
  split
  · rename_i v
    refine ⟨hfailed, ?_⟩
    rw [List.map_append, List.map_singleton, Assoc.tally_concat, ← hbyTag]
  · exact ⟨hfailed, hbyTag⟩
  · refine ⟨?_, hbyTag⟩
    rw [List.length_append, List.length_singleton, hfailed]

theorem counting_noteEntry {result : SweepResult} (h : Counting result) (entry : Entry) :
    Counting (noteEntry result entry) := by
  obtain ⟨task, outcome⟩ := entry
  have hnoted := counting_note h task.name.2 outcome
  cases task <;> exact ⟨hnoted.failed, hnoted.byTag⟩

theorem counting_foldl {result : SweepResult} (h : Counting result) (entries : List Entry) :
    Counting (entries.foldl noteEntry result) := by
  induction entries generalizing result with
  | nil => exact h
  | cons entry rest ih => exact ih (counting_noteEntry h entry)

theorem counted_noted (s : Sweep) (entries : List Entry) (remaining : Nat) :
    Counted ((s.noted entries).close remaining) :=
  have hcounting := counting_foldl (show Counting s.start from ⟨rfl, rfl⟩) entries
  { failed := hcounting.failed, byTag := hcounting.byTag, resolvedCount := rfl }

theorem Counted.get?_byTag {result : SweepResult} (h : Counted result) (tag : String) :
    (Assoc.get? tag result.byTag).getD 0 = (result.details.map fun v => v.tag.name).count tag := by
  rw [h.byTag]
  exact Assoc.get?_tally _ tag

theorem Counted.total_byTag {result : SweepResult} (h : Counted result) :
    Natural.total (result.byTag.map Prod.snd) = result.details.length := by
  rw [h.byTag, Assoc.total_tally, List.length_map]

/-! ## Whose visits -/

/-- A result that tells of some visits: it counts them, and each record or key that it reports is one of them. -/
structure Accounts (visited : List (Side × String)) (result : SweepResult) : Prop extends Counted result where
  processed : result.processed = visited.length
  details : (result.details.map fun v => (v.side, v.recordId)).Sublist visited
  errors : (result.errors.map RecordError.recordId).Sublist (visited.map Prod.snd)

theorem map_filterMap_sublist {α β γ : Type} {f : α → Option β} {g : β → γ} {h : α → γ} {items : List α}
    (hname : ∀ a ∈ items, ∀ b, f a = some b → g b = h a) : ((items.filterMap f).map g).Sublist (items.map h) := by
  induction items with
  | nil => exact List.Sublist.refl _
  | cons a rest ih =>
      obtain ⟨hfirst, hrest⟩ := List.forall_mem_cons.mp hname
      rw [List.map_cons]
      cases hfa : f a with
      | none =>
          rw [List.filterMap_cons_none hfa]
          exact (ih hrest).cons _
      | some b =>
          rw [List.filterMap_cons_some hfa, List.map_cons, hfirst b hfa]
          exact (ih hrest).cons_cons _

section Accounts

variable (faults : Option Faults) (t : Tolerance) (now : Timestamp)

theorem performAll_outcome {batchId : String} {tasks : List Task} {m : Memory} :
    ∀ entry ∈ (performAll faults t now batchId tasks m).1,
      ∃ m', (entry.1.perform faults t now batchId m').1 = entry.2 := by
  induction tasks generalizing m with
  | nil => exact fun entry h => absurd h List.not_mem_nil
  | cons task rest ih => exact List.forall_mem_cons.mpr ⟨⟨m, rfl⟩, ih⟩

/-- The result of a chunk tells of the tasks that it performs. -/
theorem noted_accounts (s : Sweep) (tasks : List Task) (m : Memory) (remaining : Nat) :
    Accounts (tasks.map Task.name)
      ((s.noted (performAll faults t now s.batchId tasks m).1).close remaining) := by
  have hnames : tasks.map Task.name = (performAll faults t now s.batchId tasks m).1.map fun entry => entry.1.name := by
    conv_lhs => rw [← performAll_tasks faults t now s.batchId tasks m]
    exact List.map_map
  rw [hnames]
  refine ⟨counted_noted s _ remaining, ?_, ?_, ?_⟩
  · rw [List.length_map]
    exact noted_processed s _
  · change ((s.noted _).details.map _).Sublist _
    rw [noted_details]
    refine map_filterMap_sublist fun entry hentry v hv => ?_
    obtain ⟨m', houtcome⟩ := performAll_outcome faults t now entry hentry
    exact perform_names (houtcome.trans (Entry.outcome_of_resolved hv))
  · change ((s.noted _).errors.map _).Sublist _
    rw [noted_errors, List.map_map]
    exact map_filterMap_sublist fun entry _ e he => Entry.name_of_error he

end Accounts

end GoalReconciliation.Sweep

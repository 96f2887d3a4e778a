import GoalReconciliation.Proofs.Operations.Writes

/-!
# Calls of operations

* `Operation.marks`, `Operation.edits`, `Operation.pairs`, `Operation.reads` : the operations that write marks, those of
  them that are no runs, those that make or dissolve pairs, and those that only ask; `procedure_reads` : these change
  nothing;
* `Operation.Call`, `Memory.after` : an operation at an instant, on a store some of whose steps may fail, and what
  several calls leave;
* `leaves_matchGoal`, `leaves_matchBatch`, `leaves_tagRecords`, `leaves_createMatch`, `leaves_removeMatches`,
  `leaves_sweep`, `leaves_linkReversal`, `leaves_unlinkReversal` : what each operation leaves;
* `after_invariant` : what one call preserves, a sequence of calls preserves;
* `leaves_marks`, `leaves_edits`, `leaves_pairs` : **a call preserves each property that outlasts what it writes**.
-/

namespace GoalReconciliation

set_option autoImplicit false

namespace Operation

def marks : Operation → Bool
  | matchGoal .. | matchBatch .. | tagRecords _ | createMatch .. | removeMatches .. | sweep _ => true
  | _ => false

def edits : Operation → Bool
  | tagRecords _ | createMatch .. | removeMatches .. | sweep _ => true
  | _ => false

def pairs : Operation → Bool
  | linkReversal .. | unlinkReversal .. => true
  | _ => false

def reads : Operation → Bool
  | save _ => false
  | operation => !operation.marks && !operation.pairs

/-- An operation writes marks, makes or dissolves pairs, only asks, or stores directly what it is given. -/
theorem kind (operation : Operation) :
    operation.marks = true ∨ operation.pairs = true ∨ operation.reads = true ∨ ∃ writes, operation = .save writes := by
  cases operation with
  | save writes => exact .inr (.inr (.inr ⟨writes, rfl⟩))
  | _ => first | exact .inl rfl | exact .inr (.inl rfl) | exact .inr (.inr (.inl rfl))

end Operation

/-! ## Operations that only ask -/

namespace Procedure

variable {α β : Type}

theorem reads_bind {p : Procedure α} {f : α → Procedure β} (hp : p.Reads) (hf : ∀ a, (f a).Reads) :
    (p >>= f).Reads := by
  change (p.bind f).Reads
  induction p with
  | done outcome =>
      cases outcome with
      | ok a => exact hf a
      | error failure => trivial
  | ask request next ih =>
      cases request with
      | query question => exact fun answer => ih answer (hp answer)
      | save w => cases hp
      | saveAll writes => cases hp
  | record event rest ih => exact ih hp

theorem reads_inOrder {procedures : List (Procedure α)} (h : ∀ p ∈ procedures, p.Reads) :
    (inOrder procedures).Reads := by
  induction procedures with
  | nil => trivial
  | cons p rest ih =>
      obtain ⟨hp, hrest⟩ := List.forall_mem_cons.mp h
      exact reads_bind hp fun _ => reads_bind (ih hrest) fun _ => trivial

end Procedure

open Procedure (reads_bind reads_inOrder reads_lift reads_query)

namespace Reversal

theorem need_reads (id : String) : (need id).Reads := by
  refine reads_bind (reads_query fun _ => trivial) fun found => ?_
  cases found <;> trivial

theorem candidates_reads (id : String) (range : Option DateRange) : (candidates id range).Reads :=
  reads_bind (need_reads id) fun _ => reads_query fun _ => trivial

theorem partner_reads (id : String) : (partner id).Reads := by
  refine reads_bind (need_reads id) fun r => ?_
  cases r.reversal with
  | none => trivial
  | some held => exact reads_query fun _ => trivial

end Reversal

theorem resolutionStats_reads (range : Option DateRange) : (resolutionStats range).Reads := by
  refine reads_inOrder fun p hp => ?_
  obtain ⟨tag, -, rfl⟩ := List.mem_map.mp hp
  have hcount : ∀ resolved, (TagStats.count tag resolved range).Reads :=
    fun _ => reads_query fun _ => reads_query fun _ => trivial
  exact reads_bind (hcount true) fun _ => reads_bind (hcount false) fun _ => trivial

theorem ResolvedRow.report_reads (range : Option DateRange) (goal : Option String) (tag : Option ReviewTag) :
    (report range goal tag).Reads :=
  reads_query fun _ => reads_query fun _ => reads_query fun _ => reads_bind trivial fun _ =>
    reads_lift fun _ => trivial

/-- **Reports, summaries and single questions change nothing.** -/
theorem Operation.procedure_reads {operation : Operation} (h : operation.reads = true) (t : Tolerance)
    (now : Timestamp) : (operation.procedure t now).Reads := by
  cases operation with
  | reversalCandidates id range => exact reads_bind (Reversal.candidates_reads id range) fun _ => trivial
  | reversalPartner id => exact reads_bind (Reversal.partner_reads id) fun _ => trivial
  | resolutionStats range => exact reads_bind (resolutionStats_reads range) fun _ => trivial
  | resolvedReport range goal tag => exact reads_bind (ResolvedRow.report_reads range goal tag) fun _ => trivial
  | goalSummary goal range =>
      exact reads_bind (reads_query fun _ => reads_query fun _ => reads_bind trivial fun _ => trivial) fun _ => trivial
  | instrumentSummary goal range =>
      refine reads_bind (reads_query fun _ => reads_lift fun _ => reads_query fun _ => reads_lift fun _ => trivial)
        fun _ => trivial
  | statusCounts goal range => exact reads_bind (reads_query fun _ => trivial) fun _ => trivial
  | holderIds key => exact reads_bind (reads_query fun _ => trivial) fun _ => trivial
  | taggedBank filter limit | taggedKeys filter limit => exact reads_query fun _ => reads_query fun _ => trivial
  | bankById ids => exact reads_query fun _ => reads_lift fun _ => trivial
  | postingsByKey keys => exact reads_query fun _ => reads_lift fun _ => trivial
  | bankIds | postingIds | manualMatchIds | goalIds => exact reads_query fun _ => trivial
  | _ => cases h

/-- An operation at an instant, on a store some of whose steps may fail. -/
structure Operation.Call where
  operation : Operation
  now : Timestamp
  faults : Option Faults := none

namespace Operation.Call

def leaves (t : Tolerance) (m : Memory) (c : Call) : Memory :=
  ((Memory.under c.faults).run (c.operation.procedure t c.now) m).state

/-- The call is of an operation that writes marks or reversal pairs. -/
def Writes (c : Call) : Prop :=
  c.operation.marks = true ∨ c.operation.pairs = true

section Leaves

variable (t : Tolerance) (m : Memory) (now : Timestamp) (faults : Option Faults)

/-! What is told of a result leaves the store as it is. -/

theorem leaves_matchGoal (goal : String) (range : DateRange) (tolerance : Option Tolerance) (persistent : Bool)
    (actor : String) :
    leaves t m ⟨.matchGoal goal range tolerance persistent actor, now, faults⟩ =
      ((Memory.under faults).run (RunResult.ofGoal (tolerance.getD t) now goal range persistent actor) m).state :=
  Repository.effect_bind_state _ fun _ _ => rfl

theorem leaves_matchBatch (range : DateRange) (chunk : BatchResult.Chunk) (actor : String) :
    leaves t m ⟨.matchBatch range chunk actor, now, faults⟩ =
      ((Memory.under faults).run (BatchResult.ofChunk t now range chunk actor) m).state :=
  Repository.effect_bind_state _ fun _ _ => rfl

theorem leaves_tagRecords (tagging : Tagging) :
    leaves t m ⟨.tagRecords tagging, now, faults⟩ = ((Memory.under faults).effect (tagging.apply now) m).2 :=
  Repository.effect_bind_state _ fun _ _ => rfl

theorem leaves_createMatch (ids keys : List String) (actor : String) :
    leaves t m ⟨.createMatch ids keys actor, now, faults⟩ =
      ((Memory.under faults).run (ManualMatch.create t now ids keys actor) m).state :=
  Repository.effect_bind_state _ fun _ _ => rfl

theorem leaves_removeMatches (ids keys : List String) (actor : String) :
    leaves t m ⟨.removeMatches ids keys actor, now, faults⟩ =
      ((Memory.under faults).run (ManualMatch.remove ids keys actor) m).state :=
  Repository.effect_bind_state _ fun _ _ => rfl

theorem leaves_sweep (s : Sweep) :
    leaves t m ⟨.sweep s, now, faults⟩ = ((Memory.under faults).effect (s.run t now) m).2 :=
  Repository.effect_bind_state _ fun _ _ => rfl

theorem leaves_linkReversal (idA idB actor : String) :
    leaves t m ⟨.linkReversal idA idB actor, now, faults⟩ =
      ((Memory.under faults).effect (Reversal.link t now idA idB actor) m).2 :=
  Repository.effect_bind_state _ fun _ _ => rfl

theorem leaves_unlinkReversal (id actor : String) :
    leaves t m ⟨.unlinkReversal id actor, now, faults⟩ =
      ((Memory.under faults).effect (Reversal.unlink id actor) m).2 :=
  Repository.effect_bind_state _ fun _ _ => rfl

end Leaves

theorem leaves_save {C : Store → Prop} {writes : List Write} (h : ∀ w ∈ writes, w.Preserves C) (t : Tolerance)
    {m : Memory} (hm : C m.store) (now : Timestamp) (faults : Option Faults) :
    C (leaves t m ⟨.save writes, now, faults⟩).store := by
  have hsaves : (writes.forM Procedure.save).Ensures C fun _ => True := by
    induction writes with
    | nil => trivial
    | cons w rest ih =>
        obtain ⟨hw, hrest⟩ := List.forall_mem_cons.mp h
        exact Procedure.ensures_bind (Procedure.ensures_save hw) fun _ _ => ih hrest
  have hcall : (Operation.procedure t now (.save writes)).Ensures C fun _ => True :=
    Procedure.ensures_bind hsaves fun _ _ => trivial
  exact (Memory.run_ensures faults hcall hm).1

theorem leaves_reads (t : Tolerance) (m : Memory) {c : Call} (h : c.operation.reads = true) : c.leaves t m = m :=
  Memory.run_reads c.faults (Operation.procedure_reads h t c.now) m

end Operation.Call

def Memory.after (t : Tolerance) (m : Memory) (calls : List Operation.Call) : Memory :=
  calls.foldl (Operation.Call.leaves t) m

section Invariants

variable {t : Tolerance} {C : Store → Prop}

/-- What each of several calls preserves, all of them preserve. -/
theorem Memory.after_invariant {I : Memory → Prop} {calls : List Operation.Call}
    (hstep : ∀ c ∈ calls, ∀ m, I m → I (c.leaves t m)) {m : Memory} (hm : I m) : I (m.after t calls) := by
  induction calls generalizing m with
  | nil => exact hm
  | cons c rest ih =>
      obtain ⟨hc, hrest⟩ := List.forall_mem_cons.mp hstep
      exact ih hrest (hc m hm)

theorem Operation.ensures_edits (h : Lasting BankRecord.Editing C) {operation : Operation}
    (hedits : operation.edits = true) (now : Timestamp) : (operation.procedure t now).Ensures C fun _ => True := by
  cases operation with
  | tagRecords tagging => exact Procedure.ensures_bind (tagging.apply_lasts h now) fun _ _ => trivial
  | createMatch ids keys actor =>
      exact Procedure.ensures_bind (ManualMatch.create_lasts (h.onBank fun _ _ hw => hw.1) t now ids keys actor)
        fun _ _ => trivial
  | removeMatches ids keys actor =>
      exact Procedure.ensures_bind (ManualMatch.remove_lasts (h.onBank fun _ _ hw => hw.1) ids keys actor)
        fun _ _ => trivial
  | sweep s => exact Procedure.ensures_bind (s.run_lasts h t now) fun _ _ => trivial
  | _ => cases hedits

theorem Operation.ensures_marks (h : Lasting BankRecord.Marking C) {operation : Operation}
    (hmarks : operation.marks = true) (now : Timestamp) : (operation.procedure t now).Ensures C fun _ => True := by
  cases operation with
  | matchGoal goal range tolerance persistent actor =>
      exact Procedure.ensures_bind
        (RunResult.ofGoal_lasts (h.onBank fun _ _ hw => hw.1) _ now goal range persistent actor) fun _ _ => trivial
  | matchBatch range chunk actor =>
      exact Procedure.ensures_bind (BatchResult.ofChunk_lasts (h.onBank fun _ _ hw => hw.1) t now range chunk actor)
        fun _ _ => trivial
  | tagRecords | createMatch | removeMatches | sweep =>
      exact ensures_edits (h.mono fun _ _ => BankRecord.Editing.marking) rfl now
  | _ => cases hmarks

theorem Operation.ensures_pairs (h : Lasting BankRecord.Pairing C) {operation : Operation}
    (hpairs : operation.pairs = true) (now : Timestamp) : (operation.procedure t now).Ensures C fun _ => True := by
  cases operation with
  | linkReversal idA idB actor =>
      exact Procedure.ensures_bind (Reversal.link_lasts h t now idA idB actor) fun _ _ => trivial
  | unlinkReversal id actor => exact Procedure.ensures_bind (Reversal.unlink_lasts h id actor) fun _ _ => trivial
  | _ => cases hpairs

/-- **A call that writes marks preserves each property that outlasts markings.** -/
theorem Operation.Call.leaves_marks (h : Lasting BankRecord.Marking C) {c : Operation.Call}
    (hmarks : c.operation.marks = true) {m : Memory} (hm : C m.store) : C (c.leaves t m).store :=
  (Memory.run_ensures c.faults (Operation.ensures_marks h hmarks c.now) hm).1

theorem Operation.Call.leaves_edits (h : Lasting BankRecord.Editing C) {c : Operation.Call}
    (hedits : c.operation.edits = true) {m : Memory} (hm : C m.store) : C (c.leaves t m).store :=
  (Memory.run_ensures c.faults (Operation.ensures_edits h hedits c.now) hm).1

theorem Operation.Call.leaves_pairs (h : Lasting BankRecord.Pairing C) {c : Operation.Call}
    (hpairs : c.operation.pairs = true) {m : Memory} (hm : C m.store) : C (c.leaves t m).store :=
  (Memory.run_ensures c.faults (Operation.ensures_pairs h hpairs c.now) hm).1

end Invariants

end GoalReconciliation

import GoalReconciliation.Proofs.Operations.Interleaving
import GoalReconciliation.Proofs.Operations.Writes
import GoalReconciliation.Proofs.Run.Effect

/-!
# Operators' matches made during a run

Only runs wait for each other. An operator may match records of a goal while a run for it is under way, and the run
stores whole records as it has read them.

* `persist_saves`, `ofGoal_saves` : whatever a run has read, it stores only records that no operator has matched;
* `Store.HoldsLink`, `ofGoal_keeps` : a run that lists its records once they hold operators' links keeps these;
* `create_commits` : an operator's match writes its link to all selected records at once;
* `Phase`, `phase_turn` : where the two stand, and that each step leads from one such state to the next;
* `match_kept_iff` : **an operator's match stays on a record unless the run has listed its records before and stored
  that record afterwards**, in every order of their steps;
* `match_overtaken` : there is an order in which it does not stay.
-/

namespace GoalReconciliation

set_option autoImplicit false

open Matching Procedure

def Store.HoldsLink (s : Store) (link : MatchReference) (id : String) : Prop :=
  ∃ r, s.bankRecord? id = some r ∧ r.reference = some link

/-- Distinct ids, some of which hold a link. -/
def Store.KeepsLink (ids : List String) (link : MatchReference) (s : Store) : Prop :=
  (s.bank.map BankRecord.id).Nodup ∧ ∀ id ∈ ids, s.HoldsLink link id

def BankRecord.Unlinked (r : BankRecord) : Prop :=
  r.hasManualMatch = false

theorem BankRecord.Unlinked.reference_ne {r : BankRecord} (h : r.Unlinked) {link : MatchReference}
    (hmanual : link.isManual = true) : r.reference ≠ some link := by
  intro hlink
  unfold Unlinked hasManualMatch at h
  rw [hlink] at h
  exact Bool.false_ne_true (h.symm.trans hmanual)

/-! ## What a run does -/

namespace RunResult

theorem persist_saves {C : BankRecord → Prop} {saves : List (List BankRecord)} (h : ∀ w ∈ saves.flatten, C w)
    (r : RunResult) : (r.persist saves).Saves C := by
  induction saves generalizing r with
  | nil => trivial
  | cons records rest ih =>
      obtain ⟨hrecords, hrest⟩ := List.forall_mem_append.mp h
      refine saves_bind ?_ fun next => ih hrest next
      refine ⟨⟨records, rfl, hrecords⟩, fun answer => ?_⟩
      cases answer with
      | ok _ => trivial
      | error failure => cases failure <;> trivial

/-- Whatever a run has read, it stores only records that no operator has matched. -/
theorem ofGoal_saves (t : Tolerance) (now : Timestamp) (goal : String) (range : DateRange) (persistent : Bool)
    (actor : String) : (ofGoal t now goal range persistent actor).Saves BankRecord.Unlinked := by
  refine saves_bind (p := report _ _ _) trivial fun _ => ?_
  refine saves_bind (saves_query (.bankRecords (some goal) (some range))) fun records => ?_
  refine saves_bind (saves_query (.postings (some goal) (some range))) fun postings => ?_
  refine saves_bind (saves_done _) fun a => saves_bind (saves_query (.manualMatches (some goal))) fun manual => ?_
  refine saves_bind (saves_done _) fun r => ?_
  cases persistent with
  | false => trivial
  | true =>
      refine saves_bind (persist_saves (fun w hw => ?_) r) fun _ => trivial
      exact planned_unlinked (mem_plannedSaves hw)

/-- A run that lists its records once they hold operators' links keeps these. -/
theorem ofGoal_keeps (ids : List String) {link : MatchReference} (hmanual : link.isManual = true) (t : Tolerance)
    (now : Timestamp) (goal : String) (range : DateRange) (persistent : Bool) (actor : String) :
    (ofGoal t now goal range persistent actor).Ensures (Store.KeepsLink ids link) fun _ => True := by
  refine ensures_bind (ensures_report _ _ _) fun _ _ => ?_
  refine ensures_bind (ensures_query (.bankRecords (some goal) (some range))) ?_
  rintro records ⟨s, hs, rfl⟩
  refine ensures_bind (ensures_query (.postings (some goal) (some range))) fun postings _ => ?_
  refine ensures_bind (ensures_done _) fun a ha => ?_
  refine ensures_bind (ensures_query (.manualMatches (some goal))) fun manual _ => ?_
  refine ensures_bind (ensures_done _) fun r hr => ?_
  have hsaves : (r.persist (plannedSaves now a.records r)).Ensures (Store.KeepsLink ids link) fun _ => True := by
    obtain ⟨outcome, houtcome, hfound, hleft⟩ := ofAdmission_ok hr
    have hrecords := admitted_distinct hs.1 ha
    obtain ⟨run⟩ := ofRecords_run hrecords (Admission.ofLoaded_groups ha) houtcome
    refine ensures_persist (fun w hw s' hs' => ?_) r
    obtain ⟨old, hold, hid, hunlinked⟩ := planned_replaces run hfound hrecords hleft (mem_plannedSaves hw)
    refine ⟨nodup_replaceOrAdd hs'.1, fun id hmem => ?_⟩
    obtain ⟨held, hheld, hlink⟩ := hs'.2 id hmem
    refine ⟨held, (find?_replaceOrAdd_of_ne fun e => ?_).trans hheld, hlink⟩
    -- the record listed under this id holds the link, so that nothing is planned in its place
    obtain ⟨listed, hlisted, hlistedLink⟩ := hs.2 id hmem
    have hsame := (Store.bankRecord?_iff hs.1).mpr ⟨admitted_of_store ha hold, hid.trans e⟩
    obtain rfl := Option.some.inj (hsame.symm.trans hlisted)
    exact BankRecord.Unlinked.reference_ne hunlinked hmanual hlistedLink
  cases persistent with
  | false => trivial
  | true => exact ensures_bind hsaves fun r _ => ensures_bind (ensures_report _ _ _) fun _ _ => trivial

end RunResult

def Procedure.Opens {α : Type} : Procedure α → Prop
  | .ask request _ => request.lists = true
  | .record _ rest => rest.Opens
  | .done _ => False

/-! ## What an operator's match does -/

/-- The selected records with the link of a match. -/
def ManualMatch.Writes (ids : List String) (records : List BankRecord) (m : ManualMatch) : Prop :=
  records.map BankRecord.id = Assoc.distinct ids ∧ m.reference.isManual = true ∧
    ∀ r ∈ records, r.reference = some m.reference

theorem mem_of_firstMissing? {names found : List String} (h : firstMissing? names found = none) {name : String}
    (hname : name ∈ names) : name ∈ found := by
  have hnot := List.find?_eq_none.mp h name hname
  simpa using hnot

theorem returns_needRecords (ids : List String) :
    (needRecords ids).Returns fun records => ∀ id ∈ ids, id ∈ records.map BankRecord.id := by
  refine returns_query fun records => ?_
  cases hmissing : firstMissing? ids (List.map BankRecord.id records) with
  | some id => exact fun a h => by cases h
  | none =>
      rintro found ⟨⟩ id hid
      exact mem_of_firstMissing? hmissing hid

namespace ManualMatch

theorem markAll_ids {m : ManualMatch} {now : Timestamp} {records : List BankRecord}
    (h : ∀ id ∈ m.bankIds, id ∈ records.map BankRecord.id) :
    (m.markAll now records).map BankRecord.id = m.bankIds := by
  unfold markAll
  generalize m.bankIds = ids at h
  induction ids with
  | nil => rfl
  | cons id rest ih =>
      obtain ⟨hid, hrest⟩ := List.forall_mem_cons.mp h
      obtain ⟨r, hr, rfl⟩ := List.mem_map.mp hid
      cases hfind : records.find? fun x => decide (x.id = r.id) with
      | none => exact absurd (decide_eq_true rfl) (List.find?_eq_none.mp hfind r hr)
      | some found =>
          have hname : found.id = r.id := by simpa using List.find?_some hfind
          rw [List.filterMap_cons_some (b := found.mark m.reference 100 .matched now) (by rw [hfind]; rfl),
            List.map_cons, ih hrest]
          exact congrArg (· :: rest) hname

/-- An operator's match writes its link to all selected records at once. -/
theorem create_commits (t : Tolerance) (now : Timestamp) (bankIds groupKeys : List String) (actor : String) :
    (create t now bankIds groupKeys actor).Commits (Writes bankIds) := by
  unfold create
  simp only []
  split
  · exact ⟨_, rfl⟩
  · refine commits_bind (asks_needRecords _) (returns_needRecords _) fun records hfound => ?_
    refine commits_bind (asks_needPostings _) (returns_true _) fun postings _ => ?_
    cases hm : checkSelection t now actor (Assoc.distinct bankIds) (Assoc.distinct groupKeys) records postings with
    | error failure => exact ⟨_, rfl⟩
    | ok m =>
        obtain ⟨goal, totals, -, -, -, rfl⟩ := checkSelection_eq_ok.mp hm
        refine ⟨⟨_, _, rfl, ⟨?_, ?_, fun r hr => ?_⟩, rfl⟩, fun failure => ⟨failure, rfl⟩⟩
        · exact markAll_ids hfound
        · rfl
        · obtain ⟨id, -, hr⟩ := List.mem_filterMap.mp hr
          obtain ⟨old, -, rfl⟩ := Option.map_eq_some_iff.mp hr
          rfl

end ManualMatch

/-! ## Where the two stand -/

def HasListed (history : List Access) : Prop :=
  ∃ a ∈ history, a.party = .run ∧ a.request.lists = true

namespace Concurrent

structure Sound (c : Concurrent RunResult ManualMatch) : Prop where
  depth : c.memory.depth = 0
  distinct : (c.memory.store.bank.map BankRecord.id).Nodup
  saves : c.run.Saves BankRecord.Unlinked

/-- The operator has not written yet. The run has listed records, or still will. -/
structure Pending (ids : List String) (c : Concurrent RunResult ManualMatch) : Prop where
  operator : c.operator.Commits (ManualMatch.Writes ids)
  quiet : ∀ a ∈ c.history, ∀ id, ¬a.Stores .operator id
  listing : HasListed c.history ∨
    c.run.Opens ∧ ∀ link, link.isManual = true → c.run.Ensures (Store.KeepsLink ids link) fun _ => True

/-- The operator has written the link of a match. From there on a run that has listed records before takes it from those
records that it stores, and one that has not leaves it. -/
structure Made (ids : List String) (m : ManualMatch) (before : List Access) (w : Access) (after : List Access)
    (c : Concurrent RunResult ManualMatch) : Prop where
  operator : c.operator.Reports m
  manual : m.reference.isManual = true
  history : c.history = before ++ w :: after
  written : ∀ id ∈ ids, w.Stores .operator id
  quiet : ∀ a ∈ before ++ after, ∀ id, ¬a.Stores .operator id
  left : HasListed before ∧ (∀ id ∈ ids, c.memory.store.HoldsLink m.reference id ↔ ¬∃ a ∈ after, a.Stores .run id) ∨
    ¬HasListed before ∧ c.run.Ensures (Store.KeepsLink ids m.reference) (fun _ => True) ∧
      c.memory.store.KeepsLink ids m.reference

inductive Phase (ids : List String) (c : Concurrent RunResult ManualMatch) : Prop
  | pending (h : c.Pending ids)
  | refused (failure : Failure) (h : c.operator = .done (.error failure))
  | made (m : ManualMatch) (before : List Access) (w : Access) (after : List Access) (h : c.Made ids m before w after)

variable {faults : Option Faults} {ids : List String}

/-- A request of a run that stores only records without an operator's link. It takes such a link from the records that it
stores, and from no others. -/
theorem answer_link {request : Request} {next : Except Failure request.Answer → Procedure RunResult}
    (h : (Procedure.ask request next).Saves BankRecord.Unlinked) {memory : Memory} (hdepth : memory.depth = 0)
    {link : MatchReference} (hmanual : link.isManual = true) (id : String) :
    ((Memory.under faults).answer request memory).2.store.HoldsLink link id ↔
      memory.store.HoldsLink link id ∧
        ¬Access.Stores ⟨.run, request, ((Memory.under faults).answer request memory).1.toBool⟩ .run id := by
  cases request with
  | query question =>
      have hstate : ((Memory.under faults).answer (.query question) memory).2 = memory :=
        Memory.under_query_state faults question memory
      rw [hstate]
      exact ⟨fun hlink => ⟨hlink, fun hstores => by cases hstores.2.2⟩, And.left⟩
  | save w => cases h
  | saveAll writes =>
      obtain ⟨⟨records, rfl, hunlinked⟩, -⟩ := h
      cases hanswer : ((Memory.under faults).answer (.saveAll [.bank records]) memory).1 with
      | error failure =>
          rw [Memory.saveAll_failed hdepth hanswer]
          exact ⟨fun hlink => ⟨hlink, fun hstores => Bool.false_ne_true hstores.2.1⟩, And.left⟩
      | ok _ =>
          rw [Memory.saveAll_bank_ok hanswer]
          have hids : id ∈ (Request.saveAll [.bank records]).records.map BankRecord.id ↔
              id ∈ records.map BankRecord.id := by rw [Request.records_saveAll]
          by_cases hid : id ∈ records.map BankRecord.id
          · obtain ⟨r, hr, hstored⟩ := Store.bankRecord?_foldl_putBank_of_mem memory.store hid
            refine ⟨?_, fun hlink => absurd ⟨rfl, rfl, hids.mpr hid⟩ hlink.2⟩
            rintro ⟨r', hr', hreference⟩
            obtain rfl := Option.some.inj (hstored.symm.trans hr')
            exact absurd hreference ((hunlinked r hr).reference_ne hmanual)
          · unfold Store.HoldsLink
            rw [Store.bankRecord?_foldl_putBank_of_notMem _ hid]
            exact ⟨fun hlink => ⟨hlink, fun hstores => hid (hids.mp hstores.2.2)⟩, And.left⟩

theorem sound_turn {c : Concurrent RunResult ManualMatch} (h : c.Sound) (party : Party) :
    (c.turn (Memory.under faults) party).Sound := by
  obtain ⟨run, operator, memory, history⟩ := c
  have hanswer : ∀ request, ((Memory.under faults).answer request memory).2.depth = 0 ∧
      (((Memory.under faults).answer request memory).2.store.bank.map BankRecord.id).Nodup := fun request =>
    ⟨(Memory.answer_depth faults request memory).trans h.depth,
      Memory.answer_store faults (Stable.distinct _) h.distinct⟩
  cases party with
  | run =>
      cases run with
      | done outcome => exact h
      | record event rest => exact ⟨h.depth, h.distinct, h.saves⟩
      | ask request next =>
          refine ⟨(hanswer request).1, (hanswer request).2, ?_⟩
          have hsaves := h.saves
          cases request with
          | query question => exact hsaves _
          | save w => cases hsaves
          | saveAll writes => exact hsaves.2 _
  | operator =>
      cases operator with
      | done outcome => exact h
      | record event rest => exact ⟨h.depth, h.distinct, h.saves⟩
      | ask request next => exact ⟨(hanswer request).1, (hanswer request).2, h.saves⟩

theorem not_stores_operator {request : Request} {succeeded : Bool} (id : String) :
    ¬Access.Stores ⟨.run, request, succeeded⟩ .operator id := fun h => by cases h.1

/-- A step of the run before the operator has written. -/
theorem Pending.turn_run {c : Concurrent RunResult ManualMatch} (h : c.Pending ids) :
    (c.turn (Memory.under faults) .run).Pending ids := by
  obtain ⟨run, operator, memory, history⟩ := c
  cases run with
  | done outcome => exact h
  | record event rest => exact ⟨h.operator, h.quiet, h.listing⟩
  | ask request next =>
      refine ⟨h.operator, List.forall_mem_append.mpr ⟨h.quiet, List.forall_mem_singleton.mpr ?_⟩, .inl ?_⟩
      · exact fun id => not_stores_operator id
      · rcases h.listing with ⟨a, ha, hlists⟩ | ⟨hopens, -⟩
        · exact ⟨a, List.mem_append_left _ ha, hlists⟩
        · exact ⟨_, List.mem_append_right _ (List.mem_singleton.mpr rfl), rfl, hopens⟩

/-- A step of the operator leads from questions to questions, or to a refusal, or to a match. -/
theorem Pending.turn_operator {c : Concurrent RunResult ManualMatch} (hc : c.Sound) (h : c.Pending ids) :
    (c.turn (Memory.under faults) .operator).Phase ids := by
  obtain ⟨run, operator, memory, history⟩ := c
  have hoperator := h.operator
  cases operator with
  | done outcome => exact .pending h
  | record event rest => cases hoperator
  | ask request next =>
      cases request with
      | query question =>
          have hstate : ((Memory.under faults).answer (.query question) memory).2 = memory :=
            Memory.under_query_state faults question memory
          refine .pending ⟨hoperator _, List.forall_mem_append.mpr ⟨h.quiet, List.forall_mem_singleton.mpr ?_⟩, ?_⟩
          · exact fun id hstores => by cases hstores.2.2
          · rcases h.listing with ⟨a, ha, hlists⟩ | hopens
            · exact .inl ⟨a, List.mem_append_left _ ha, hlists⟩
            · exact .inr hopens
      | save w => cases hoperator
      | saveAll writes =>
          obtain ⟨⟨records, m, rfl, ⟨hids, hmanual, hlinks⟩, hreports⟩, hfails⟩ := hoperator
          cases hanswer : ((Memory.under faults).answer (.saveAll [.bank records]) memory).1 with
          | error failure =>
              obtain ⟨failure', hfailed⟩ := hfails failure
              refine .refused failure' ?_
              simp only [turn, hanswer]
              exact hfailed
          | ok _ =>
              have hstore := Memory.saveAll_bank_ok hanswer
              have hheld : ∀ id ∈ ids,
                  ((Memory.under faults).answer (.saveAll [.bank records]) memory).2.store.HoldsLink m.reference id := by
                intro id hid
                have hmem : id ∈ records.map BankRecord.id := hids ▸ Assoc.mem_distinct.mpr hid
                obtain ⟨r, hr, hstored⟩ := Store.bankRecord?_foldl_putBank_of_mem memory.store hmem
                exact ⟨r, hstore ▸ hstored, hlinks r hr⟩
              refine .made m history ⟨.operator, .saveAll [.bank records], true⟩ [] ⟨?_, hmanual, ?_, ?_, ?_, ?_⟩
              · simp only [turn, hanswer]
                exact hreports
              · simp only [turn, hanswer]
                rfl
              · intro id hid
                refine ⟨rfl, rfl, ?_⟩
                rw [Request.records_saveAll, hids]
                exact Assoc.mem_distinct.mpr hid
              · rw [List.append_nil]
                exact h.quiet
              · by_cases hlisted : HasListed history
                · refine .inl ⟨hlisted, fun id hid => ⟨fun _ => by simp, fun _ => ?_⟩⟩
                  exact hheld id hid
                · obtain ⟨-, hkeeps⟩ := h.listing.resolve_left hlisted
                  have hdistinct : (((Memory.under faults).answer (.saveAll [.bank records]) memory).2.store.bank.map
                      BankRecord.id).Nodup := Memory.answer_store faults (Stable.distinct _) hc.distinct
                  exact .inr ⟨hlisted, hkeeps m.reference hmanual, hdistinct, hheld⟩

theorem Made.turn {c : Concurrent RunResult ManualMatch} (hc : c.Sound) {m : ManualMatch} {before after : List Access}
    {w : Access} (h : c.Made ids m before w after) (party : Party) :
    ∃ after', (c.turn (Memory.under faults) party).Made ids m before w after' := by
  obtain ⟨run, operator, memory, history⟩ := c
  obtain ⟨hoperator, hmanual, hhistory, hwritten, hquiet, hleft⟩ := h
  cases party with
  | operator =>
      cases operator with
      | done outcome => exact ⟨after, hoperator, hmanual, hhistory, hwritten, hquiet, hleft⟩
      | record event rest => exact ⟨after, hoperator, hmanual, hhistory, hwritten, hquiet, hleft⟩
      | ask request next => cases hoperator
  | run =>
      cases run with
      | done outcome => exact ⟨after, hoperator, hmanual, hhistory, hwritten, hquiet, hleft⟩
      | record event rest => exact ⟨after, hoperator, hmanual, hhistory, hwritten, hquiet, hleft⟩
      | ask request next =>
          refine ⟨after ++ [⟨.run, request, ((Memory.under faults).answer request memory).1.toBool⟩], hoperator, hmanual,
            ?_, hwritten, ?_, ?_⟩
          · exact (congrArg (· ++ _) hhistory).trans (List.append_assoc _ _ _)
          · rw [← List.append_assoc]
            exact List.forall_mem_append.mpr
              ⟨hquiet, List.forall_mem_singleton.mpr fun id => not_stores_operator id⟩
          · rcases hleft with ⟨hlisted, hkept⟩ | ⟨hlisted, hensures, hkeeps⟩
            · refine .inl ⟨hlisted, fun id hid => ?_⟩
              refine (answer_link hc.saves hc.depth hmanual id).trans ?_
              simp only [hkept id hid, List.mem_append, List.mem_singleton, or_and_right, exists_or, not_or,
                exists_eq_left]
            · exact .inr ⟨hlisted, hensures.2 _ (Memory.answer_admits faults hkeeps),
                Memory.answer_keeps faults hensures.1 hkeeps⟩

/-- Each step leads from one phase to the same or the next one. -/
theorem phase_turn {c : Concurrent RunResult ManualMatch} (hc : c.Sound) (h : c.Phase ids) (party : Party) :
    (c.turn (Memory.under faults) party).Phase ids := by
  cases h with
  | pending h =>
      cases party with
      | run => exact .pending h.turn_run
      | operator => exact h.turn_operator hc
  | refused failure h =>
      refine .refused failure ?_
      obtain ⟨run, operator, memory, history⟩ := c
      obtain rfl : operator = _ := h
      cases party with
      | operator => rfl
      | run => cases run <;> rfl
  | made m before w after h =>
      obtain ⟨after', h'⟩ := h.turn hc party
      exact .made m before w after' h'

/-- Once an operator's match has been made, it has been written to the selected records, and lost where the run has
overtaken it. -/
theorem Made.kept_iff {c : Concurrent RunResult ManualMatch} {m : ManualMatch} {before after : List Access}
    {w : Access} (h : c.Made ids m before w after) {id : String} (hid : id ∈ ids) :
    c.memory.store.HoldsLink m.reference id ↔ ¬Overtaken c.history id := by
  have hquiet := List.forall_mem_append.mp h.quiet
  have hsplit : ∀ before' w' after', c.history = before' ++ w' :: after' → w'.Stores .operator id →
      before' = before ∧ after' = after := fun before' w' after' hhistory hstores =>
    split_unique (p := fun a => a.Stores .operator id) (h.history.symm.trans hhistory) (fun a ha => hquiet.1 a ha id)
      (fun a ha => hquiet.2 a ha id) hstores
  rcases h.left with ⟨hlisted, hkept⟩ | ⟨hlisted, -, hkeeps⟩
  · rw [hkept id hid, not_iff_not]
    constructor
    · intro hlost
      exact ⟨before, w, after, h.history, hlisted, h.written id hid, hlost⟩
    · rintro ⟨before', w', after', hhistory, -, hstores, hlost⟩
      obtain ⟨-, rfl⟩ := hsplit before' w' after' hhistory hstores
      exact hlost
  · refine ⟨fun _ => ?_, fun _ => hkeeps.2 id hid⟩
    rintro ⟨before', w', after', hhistory, hlists, hstores, -⟩
    obtain ⟨rfl, -⟩ := hsplit before' w' after' hhistory hstores
    exact hlisted hlists

/-- The match that the operator's procedure returns is the one that has been made. -/
theorem Phase.kept_iff {c : Concurrent RunResult ManualMatch} (h : c.Phase ids) {m : ManualMatch}
    (hmade : c.operator.outcome? = some (.ok m)) {id : String} (hid : id ∈ ids) :
    c.memory.store.HoldsLink m.reference id ↔ ¬Overtaken c.history id := by
  have hdone := outcome?_eq_some.mp hmade
  cases h with
  | pending h =>
      have hoperator := h.operator
      rw [hdone] at hoperator
      obtain ⟨failure, hfailed⟩ := hoperator
      cases hfailed
  | refused failure h => cases hdone.symm.trans h
  | made made before w after h =>
      have hoperator := h.operator
      rw [hdone] at hoperator
      obtain rfl := Except.ok.inj hoperator
      exact h.kept_iff hid

end Concurrent

/-! ## The outcome -/

def Concurrent.start (run : Procedure RunResult) (operator : Procedure ManualMatch) (s : Store) :
    Concurrent RunResult ManualMatch :=
  { run := run, operator := operator, memory := .ofStore s }

section Outcome

variable {faults : Option Faults} {t t' : Tolerance} {now now' : Timestamp} {goal : String} {range : DateRange}
  {persistent : Bool} {bankIds groupKeys : List String} {actor actor' : String} {s : Store}

/-- However far the two have come, an operator's match is still to be made, refused, or made. -/
theorem Concurrent.start_phase (hids : (s.bank.map BankRecord.id).Nodup) (order : List Party) :
    ((Concurrent.start (RunResult.ofGoal t now goal range persistent actor)
      (ManualMatch.create t' now' bankIds groupKeys actor') s).play (Memory.under faults) order).Phase bankIds := by
  refine (Concurrent.play_invariant (I := fun c => c.Sound ∧ c.Phase bankIds)
    (fun c party hc => ⟨Concurrent.sound_turn hc.1 party, Concurrent.phase_turn hc.1 hc.2 party⟩) ⟨?_, ?_⟩ order).2
  · exact ⟨rfl, hids, RunResult.ofGoal_saves t now goal range persistent actor⟩
  · refine .pending ⟨?_, ?_, .inr ⟨rfl, ?_⟩⟩
    · exact ManualMatch.create_commits t' now' bankIds groupKeys actor'
    · exact fun a ha => by cases ha
    · exact fun link hmanual => RunResult.ofGoal_keeps bankIds hmanual t now goal range persistent actor

/-- **An operator's match that is made during a run stays on a record unless the run has overtaken it**: unless the run
has listed its records before the match was written, and stored that record afterwards. This holds in every order of
their steps and whatever steps fail, from the moment that the match has been made. -/
theorem match_kept_iff (hids : (s.bank.map BankRecord.id).Nodup) (order : List Party)
    {c : Concurrent RunResult ManualMatch}
    (hc : (Concurrent.start (RunResult.ofGoal t now goal range persistent actor)
      (ManualMatch.create t' now' bankIds groupKeys actor') s).play (Memory.under faults) order = c)
    {m : ManualMatch} (hmade : c.operator.outcome? = some (.ok m)) {id : String} (hid : id ∈ bankIds) :
    c.memory.store.HoldsLink m.reference id ↔ ¬Overtaken c.history id := by
  subst hc
  exact (Concurrent.start_phase hids order).kept_iff hmade hid

end Outcome

namespace Sample

/-- A run for that day, and an operator who matches the record that it is about to match. -/
def meeting : Concurrent RunResult ManualMatch :=
  Concurrent.start run (ManualMatch.create {} ⟨day, 12, 0, 0, 0, some 0⟩ ["paired"] ["a"] "operator") paired

/-- The operator selects and writes between the questions of the run and its save. -/
def between : List Party :=
  List.replicate 4 .run ++ List.replicate 4 .operator ++ List.replicate 2 .run

def madeMatch : ManualMatch :=
  { goal := "goal", reference := ⟨.manual, ["a"], "operator", some ⟨day, 12, 0, 0, 0, some 0⟩⟩, bankIds := ["paired"]
    groupKeys := ["a"], bankTotal := .finite false 100 0, groupTotal := .finite false 100 0
    difference := .finite false 0 0 }

end Sample

theorem match_kept_iff_sample :
    (Sample.meeting.play (Memory.under none) Sample.between).operator.outcome? = some (.ok Sample.madeMatch) ∧
      ((Sample.meeting.play (Memory.under none) Sample.between).memory.store.HoldsLink Sample.madeMatch.reference
          "paired" ↔
        ¬Overtaken (Sample.meeting.play (Memory.under none) Sample.between).history "paired") := by
  have hmade : (Sample.meeting.play (Memory.under none) Sample.between).operator.outcome? =
      some (.ok Sample.madeMatch) := by decide +kernel
  exact ⟨hmade, match_kept_iff (by decide) Sample.between rfl hmade (List.mem_singleton.mpr rfl)⟩

/-- In this order both are done, and the record does not hold the link of the match that the operator has made. -/
theorem match_overtaken :
    (Sample.meeting.play (Memory.under none) Sample.between).run.outcome?.map (·.map RunResult.persisted) =
        some (.ok 1) ∧
      (Sample.meeting.play (Memory.under none) Sample.between).operator.outcome? = some (.ok Sample.madeMatch) ∧
      "paired" ∈ Sample.madeMatch.bankIds ∧
      ¬(Sample.meeting.play (Memory.under none) Sample.between).memory.store.HoldsLink Sample.madeMatch.reference
        "paired" := by
  refine ⟨by decide +kernel, by decide +kernel, by decide, ?_⟩
  rintro ⟨r, hr, hlink⟩
  have hstored : ((Sample.meeting.play (Memory.under none) Sample.between).memory.store.bankRecord? "paired").map
      (fun r => r.reference.map MatchReference.matchType) = some (some .exact) := by decide +kernel
  rw [hr, Option.map_some, hlink] at hstored
  cases hstored

end GoalReconciliation

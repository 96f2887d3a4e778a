import GoalReconciliation.Proofs.Run.Effect
import GoalReconciliation.Proofs.Store.Lapses

/-!
# A match is stored as a whole or not at all

* `ofStore`, `effect_ofGoal` : what a run finds in a store, and the run of a repository that answers from it;
* `effect_persist` : the planned saves where some of them lapse: the others are stored and counted, and each record of
  those is reported once;
* `stored_or_kept` : the records of a match are changed as one, or not at all;
* `Weathered`, `ofGoal_weathers` : **a run whose saves lapse finds what it would have found, and stores exactly what the
  other saves hold**.
-/

namespace GoalReconciliation

set_option autoImplicit false

open Fallible (bind_eq_ok pure_eq_ok)
open Matching

namespace RunResult

def ofStore (t : Tolerance) (goal : String) (range : DateRange) (s : Store) : Except Failure (Admission × RunResult) := do
  let a ← Admission.ofLoaded t goal (s.bankRecords (some goal) (some range)) (s.postings (some goal) (some range))
  let r ← ofAdmission t goal range a (reservedKeys a.records (s.manualMatches (some goal)))
  return (a, r)

section Runs

variable {σ : Type} {repo : Repository σ} {content : σ → Store} {t : Tolerance} {now : Timestamp} {goal : String}
  {range : DateRange} {persistent : Bool} {actor : String} {s : σ}

theorem ofStore_ok {store : Store} {a : Admission} {r : RunResult} (h : ofStore t goal range store = .ok (a, r)) :
    Admission.ofLoaded t goal (store.bankRecords (some goal) (some range)) (store.postings (some goal) (some range)) =
        .ok a ∧
      ofAdmission t goal range a (reservedKeys a.records (store.manualMatches (some goal))) = .ok r := by
  obtain ⟨a', ha, h⟩ := bind_eq_ok.mp h
  obtain ⟨r', hr, h⟩ := bind_eq_ok.mp h
  obtain ⟨rfl, rfl⟩ := Prod.mk.inj (pure_eq_ok.mp h)
  exact ⟨ha, hr⟩

/-- A run of a repository that answers from a store stores what is planned for what it finds there. -/
theorem effect_ofGoal (hanswers : repo.AnswersFrom content) {a : Admission} {r : RunResult}
    (h : ofStore t goal range (content s) = .ok (a, r)) :
    repo.effect (ofGoal t now goal range persistent actor) s =
      repo.effect (r.store persistent (plannedSaves now a.records r)) s := by
  obtain ⟨ha, hr⟩ := ofStore_ok h
  have hstart : repo.effect (ofGoal t now goal range persistent actor) s = repo.effect (Procedure.query _ >>= _) s := rfl
  refine hstart.trans ((hanswers.effect_query _ _ s).trans ((hanswers.effect_query _ _ s).trans ?_))
  refine (Repository.effect_bind (congrArg (·, s) ha)).trans ((hanswers.effect_query _ _ s).trans ?_)
  refine (Repository.effect_bind (congrArg (·, s) hr)).trans ?_
  cases persistent with
  | true =>
      have hsame : repo.Same s _ (r.persist (plannedSaves now a.records r)) := Repository.same_reported
        (r.persist (plannedSaves now a.records r)) (fun r => .runCompleted nilId r.counts r.persisted) (some goal) actor
      exact Prod.ext hsame.outcome hsame.state
  | false => rfl

/-- Where nothing can be found, the run fails and changes nothing. -/
theorem effect_ofGoal_error (hanswers : repo.AnswersFrom content) {failure : Failure}
    (h : ofStore t goal range (content s) = .error failure) :
    repo.effect (ofGoal t now goal range persistent actor) s = (.error failure, s) := by
  have hstart : repo.effect (ofGoal t now goal range persistent actor) s = repo.effect (Procedure.query _ >>= _) s := rfl
  refine hstart.trans ((hanswers.effect_query _ _ s).trans ((hanswers.effect_query _ _ s).trans ?_))
  rcases Fallible.bind_eq_error.mp h with ha | ⟨a, ha, h⟩
  · exact Repository.effect_bind_error (congrArg (·, s) ha)
  · refine (Repository.effect_bind (congrArg (·, s) ha)).trans ((hanswers.effect_query _ _ s).trans ?_)
    rcases Fallible.bind_eq_error.mp h with hr | ⟨r, -, h⟩
    · exact Repository.effect_bind_error (congrArg (·, s) hr)
    · cases h

end Runs

/-! ## Saves, some of which lapse -/

/-- The errors of saves that lapse: one for each of their records. -/
def lapseErrors (lapses : List (List BankRecord × Lapse)) : List RecordError :=
  lapses.flatMap fun lapse => lapse.1.map fun record => ⟨record.id, lapse.2.fault.message, "persistence"⟩

def saved (r : RunResult) (pattern : Nat → Option Lapse) (saves : List (List BankRecord)) (first : Nat := 0) :
    RunResult :=
  { r with
    persisted := r.persisted + (through pattern saves first).flatten.length
    errors := r.errors ++ lapseErrors (lapsed pattern saves first) }

theorem lapseErrors_names (lapses : List (List BankRecord × Lapse)) :
    (lapseErrors lapses).map RecordError.recordId = (lapses.map Prod.fst).flatten.map BankRecord.id := by
  induction lapses with
  | nil => rfl
  | cons lapse rest ih =>
      rw [lapseErrors, List.flatMap_cons, List.map_append, List.map_cons, List.flatten_cons, List.map_append, ← ih,
        List.map_map]
      rfl

theorem lapseErrors_kind {lapses : List (List BankRecord × Lapse)} {e : RecordError} (h : e ∈ lapseErrors lapses) :
    e.kind = "persistence" := by
  obtain ⟨lapse, -, he⟩ := List.mem_flatMap.mp h
  obtain ⟨record, -, rfl⟩ := List.mem_map.mp he
  rfl

section Saves

variable {pattern : Nat → Option Lapse} {r : RunResult} {s : Attended}

theorem effect_persistOne (hs : s.memory.depth = 0) (records : List BankRecord) (h : pattern s.saves.length = none) :
    (Memory.faltering pattern).effect (r.persistOne records) s =
      (.ok { r with persisted := r.persisted + records.length },
        ⟨⟨records.foldl Store.putBank s.memory.store, s.memory.store, 0⟩, s.saves ++ [records]⟩) := by
  have hattempt : (Memory.faltering pattern).effect (Procedure.saveAll [.bank records]).attempt s = _ :=
    Repository.effect_attempt (Procedure.saveAll [.bank records])
  rw [Memory.effect_saveRecords hs records h] at hattempt
  exact Repository.effect_bind hattempt

theorem effect_persistOne_lapse (hs : s.memory.depth = 0) (records : List BankRecord) {lapse : Lapse}
    (h : pattern s.saves.length = some lapse) :
    (Memory.faltering pattern).effect (r.persistOne records) s =
      (.ok { r with errors := r.errors ++ lapseErrors [(records, lapse)] },
        ⟨⟨s.memory.store, s.memory.store, 0⟩, s.saves ++ [records]⟩) := by
  have hattempt : (Memory.faltering pattern).effect (Procedure.saveAll [.bank records]).attempt s = _ :=
    Repository.effect_attempt (Procedure.saveAll [.bank records])
  rw [Memory.effect_saveRecords_lapse hs records h] at hattempt
  rw [lapseErrors, List.flatMap_singleton]
  exact Repository.effect_bind hattempt

/-- Of the planned saves, those that lapse are reported, and the others are stored and counted. -/
theorem effect_persist (hs : s.memory.depth = 0) (saves : List (List BankRecord)) :
    ∃ snapshot, (Memory.faltering pattern).effect (r.persist saves) s =
      (.ok (r.saved pattern saves s.saves.length),
        ⟨⟨(through pattern saves s.saves.length).flatten.foldl Store.putBank s.memory.store, snapshot, 0⟩,
          s.saves ++ saves⟩) := by
  induction saves generalizing r s with
  | nil =>
      obtain ⟨⟨store, snapshot, depth⟩, asked⟩ := s
      obtain rfl : depth = 0 := hs
      refine ⟨snapshot, ?_⟩
      rw [List.append_nil, saved, lapsed, List.zipIdx_nil, List.filterMap_nil, lapseErrors, List.flatMap_nil,
        List.append_nil]
      rfl
  | cons records rest ih =>
      have hlength : (s.saves ++ [records]).length = s.saves.length + 1 := List.length_append
      cases h : pattern s.saves.length with
      | none =>
          obtain ⟨snapshot, hrest⟩ := ih (r := { r with persisted := r.persisted + records.length })
            (s := ⟨⟨records.foldl Store.putBank s.memory.store, s.memory.store, 0⟩, s.saves ++ [records]⟩) rfl
          refine ⟨snapshot, (Repository.effect_bind (effect_persistOne hs records h)).trans (hrest.trans ?_)⟩
          simp only [saved, hlength, through_cons_of_none records rest h, lapsed_cons_of_none records rest h,
            List.flatten_cons, List.length_append, List.foldl_append, List.append_assoc, List.singleton_append,
            Nat.add_assoc]
      | some lapse =>
          obtain ⟨snapshot, hrest⟩ := ih (r := { r with errors := r.errors ++ lapseErrors [(records, lapse)] })
            (s := ⟨⟨s.memory.store, s.memory.store, 0⟩, s.saves ++ [records]⟩) rfl
          refine ⟨snapshot, (Repository.effect_bind (effect_persistOne_lapse hs records h)).trans (hrest.trans ?_)⟩
          simp only [saved, hlength, through_cons_of_some records rest h, lapsed_cons_of_some records rest h,
            lapseErrors, List.flatMap_cons, List.flatMap_nil, List.append_nil, List.append_assoc,
            List.singleton_append]

end Saves

/-! ## The records of one match -/

section Matches

variable {t : Tolerance} {now : Timestamp} {a : Admission} {reserved : List String} {outcome : MatchOutcome}
  {r : RunResult} {store : Store}

theorem save_eq_of_mem {saves : List (List BankRecord)} (hsaves : (saves.flatten.map BankRecord.id).Nodup)
    {save save' : List BankRecord} (h : save ∈ saves) (h' : save' ∈ saves) {w : BankRecord} (hw : w ∈ save)
    (hw' : w ∈ save') : save = save' := by
  by_contra hne
  have : Std.Symm fun a b : List BankRecord => a.Disjoint b := ⟨fun _ _ hdisjoint => hdisjoint.symm⟩
  exact (List.nodup_flatten.mp hsaves.of_map).2.forall h h' hne hw hw'

theorem manual_unchanged (run : Run t a.records a.groups reserved outcome)
    (hfound : r.found.map ReconciledMatch.pairing = outcome.made)
    (hleft : r.unmatchedBank = (recordsById a.records outcome.unmatchedBankIds).map Unmatched.ofRecord)
    (hrecords : (a.records.map BankRecord.id).Nodup) {m : ReconciledMatch} (hm : m ∈ r.found)
    (htype : m.pairing.matchType = .manual) {c : Change} (hc : c ∈ r.changes now a.records) :
    c.old.id ∉ m.pairing.bankIds := by
  intro hid
  obtain ⟨hold, hunlinked⟩ := changes_unlinked run hfound hleft hrecords hc
  have hclaimed : c.old.id ∈ run.stages.manual.bank := by
    rw [run.manual.bank_eq]
    exact List.mem_flatMap.mpr ⟨m.pairing, run.mem_manual (hfound ▸ List.mem_map_of_mem hm) htype, hid⟩
  obtain ⟨linked, hlinked, hsame⟩ := List.mem_map.mp (run.manual.bank_perm.subset hclaimed)
  obtain ⟨hlinked, hmanual⟩ := List.mem_filter.mp hlinked
  rw [Lookup.eq_of_name hrecords hlinked hold hsame, hunlinked] at hmanual
  cases hmanual

variable (hchanges : store.Changes (r.changes now a.records)) {saves : List (List BankRecord)}
  (hsaves : saves.Sublist (plannedSaves now a.records r))

include hchanges hsaves

theorem saves_once : (saves.flatten.map BankRecord.id).Nodup := by
  have honce := hchanges.stored_once
  rw [← plannedSaves_flatten] at honce
  exact honce.sublist (hsaves.flatten.map _)

theorem saved_of_change {c : Change} (hc : c ∈ r.changes now a.records) {w : BankRecord} (hw : w ∈ saves.flatten)
    (hid : w.id = c.old.id) : c.new? = some w := by
  have hplanned := hsaves.flatten.subset hw
  rw [plannedSaves_flatten] at hplanned
  obtain ⟨c', hc', hnew⟩ := List.mem_filterMap.mp hplanned
  rwa [hchanges.eq_of_id hc' hc ((hchanges.new c' hc' w hnew).1.symm.trans hid)] at hnew

/-- Where nothing of a change is saved, the stored record stays. -/
theorem unsaved {c : Change} (hc : c ∈ r.changes now a.records) (h : ∀ w ∈ saves.flatten, c.new? ≠ some w) :
    (saves.flatten.foldl Store.putBank store).bankRecord? c.old.id = store.bankRecord? c.old.id := by
  have hnone : saves.flatten.find? (fun w => decide (w.id = c.old.id)) = none :=
    List.find?_eq_none.mpr fun w hw hid => h w hw (saved_of_change hchanges hsaves hc hw (by simpa using hid))
  rw [Store.bankRecord?_foldl_putBank (saves_once hchanges hsaves), hnone, Option.none_or]

/-- **The records of a match are changed as one or not at all**, whichever of the planned saves are carried out. -/
theorem stored_or_kept (hfound : Found a.records r) {m : ReconciledMatch} (hm : m ∈ r.found)
    (htype : m.pairing.matchType ≠ .manual) :
    (∀ id ∈ m.pairing.bankIds, ∃ old new, store.bankRecord? id = some old ∧
        (saves.flatten.foldl Store.putBank store).bankRecord? id = some new ∧ Marked now m old new) ∨
      ∀ id ∈ m.pairing.bankIds,
        (saves.flatten.foldl Store.putBank store).bankRecord? id = store.bankRecord? id := by
  have hchange : ∀ old ∈ a.records, old.id ∈ m.pairing.bankIds →
      (⟨old, marked? now m old⟩ : Change) ∈ r.changes now a.records := fun old hold hid =>
    (mem_changes hfound.distinct).mpr
      (.inl ⟨m, hm, by simpa [ReconciledMatch.isAlgorithmic] using htype, old, hold, hid, rfl⟩)
  -- the one save of the match, if it has anything to change
  let save := (recordsById a.records m.pairing.bankIds).filterMap (marked? now m)
  have hmem : ∀ old ∈ a.records, old.id ∈ m.pairing.bankIds → ∀ w, marked? now m old = some w → w ∈ save :=
    fun old hold hid w hw =>
      List.mem_filterMap.mpr ⟨old, (mem_recordsById_iff hfound.distinct).mpr ⟨hold, hid⟩, hw⟩
  by_cases hcarried : save ∈ saves
  · left
    intro id hid
    obtain ⟨old, hold, rfl⟩ := hfound.matched m hm htype id hid
    have hc := hchange old hold hid
    have hbefore := (Store.bankRecord?_iff hchanges.distinct).mpr ⟨hchanges.stored _ hc, rfl⟩
    refine ⟨old, _, hbefore, ?_, marked_outcome now m old⟩
    cases hw : marked? now m old with
    | none =>
        have hkept := unsaved hchanges hsaves hc fun w _ hnew => Option.some_ne_none w (hnew.symm.trans hw)
        rw [Change.outcome, Option.getD_none]
        exact hkept.trans hbefore
    | some w =>
        have hfind : saves.flatten.find? (fun x => decide (x.id = old.id)) = some w :=
          (Lookup.find?_eq_some_iff (saves_once hchanges hsaves)).mpr
            ⟨List.mem_flatten.mpr ⟨save, hcarried, hmem old hold hid w hw⟩, (hchanges.new _ hc w hw).1⟩
        rw [Store.bankRecord?_foldl_putBank (saves_once hchanges hsaves), hfind, Option.some_or, Change.outcome,
          Option.getD_some]
  · right
    intro id hid
    obtain ⟨old, hold, rfl⟩ := hfound.matched m hm htype id hid
    refine unsaved hchanges hsaves (hchange old hold hid) fun w hw hnew => hcarried ?_
    obtain ⟨save', hsave', hw⟩ := List.mem_flatten.mp hw
    have hw' : w ∈ save := hmem old hold hid w hnew
    have hplanned : save ∈ plannedSaves now a.records r := by
      refine List.mem_filter.mpr ⟨List.mem_append_left _ (List.mem_map.mpr ⟨m, ?_, rfl⟩), ?_⟩
      · exact List.mem_filter.mpr ⟨hm, by simpa using htype⟩
      · simpa using List.ne_nil_of_mem hw'
    have honce := saves_once hchanges (List.Sublist.refl _)
    rwa [save_eq_of_mem honce hplanned (hsaves.subset hsave') hw' hw]

end Matches

end RunResult

/-! ## The run -/

/-- What a run leaves and reports whose saves lapse by a pattern, by the run on the same store whose saves do not. -/
structure Weathered (now : Timestamp) (pattern : Nat → Option Lapse) (saves : List (List BankRecord))
    (before wholly after : Store) (whole result : RunResult) : Prop where
  found : result = { whole with persisted := result.persisted, errors := result.errors }
  wholly : wholly = saves.flatten.foldl Store.putBank before ∧ whole.persisted = saves.flatten.length
  stored : after = (through pattern saves).flatten.foldl Store.putBank before
  persisted : result.persisted = (through pattern saves).flatten.length
  together : ∀ m ∈ result.found,
    (m.pairing.matchType ≠ .manual ∧ ∀ id ∈ m.pairing.bankIds, ∃ old new, before.bankRecord? id = some old ∧
        after.bankRecord? id = some new ∧ Marked now m old new) ∨
      ∀ id ∈ m.pairing.bankIds, after.bankRecord? id = before.bankRecord? id
  errors : result.errors = whole.errors ++ RunResult.lapseErrors (lapsed pattern saves)
  reported : ∀ save ∈ lapsed pattern saves, ∀ record ∈ save.1,
    ((result.errors.filter (·.kind = "persistence")).map RecordError.recordId).count record.id = 1

namespace RunResult

section Weather

variable {pattern : Nat → Option Lapse} {t : Tolerance} {now : Timestamp} {goal : String} {range : DateRange}
  {persistent : Bool} {actor : String} {m : Memory} {a : Admission} {r : RunResult}

def asked (now : Timestamp) (persistent : Bool) (a : Admission) (r : RunResult) : List (List BankRecord) :=
  if persistent then plannedSaves now a.records r else []

theorem asked_sublist : (r.asked now persistent a).Sublist (plannedSaves now a.records r) := by
  cases persistent with
  | true => exact List.Sublist.refl _
  | false => exact List.nil_sublist _

theorem saved_nil : r.saved pattern [] = r := by
  simp [saved, through, lapsed, lapseErrors]

theorem effect_ofGoal_faltering (pattern : Nat → Option Lapse) (now : Timestamp) (persistent : Bool) (actor : String)
    (hm : m.depth = 0) (h : ofStore t goal range m.store = .ok (a, r)) :
    ∃ snapshot, (Memory.faltering pattern).effect (ofGoal t now goal range persistent actor) ⟨m, []⟩ =
      (.ok (r.saved pattern (r.asked now persistent a)),
        ⟨⟨(through pattern (r.asked now persistent a)).flatten.foldl Store.putBank m.store, snapshot, 0⟩,
          r.asked now persistent a⟩) := by
  have hrun : (Memory.faltering pattern).effect (ofGoal t now goal range persistent actor) ⟨m, []⟩ = _ :=
    effect_ofGoal (Memory.faltering_answersFrom pattern) h
  rw [hrun]
  cases persistent with
  | true => exact effect_persist (s := ⟨m, []⟩) hm _
  | false =>
      obtain ⟨store, snapshot, depth⟩ := m
      obtain rfl : depth = 0 := hm
      refine ⟨snapshot, ?_⟩
      change (Except.ok r, _) = (Except.ok (r.saved pattern []), _)
      rw [saved_nil]
      rfl

/-- What is found is reported with the saves that lapse, and the others are stored. -/
theorem weathered (hids : (m.store.bank.map BankRecord.id).Nodup) (h : ofStore t goal range m.store = .ok (a, r)) :
    Weathered now pattern (r.asked now persistent a) m.store
      ((r.asked now persistent a).flatten.foldl Store.putBank m.store)
      ((through pattern (r.asked now persistent a)).flatten.foldl Store.putBank m.store)
      (r.saved (fun _ => none) (r.asked now persistent a)) (r.saved pattern (r.asked now persistent a)) := by
  obtain ⟨hloaded, hmatched⟩ := ofStore_ok h
  obtain ⟨outcome, houtcome, hfound, hleft⟩ := ofAdmission_ok hmatched
  obtain ⟨hfresh, herrors⟩ := ofAdmission_fresh hmatched
  have hrecords := admitted_distinct hids hloaded
  obtain ⟨run⟩ := ofRecords_run hrecords (Admission.ofLoaded_groups hloaded) houtcome
  have hchanges : m.store.Changes (r.changes now a.records) :=
    changes_spec run hfound hleft hids (admitted_of_store hloaded) hrecords
  have hspec := found_spec run hfound hleft hrecords
  generalize hasked : r.asked now persistent a = saves
  have hsaves : saves.Sublist (plannedSaves now a.records r) := hasked ▸ asked_sublist
  have hthrough := (through_sublist pattern saves 0).trans hsaves
  have hwhole : r.saved (fun _ => none) saves = { r with persisted := saves.flatten.length } := by
    simp [saved, through_unfailing, lapsed_unfailing, lapseErrors, hfresh]
  have hclean : r.errors.filter (·.kind = "persistence") = [] :=
    List.filter_eq_nil_iff.mpr fun e he => by simp [Admission.ofLoaded_kind hloaded e (herrors ▸ he)]
  rw [hwhole]
  refine { found := rfl, wholly := ⟨rfl, rfl⟩, stored := rfl, persisted := ?_, together := ?_, errors := rfl,
           reported := ?_ }
  · simp [saved, hfresh]
  · intro found hmem
    by_cases htype : found.pairing.matchType = .manual
    · right
      intro id hid
      have hnone : (through pattern saves).flatten.find? (fun w => decide (w.id = id)) = none := by
        refine List.find?_eq_none.mpr fun w hw hsame => ?_
        have hplanned := hthrough.flatten.subset hw
        rw [plannedSaves_flatten] at hplanned
        obtain ⟨c, hc, hnew⟩ := List.mem_filterMap.mp hplanned
        refine manual_unchanged run hfound hleft hrecords hmem htype hc ?_
        rwa [← (hchanges.new c hc w hnew).1, show w.id = id by simpa using hsame]
      rw [Store.bankRecord?_foldl_putBank (saves_once hchanges hthrough), hnone, Option.none_or]
    · exact (stored_or_kept hchanges hthrough hspec hmem htype).imp (⟨htype, ·⟩) id
  · intro save hsave record hrecord
    have hall : (lapseErrors (lapsed pattern saves)).filter (·.kind = "persistence") =
        lapseErrors (lapsed pattern saves) :=
      List.filter_eq_self.mpr fun e he => decide_eq_true (lapseErrors_kind he)
    have hids : (((lapsed pattern saves).map Prod.fst).flatten.map BankRecord.id).Nodup :=
      saves_once hchanges ((lapsed_sublist pattern saves 0).trans hsaves)
    rw [saved, List.filter_append, hclean, hall, List.nil_append, lapseErrors_names]
    refine List.count_eq_one_of_mem hids (List.mem_map_of_mem ?_)
    exact List.mem_flatten.mpr ⟨save.1, List.mem_map_of_mem hsave, hrecord⟩

end Weather

end RunResult

/-- **A match is stored as a whole or not at all.** Whichever of its saves lapse, and whatever of their records they
have stored by then, a run returns if it returns where none lapses. It asks for the same saves and finds the same; the
store is left with exactly the saves that were carried out, so that the records of each match are all changed or all as
before; each record of the others is reported once, and the records of those that were carried out are counted. -/
theorem ofGoal_weathers {t : Tolerance} {now : Timestamp} {goal : String} {range : DateRange} {persistent : Bool}
    {actor : String} {m : Memory} (hids : (m.store.bank.map BankRecord.id).Nodup) (hm : m.depth = 0)
    (pattern : Nat → Option Lapse) :
    let run := RunResult.ofGoal t now goal range persistent actor
    (∀ failure, (Memory.repository.run run m).outcome = .error failure →
        ((Memory.faltering pattern).run run ⟨m, []⟩).outcome = .error failure ∧
          ((Memory.faltering pattern).run run ⟨m, []⟩).state = ⟨m, []⟩) ∧
      ∀ whole, (Memory.repository.run run m).outcome = .ok whole →
        ∃ result, ((Memory.faltering pattern).run run ⟨m, []⟩).outcome = .ok result ∧
          ((Memory.faltering pattern).run run ⟨m, []⟩).state.saves = (Memory.unfailing.run run ⟨m, []⟩).state.saves ∧
          Weathered now pattern (Memory.unfailing.run run ⟨m, []⟩).state.saves m.store
            (Memory.repository.run run m).state.store
            ((Memory.faltering pattern).run run ⟨m, []⟩).state.memory.store whole result := by
  intro run
  obtain ⟨houtcome, hmemory⟩ := Memory.run_unfailing run ⟨m, []⟩
  cases h : RunResult.ofStore t goal range m.store with
  | error failure =>
      have hfails : ∀ pattern, (Memory.faltering pattern).effect run ⟨m, []⟩ = (.error failure, ⟨m, []⟩) :=
        fun pattern => RunResult.effect_ofGoal_error (Memory.faltering_answersFrom pattern) h
      have hwhole : (Memory.repository.run run m).outcome = .error failure :=
        houtcome.symm.trans (congrArg Prod.fst (hfails fun _ => none))
      refine ⟨fun failure' hfailure => ?_, fun whole hok => ?_⟩
      · obtain rfl := Except.error.inj (hwhole.symm.trans hfailure)
        exact Prod.mk.inj (hfails pattern)
      · cases hwhole.symm.trans hok
  | ok found =>
      obtain ⟨a, r⟩ := found
      obtain ⟨snapshot, hrun⟩ := RunResult.effect_ofGoal_faltering pattern now persistent actor hm h
      obtain ⟨_, hunfailing⟩ := RunResult.effect_ofGoal_faltering (fun _ => none) now persistent actor hm h
      obtain ⟨hresult, hstate⟩ := Prod.mk.inj hrun
      obtain ⟨hwhole, hwholly⟩ := Prod.mk.inj hunfailing
      rw [through_unfailing] at hwholly
      change (Memory.unfailing.run run ⟨m, []⟩).outcome = _ at hwhole
      change (Memory.unfailing.run run ⟨m, []⟩).state = _ at hwholly
      refine ⟨fun failure hfailure => ?_, fun whole hok => ?_⟩
      · cases (houtcome.symm.trans hwhole).symm.trans hfailure
      · obtain rfl := Except.ok.inj ((houtcome.symm.trans hwhole).symm.trans hok)
        refine ⟨_, hresult, ?_, ?_⟩
        · rw [hstate, hwholly]
        · rw [← hmemory, hstate, hwholly]
          exact RunResult.weathered hids h

namespace Sample

def lapse : Nat → Option Lapse :=
  fun _ => some ⟨.transaction "no space left", fun _ => true⟩

end Sample

theorem ofGoal_weathers_sample :
    ∃ whole result, (Memory.repository.run Sample.run (.ofStore Sample.paired)).outcome = .ok whole ∧
      whole.persisted = 1 ∧
      ((Memory.faltering Sample.lapse).run Sample.run ⟨.ofStore Sample.paired, []⟩).outcome = .ok result ∧
      result.errors = [⟨"paired", "Transaction failed: no space left", "persistence"⟩] ∧
      Weathered ⟨Sample.day, 12, 0, 0, 0, some 0⟩ Sample.lapse
        (Memory.unfailing.run Sample.run ⟨.ofStore Sample.paired, []⟩).state.saves Sample.paired
        (Memory.repository.run Sample.run (.ofStore Sample.paired)).state.store
        ((Memory.faltering Sample.lapse).run Sample.run ⟨.ofStore Sample.paired, []⟩).state.memory.store whole
        result := by
  have hwhole : (Memory.repository.run Sample.run (.ofStore Sample.paired)).outcome.map RunResult.persisted = .ok 1 := by
    decide +kernel
  have hlapse : ((Memory.faltering Sample.lapse).run Sample.run ⟨.ofStore Sample.paired, []⟩).outcome.map
      RunResult.errors = .ok [⟨"paired", "Transaction failed: no space left", "persistence"⟩] := by decide +kernel
  obtain ⟨whole, hwhole, hpersisted⟩ := Fallible.map_eq_ok.mp hwhole
  obtain ⟨result, hresult, herrors⟩ := Fallible.map_eq_ok.mp hlapse
  obtain ⟨result', hresult', -, hweathered⟩ :=
    (ofGoal_weathers (m := .ofStore Sample.paired) (by decide) rfl Sample.lapse).2 whole hwhole
  obtain rfl := Except.ok.inj (hresult'.symm.trans hresult)
  exact ⟨whole, _, hwhole, hpersisted, hresult, herrors, hweathered⟩

end GoalReconciliation

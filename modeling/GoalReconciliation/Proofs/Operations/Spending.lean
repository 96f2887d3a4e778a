import GoalReconciliation.Proofs.Operations.Coherence
import GoalReconciliation.Proofs.Operations.Reversals
import GoalReconciliation.Proofs.Run.Spending

/-!
# No group is spent twice over several runs

* `BankRecord.Retained`, `Store.Retains` : the matches of the passes that are left after edits and dissolved pairs are
  those that were stored before; `Accounted.of_retains` : groups stay accounted for;
* `Operation.Call.complete`, `Operation.Call.sparing` : a run that covers its goals and whose saves succeed, and a pair
  made of records that the passes have not matched;
* `leaves_accounted`, `after_spent_once` : **no group is spent twice, whatever else is called, as long as the runs are
  complete and pairs spare matched records**;
* `bankRecords_of_sorted`, `RunResult.ofListed` : a run on records that are stored in the order of listings;
* `after_spent_twice` : a pair made of a matched record keeps its group, which the next run spends once more.
-/

namespace GoalReconciliation

set_option autoImplicit false

/-! ## What edits leave of matches -/

/-- The record with another review, its pair dissolved or as it was. -/
def BankRecord.Retained (old r : BankRecord) : Prop :=
  ∃ review reversal, r = { old with review := review, reversal := reversal } ∧ (old.reversal = none → reversal = none)

namespace BankRecord.Retained

variable {old r w : BankRecord}

theorem refl (r : BankRecord) : r.Retained r := ⟨r.review, r.reversal, rfl, fun h => h⟩

theorem trans (h : old.Retained r) (h' : r.Retained w) : old.Retained w := by
  obtain ⟨review, reversal, rfl, hnone⟩ := h
  obtain ⟨review', reversal', rfl, hnone'⟩ := h'
  exact ⟨review', reversal', rfl, fun h => hnone' (hnone h)⟩

theorem hasAlgorithmicMatch_eq (h : old.Retained r) : r.hasAlgorithmicMatch = old.hasAlgorithmicMatch := by
  obtain ⟨review, reversal, rfl, -⟩ := h
  rfl

end BankRecord.Retained

/-- A match of the passes that an edit leaves on a record is the one that the record had. -/
theorem BankRecord.Editing.retained {r w : BankRecord} (h : r.Editing w) (hmatch : w.hasAlgorithmicMatch = true) :
    r.Retained w := by
  cases h with
  | reviewed review => exact ⟨review, r.reversal, rfl, fun h => h⟩
  | cleared => cases hmatch
  | linked hfits hmanual =>
      have hnot := BankRecord.hasManualMatch_of_algorithmic hmatch
      cases hmanual.symm.trans hnot

namespace Store

/-- Each record that the passes have matched had that match before. -/
structure Retains (before s : Store) : Prop where
  distinct : (s.bank.map BankRecord.id).Nodup
  kept : ∀ r ∈ s.bank, r.hasAlgorithmicMatch = true → ∃ old ∈ before.bank, old.Retained r

variable {before s : Store}

theorem Retains.refl (hs : (s.bank.map BankRecord.id).Nodup) : s.Retains s :=
  ⟨hs, fun r hr _ => ⟨r, hr, .refl r⟩⟩

theorem lasting_retains (before : Store) :
    Lasting (fun r w => w.hasAlgorithmicMatch = true → r.Retained w) before.Retains where
  distinct _ hs := hs.distinct
  bank r w hr hw s hs := by
    obtain ⟨read, hread, hmem⟩ := hr
    refine ⟨nodup_replaceOrAdd hs.distinct, fun x hx hmatch => ?_⟩
    rcases mem_replaceOrAdd hx with rfl | hold
    · have hretained := hw hmatch
      obtain ⟨old, hold, holdRetained⟩ := hread.kept r hmem (hretained.hasAlgorithmicMatch_eq ▸ hmatch)
      exact ⟨old, hold, holdRetained.trans hretained⟩
    · exact hs.kept x hold hmatch
  posting p s s' hput hs := by
    have hbank := putPosting_bank hput
    exact ⟨hbank ▸ hs.distinct, hbank ▸ hs.kept⟩

/-- **Groups stay accounted for where no matches of the passes are added.** -/
theorem Accounted.of_retains (h : before.Accounted) (hs : before.Retains s) : s.Accounted where
  distinct := hs.distinct
  matchable r hr hmatch := by
    obtain ⟨old, hold, hretained⟩ := hs.kept r hr hmatch
    obtain ⟨hfree, hcheck⟩ := h.matchable old hold (hretained.hasAlgorithmicMatch_eq ▸ hmatch)
    obtain ⟨review, reversal, rfl, hnone⟩ := hretained
    exact ⟨hnone hfree, hcheck⟩
  once r hr r' hr' hgoal hid key hkey hkey' := by
    obtain ⟨old, hold, hretained⟩ := hs.kept r hr (BankRecord.hasAlgorithmicMatch_of_spends hkey)
    obtain ⟨old', hold', hretained'⟩ := hs.kept r' hr' (BankRecord.hasAlgorithmicMatch_of_spends hkey')
    obtain ⟨review, reversal, rfl, -⟩ := hretained
    obtain ⟨review', reversal', rfl, -⟩ := hretained'
    exact h.once old hold old' hold' hgoal hid key hkey hkey'

end Store

/-! ## Calls -/

namespace Operation.Call

/-- The runs of the call cover their goals, and none of their saves fails. -/
def complete (t : Tolerance) (m : Memory) (c : Call) : Bool :=
  match c.operation with
  | .matchGoal goal range .. =>
    decide (m.store.CoveredBy goal range) && (Memory.under c.faults).grants (c.operation.procedure t c.now) m
  | .matchBatch range chunk _ =>
    (chunk.goals (m.store.goalIds (some range))).all (fun goal => decide (m.store.CoveredBy goal range)) &&
      (Memory.under c.faults).grants (c.operation.procedure t c.now) m
  | _ => true

/-- If the call makes a pair, the passes have matched neither of the two records. -/
def sparing (t : Tolerance) (m : Memory) (c : Call) : Bool :=
  match c.operation with
  | .linkReversal idA idB _ =>
    match m.store.bankRecord? idA, m.store.bankRecord? idB with
    | some a, some b => !(Reversal.check t a b).toBool || (!a.hasAlgorithmicMatch && !b.hasAlgorithmicMatch)
    | _, _ => true
  | _ => true

end Operation.Call

def Memory.throughout (t : Tolerance) (holds : Memory → Operation.Call → Bool) : Memory → List Operation.Call → Bool
  | _, [] => true
  | m, c :: rest => holds m c && throughout t holds (c.leaves t m) rest

section Calls

variable {t : Tolerance} {m : Memory}

theorem Reversal.link_accounted {faults : Option Faults} {now : Timestamp} {idA idB actor : String}
    (hdepth : m.depth = 0) (hm : m.store.Accounted)
    (hsparing : Operation.Call.sparing t m ⟨.linkReversal idA idB actor, now, faults⟩ = true) :
    ((Memory.under faults).effect (Reversal.link t now idA idB actor) m).2.store.Accounted := by
  rcases Reversal.link_stores t now idA idB actor hdepth with hsame | ⟨a, b, net, ha, hb, -, hcheck, hstored⟩
  · rw [hsame]
    exact hm
  · rw [hstored]
    have hfree : a.hasAlgorithmicMatch = false ∧ b.hasAlgorithmicMatch = false := by
      simpa [Operation.Call.sparing, ha, hb, hcheck, Except.toBool] using hsparing
    have hmem : ∀ {id : String} {r : BankRecord}, m.store.bankRecord? id = some r → r ∈ m.store.bank :=
      fun hr => ((Store.bankRecord?_iff hm.distinct).mp hr).1
    have hrefl := Store.Retains.refl hm.distinct
    refine hm.of_retains (((Store.lasting_retains m.store).preserves ?_).foldl_putBank hrefl)
    refine List.forall_mem_cons.mpr ⟨⟨a, ⟨_, hrefl, hmem ha⟩, fun hmatch => ?_⟩,
      List.forall_mem_singleton.mpr ⟨b, ⟨_, hrefl, hmem hb⟩, fun hmatch => ?_⟩⟩
    · cases hfree.1.symm.trans hmatch
    · cases hfree.2.symm.trans hmatch

theorem Reversal.unlink_accounted {faults : Option Faults} {id actor : String} (hdepth : m.depth = 0)
    (hm : m.store.Accounted) :
    ((Memory.under faults).effect (Reversal.unlink id actor) m).2.store.Accounted := by
  rcases Reversal.unlink_stores id actor hdepth with hsame | ⟨r, link, hr, -, hstored⟩
  · rw [hsame]
    exact hm
  · rw [hstored]
    have hrefl := Store.Retains.refl hm.distinct
    refine hm.of_retains (((Store.lasting_retains m.store).preserves fun w hw => ?_).foldl_putBank hrefl)
    obtain ⟨released, hmem, rfl⟩ := List.mem_map.mp hw
    refine ⟨released, ⟨_, hrefl, ?_⟩, fun _ => ⟨_, none, rfl, fun _ => rfl⟩⟩
    rcases List.mem_cons.mp hmem with rfl | hback
    · exact ((Store.bankRecord?_iff hm.distinct).mp hr).1
    · have hpartner := (Option.mem_filter_iff.mp (Option.mem_toList.mp hback)).1
      exact ((Store.bankRecord?_iff hm.distinct).mp hpartner).1

/-- **A call keeps all groups accounted for**, if its runs are complete and its pairs spare matched records. -/
theorem Operation.Call.leaves_accounted {c : Operation.Call} (hc : c.Writes) (hcomplete : c.complete t m = true)
    (hsparing : c.sparing t m = true) (hdepth : m.depth = 0) (hm : m.store.Accounted) :
    (c.leaves t m).store.Accounted := by
  obtain ⟨operation, now, faults⟩ := c
  have hedits : operation.edits = true → (Operation.Call.leaves t m ⟨operation, now, faults⟩).store.Accounted := by
    intro hedits
    have hlasting := (Store.lasting_retains m.store).mono fun r w (h : r.Editing w) => h.retained
    exact hm.of_retains (Operation.Call.leaves_edits hlasting hedits (.refl hm.distinct))
  cases operation with
  | matchGoal goal range tolerance persistent actor =>
      obtain ⟨hcovers, hgrants⟩ := (Bool.and_eq_true _ _).mp hcomplete
      change (Memory.under faults).grants (RunResult.ofGoal _ now goal range persistent actor >>= _) m = true at hgrants
      rw [Repository.grants_bind_pure] at hgrants
      rw [Operation.Call.leaves_matchGoal]
      exact RunResult.ofGoal_accounted hm (of_decide_eq_true hcovers) hgrants
  | matchBatch range chunk actor =>
      obtain ⟨hcovers, hgrants⟩ := (Bool.and_eq_true _ _).mp hcomplete
      change (Memory.under faults).grants (BatchResult.ofChunk t now range chunk actor >>= _) m = true at hgrants
      rw [Repository.grants_bind_pure] at hgrants
      rw [Operation.Call.leaves_matchBatch]
      refine BatchResult.ofChunk_accounted hm (fun goal hgoal => ?_) hgrants
      exact of_decide_eq_true (List.all_eq_true.mp hcovers goal hgoal)
  | tagRecords | createMatch | removeMatches | sweep => exact hedits rfl
  | linkReversal idA idB actor =>
      rw [Operation.Call.leaves_linkReversal]
      exact Reversal.link_accounted hdepth hm hsparing
  | unlinkReversal id actor =>
      rw [Operation.Call.leaves_unlinkReversal]
      exact Reversal.unlink_accounted hdepth hm
  | _ => rcases hc with hmarks | hpairs <;> contradiction

theorem Memory.after_accounted {calls : List Operation.Call} (hcalls : ∀ c ∈ calls, c.Writes)
    (hcomplete : m.throughout t (Operation.Call.complete t) calls = true)
    (hsparing : m.throughout t (Operation.Call.sparing t) calls = true) (hdepth : m.depth = 0)
    (hm : m.store.Accounted) : (m.after t calls).store.Accounted := by
  induction calls generalizing m with
  | nil => exact hm
  | cons c rest ih =>
      obtain ⟨hc, hrest⟩ := List.forall_mem_cons.mp hcalls
      obtain ⟨hcomplete, hcomplete'⟩ := (Bool.and_eq_true _ _).mp hcomplete
      obtain ⟨hsparing, hsparing'⟩ := (Bool.and_eq_true _ _).mp hsparing
      exact ih hrest hcomplete' hsparing' ((Memory.run_depth _ _ _).trans hdepth)
        (c.leaves_accounted hc hcomplete hsparing hdepth hm)

/-- **No group is spent twice.** From a store in which the passes have matched nothing, whatever is called: as long as
each run covers its goals and stores all that it plans, and no pair is made of records that the passes have matched, no
two records of a goal hold matches of the passes that name one group, unless they share it as one split. -/
theorem after_spent_once {s : Store} (hids : (s.bank.map BankRecord.id).Nodup)
    (hfresh : ∀ r ∈ s.bank, r.hasAlgorithmicMatch = false) {calls : List Operation.Call}
    (hcalls : ∀ c ∈ calls, c.Writes)
    (hcomplete : (Memory.ofStore s).throughout t (Operation.Call.complete t) calls = true)
    (hsparing : (Memory.ofStore s).throughout t (Operation.Call.sparing t) calls = true) :
    ((Memory.ofStore s).after t calls).store.SpentOnce := by
  have hstart : s.Accounted := by
    refine ⟨hids, fun r hr hmatch => ?_, fun r hr _ _ _ _ key hkey _ => ?_⟩
    · cases (hfresh r hr).symm.trans hmatch
    · cases (hfresh r hr).symm.trans (BankRecord.hasAlgorithmicMatch_of_spends hkey)
  exact (Memory.after_accounted (m := .ofStore s) hcalls hcomplete hsparing rfl hstart).once

end Calls

/-! ## Runs, once their records are listed -/

theorem Store.bankRecords_of_sorted {s : Store} {goal : Option String} {range : Option DateRange}
    (hall : s.bank.filter (fun r => isGoal goal r.goalId && DateRange.admits range r.date) = s.bank)
    (hsorted : s.bank.Pairwise fun a b => Sorting.isBefore BankRecord.date BankRecord.id a b = true) :
    s.bankRecords goal range = s.bank := by
  rw [bankRecords, hall, Sorting.newestFirst, List.mergeSort_of_pairwise hsorted]

/-- A run for one goal, once it has listed the records of the goal. -/
def RunResult.ofListed (t : Tolerance) (now : Timestamp) (goal : String) (range : DateRange) (actor : String)
    (records : List BankRecord) : Procedure RunResult := do
  let postings ← Procedure.postings (some goal) (some range)
  let a ← (Admission.ofLoaded t goal records postings : Except Failure Admission)
  let manual ← Procedure.manualMatches (some goal)
  let r ← (ofAdmission t goal range a (reservedKeys a.records manual) : Except Failure RunResult)
  let r ← r.persist (plannedSaves now a.records r)
  Procedure.report (.runCompleted nilId r.counts r.persisted) (some goal) actor
  return r

theorem RunResult.ofGoal_listed {t : Tolerance} {now : Timestamp} {goal : String} {range : DateRange} {actor : String}
    {m : Memory} {records : List BankRecord} (h : m.store.bankRecords (some goal) (some range) = records) :
    ((Memory.under none).run (ofGoal t now goal range true actor) m).state =
        ((Memory.under none).run (ofListed t now goal range actor records) m).state ∧
      (Memory.under none).grants (ofGoal t now goal range true actor) m =
        (Memory.under none).grants (ofListed t now goal range actor records) m := by
  have hanswer : ((Memory.under none).query (.bankRecords (some goal) (some range)) m).1 = .ok records :=
    congrArg Except.ok h
  have hsame : (Memory.under none).Same m (Procedure.query (.bankRecords (some goal) (some range)) >>=
      ofListed t now goal range actor) (ofListed t now goal range actor records) :=
    h ▸ Memory.same_answered fun _ hnone => by cases hnone
  exact ⟨hsame.state, Memory.grants_query hanswer⟩

namespace Sample

/-- A deposit, the withdrawal that undoes it, a credit like the deposit, and a posting that fits either. -/
def repeated : Store :=
  { reversible with bank := record "credit" "s1" 100 :: reversible.bank }

def oneDay : DateRange :=
  ⟨day, day, one_day day⟩

def runAt (now : Timestamp) : Operation.Call :=
  { operation := .matchGoal "goal" oneDay none true "actor", now := now }

def reversalAt (now : Timestamp) : Operation.Call :=
  { operation := .linkReversal "credit" "withdrawal" "operator", now := now }

/-- What a run for that day leaves if it lists the records as they are stored. -/
def listedAt (now : Timestamp) (m : Memory) : Memory :=
  ((Memory.under none).run (RunResult.ofListed {} now "goal" oneDay "actor" m.store.bank) m).state

theorem leaves_runAt (now : Timestamp) {m : Memory}
    (h : m.store.bankRecords (some "goal") (some oneDay) = m.store.bank) :
    (runAt now).leaves {} m = listedAt now m :=
  (Operation.Call.leaves_matchGoal ..).trans (RunResult.ofGoal_listed h).1

theorem complete_runAt (now : Timestamp) {m : Memory}
    (h : m.store.bankRecords (some "goal") (some oneDay) = m.store.bank) (hcovers : m.store.CoveredBy "goal" oneDay)
    (hgrants : (Memory.under none).grants (RunResult.ofListed {} now "goal" oneDay "actor" m.store.bank) m = true) :
    (runAt now).complete {} m = true := by
  refine (Bool.and_eq_true _ _).mpr ⟨decide_eq_true hcovers, ?_⟩
  exact (Repository.grants_bind_pure _ _ _ _).trans ((RunResult.ofGoal_listed h).2.trans hgrants)

def pairedBefore : List Operation.Call :=
  [reversalAt ⟨day, 11, 0, 0, 0, some 0⟩, runAt ⟨day, 12, 0, 0, 0, some 0⟩]

def pairedBetween : List Operation.Call :=
  [runAt ⟨day, 11, 0, 0, 0, some 0⟩, reversalAt ⟨day, 12, 0, 0, 0, some 0⟩, runAt ⟨day, 13, 0, 0, 0, some 0⟩]

/-- What the first of the two runs leaves, and then the pair. -/
def afterRun : Memory :=
  listedAt ⟨day, 11, 0, 0, 0, some 0⟩ (.ofStore repeated)

def afterPair : Memory :=
  (reversalAt ⟨day, 12, 0, 0, 0, some 0⟩).leaves {} afterRun

end Sample

theorem after_spent_once_sample :
    ((Memory.ofStore Sample.repeated).after {} Sample.pairedBefore).store.SpentOnce ∧
      ((Memory.ofStore Sample.repeated).after {} Sample.pairedBefore).store.bank.map (fun r => (r.id, r.spends "a")) =
        [("credit", false), ("deposit", true), ("withdrawal", false)] := by
  have hlisted : ((Sample.reversalAt ⟨Sample.day, 11, 0, 0, 0, some 0⟩).leaves {}
      (.ofStore Sample.repeated)).store.bankRecords (some "goal") (some Sample.oneDay) = _ :=
    Store.bankRecords_of_sorted (by decide +kernel) (by decide +kernel)
  refine ⟨after_spent_once (by decide) (by decide) ?_ ?_ (by decide +kernel), ?_⟩
  · have hwrites : ∀ c ∈ Sample.pairedBefore, (c.operation.marks || c.operation.pairs) = true := by
      simp [Sample.pairedBefore, Sample.runAt, Sample.reversalAt, Operation.marks, Operation.pairs]
    exact fun c hc => (Bool.or_eq_true _ _).mp (hwrites c hc)
  · have hcomplete := Sample.complete_runAt ⟨Sample.day, 12, 0, 0, 0, some 0⟩ hlisted (by decide +kernel)
      (by decide +kernel)
    exact (Bool.and_eq_true _ _).mpr ⟨rfl, (Bool.and_eq_true _ _).mpr ⟨hcomplete, rfl⟩⟩
  · have hleaves := Sample.leaves_runAt ⟨Sample.day, 12, 0, 0, 0, some 0⟩ hlisted
    change ((Sample.runAt _).leaves {} _).store.bank.map _ = _
    rw [hleaves]
    decide +kernel

/-- A pair made of a record that a run has matched leaves it its group, and the next run takes the group again. -/
theorem after_spent_twice :
    (Sample.repeated.bank.map BankRecord.id).Nodup ∧
      (∀ r ∈ Sample.repeated.bank, r.reference = none ∧ r.reversal = none) ∧
      (∀ c ∈ Sample.pairedBetween, c.Writes) ∧
      (Memory.ofStore Sample.repeated).throughout {} (Operation.Call.complete {}) Sample.pairedBetween = true ∧
      ¬((Memory.ofStore Sample.repeated).after {} Sample.pairedBetween).store.SpentOnce := by
  have hlisted : Sample.repeated.bankRecords (some "goal") (some Sample.oneDay) = _ :=
    Store.bankRecords_of_sorted (by decide +kernel) (by decide +kernel)
  have hlisted' : Sample.afterPair.store.bankRecords (some "goal") (some Sample.oneDay) = _ :=
    Store.bankRecords_of_sorted (by decide +kernel) (by decide +kernel)
  have hfirst : (Sample.runAt ⟨Sample.day, 11, 0, 0, 0, some 0⟩).leaves {} (.ofStore Sample.repeated) =
    Sample.afterRun := Sample.leaves_runAt _ hlisted
  refine ⟨by decide, by decide, ?_, ?_, fun h => ?_⟩
  · have hwrites : ∀ c ∈ Sample.pairedBetween, (c.operation.marks || c.operation.pairs) = true := by
      simp [Sample.pairedBetween, Sample.runAt, Sample.reversalAt, Operation.marks, Operation.pairs]
    exact fun c hc => (Bool.or_eq_true _ _).mp (hwrites c hc)
  · have hcomplete := Sample.complete_runAt ⟨Sample.day, 11, 0, 0, 0, some 0⟩
      (m := .ofStore Sample.repeated) hlisted (by decide +kernel) (by decide +kernel)
    have hcomplete' := Sample.complete_runAt ⟨Sample.day, 13, 0, 0, 0, some 0⟩ hlisted' (by decide +kernel)
      (by decide +kernel)
    refine (Bool.and_eq_true _ _).mpr ⟨hcomplete, ?_⟩
    rw [hfirst]
    exact (Bool.and_eq_true _ _).mpr ⟨rfl, (Bool.and_eq_true _ _).mpr ⟨hcomplete', rfl⟩⟩
  · have hafter : (Memory.ofStore Sample.repeated).after {} Sample.pairedBetween =
        Sample.listedAt ⟨Sample.day, 13, 0, 0, 0, some 0⟩ Sample.afterPair := by
      rw [← Sample.leaves_runAt _ hlisted', Sample.afterPair, ← hfirst]
      rfl
    have hheld : (Sample.listedAt ⟨Sample.day, 13, 0, 0, 0, some 0⟩ Sample.afterPair).store.bank.map
        (fun r => (r.id, r.goalId, r.spends "a", r.reference.map MatchReference.matchType)) =
          [("credit", "goal", true, some .exact), ("deposit", "goal", true, some .exact),
            ("withdrawal", "goal", false, none)] := by decide +kernel
    rw [hafter] at h
    generalize (Sample.listedAt ⟨Sample.day, 13, 0, 0, 0, some 0⟩ Sample.afterPair).store = s at h hheld
    have hmem : ∀ id ∈ ["credit", "deposit"], ∃ r ∈ s.bank,
        (r.id, r.goalId, r.spends "a", r.reference.map MatchReference.matchType) = (id, "goal", true, some .exact) :=
      fun id hid => List.mem_map.mp (hheld ▸ by simpa using hid)
    obtain ⟨r, hr, hcredit⟩ := hmem "credit" (by simp)
    obtain ⟨r', hr', hdeposit⟩ := hmem "deposit" (by simp)
    simp only [Prod.mk.injEq] at hcredit hdeposit
    obtain ⟨hid, hgoal, hspends, htype⟩ := hcredit
    obtain ⟨hid', hgoal', hspends', -⟩ := hdeposit
    obtain ⟨link, -, hlink, -, hsplit, -⟩ :=
      h r hr r' hr' (hgoal'.trans hgoal.symm) (by simp [hid, hid']) "a" hspends hspends'
    simp [hlink, hsplit] at htype

end GoalReconciliation

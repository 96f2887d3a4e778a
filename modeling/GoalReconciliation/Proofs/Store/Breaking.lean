import GoalReconciliation.Proofs.Store.Reviewed
import GoalReconciliation.Proofs.Store.Saved

/-!
# Saves that break

* `Breakdown`, `Memory.breaking` : the store in memory, any of whose saves may break, a save of postings after some of
  them have been stored;
* `effect_saveRecord` : a save of one record stores it or breaks;
* `effect_saveAllPostings` : several postings saved at once are all stored or none of them;
* `putPostings_eq` : postings that take the places of stored ones.
-/

namespace GoalReconciliation

set_option autoImplicit false

open Store (keyOf)

/-- How a save breaks: with which failure, and after how many of its postings are stored. -/
structure Breakdown where
  failure : Failure
  stored : Nat := 0

namespace Memory

/-- The store in memory with the number of saves so far; a pattern tells which of them break, and how. -/
def breaking (pattern : Nat → Option Breakdown) : Repository (Memory × Nat) where
  query question s := (.ok (s.1.store.answer question), s)
  save w s :=
    match pattern s.2, w with
    | none, w => ((s.1.save w).1, (s.1.save w).2, s.2 + 1)
    | some b, .bank _ => (.error b.failure, s.1, s.2 + 1)
    | some b, .postings postings => (.error b.failure, (s.1.save (.postings (postings.take b.stored))).2, s.2 + 1)
  enter s := (s.1.enter, s.2)
  leave failure s := ((s.1.leave failure).1, (s.1.leave failure).2, s.2)

variable (pattern : Nat → Option Breakdown)

theorem effect_saveRecord (w : BankRecord) (s : Memory × Nat) :
    (breaking pattern).effect (Procedure.save (.bank [w])) s =
        (.ok (), { s.1 with store := s.1.store.putBank w }, s.2 + 1) ∨
      ∃ failure, (breaking pattern).effect (Procedure.save (.bank [w])) s = (.error failure, s.1, s.2 + 1) := by
  have heffect : (breaking pattern).effect (Procedure.save (.bank [w])) s = (breaking pattern).save (.bank [w]) s := rfl
  rw [heffect]
  cases hbreaks : pattern s.2 with
  | none =>
      left
      simp only [breaking, hbreaks]
      rfl
  | some b =>
      right
      exact ⟨b.failure, by simp only [breaking, hbreaks]⟩

/-- What a save of postings leaves is in the scope that is open. -/
theorem breaking_save_scope (postings : List Posting) (s : Memory × Nat) :
    ((breaking pattern).save (.postings postings) s).2.1.snapshot = s.1.snapshot ∧
      ((breaking pattern).save (.postings postings) s).2.1.depth = s.1.depth := by
  cases hbreaks : pattern s.2 with
  | none => simp only [breaking, hbreaks, save, and_self]
  | some b => simp only [breaking, hbreaks, save, and_self]

variable {pattern} in
theorem breaking_save_ok {postings : List Posting} {s : Memory × Nat}
    (h : ((breaking pattern).save (.postings postings) s).1 = .ok ()) :
    s.1.store.putPostings postings = (.ok (), ((breaking pattern).save (.postings postings) s).2.1.store) := by
  cases hbreaks : pattern s.2 with
  | none =>
      simp only [breaking, hbreaks] at h ⊢
      exact Prod.ext h rfl
  | some b =>
      simp only [breaking, hbreaks] at h
      cases h

/-- Postings saved at once, where no other scope is open, are all stored or none of them. -/
theorem effect_saveAllPostings (postings : List Posting) {s : Memory × Nat} (hs : s.1.depth = 0) :
    ∃ s', s'.1.depth = 0 ∧
      ((breaking pattern).effect (Procedure.saveAll [.postings postings]) s = (.ok (), s') ∧
          s.1.store.putPostings postings = (.ok (), s'.1.store) ∨
        (∃ failure, (breaking pattern).effect (Procedure.saveAll [.postings postings]) s = (.error failure, s')) ∧
          s'.1.store = s.1.store) := by
  have heffect : (breaking pattern).effect (Procedure.saveAll [.postings postings]) s =
      (breaking pattern).close ((breaking pattern).saveEach [.postings postings] (s.1.enter, s.2)).1
        ((breaking pattern).saveEach [.postings postings] (s.1.enter, s.2)).2 := rfl
  have hscope := breaking_save_scope pattern postings (s.1.enter, s.2)
  have hok : ((breaking pattern).save (.postings postings) (s.1.enter, s.2)).1 = .ok () → _ := breaking_save_ok
  have henter : s.1.enter = { s.1 with snapshot := s.1.store, depth := 1 } := if_pos hs
  rw [heffect]
  unfold Repository.saveEach
  cases hsave : (breaking pattern).save (.postings postings) (s.1.enter, s.2) with
  | mk outcome next =>
      rw [hsave] at hscope hok
      rw [henter] at hscope hok
      have hsnapshot : next.1.snapshot = s.1.store := hscope.1
      have hdepth : next.1.depth = 1 := hscope.2
      cases outcome with
      | ok _ =>
          refine ⟨({ next.1 with depth := 0 }, next.2), rfl, .inl ⟨?_, hok rfl⟩⟩
          simp [Repository.close, Repository.saveEach, breaking, leave, hdepth]
      | error failure =>
          refine ⟨({ next.1 with store := s.1.store, depth := 0 }, next.2), rfl, .inr ⟨⟨failure, ?_⟩, rfl⟩⟩
          simp [Repository.close, breaking, leave, hdepth, hsnapshot]

end Memory

/-! ## Postings -/

namespace Store

variable {s : Store} {postings : List Posting}

theorem putPostings_eq (hs : s.Sound) (hkeyed : ∀ p ∈ postings, p.key = .ok (keyOf p) ∧ p.groupKey = some (keyOf p))
    (honce : (postings.map Posting.id).Nodup) (hof : ∀ p ∈ postings, p.id ∈ s.ledger.map Posting.id) :
    s.putPostings postings = (.ok (), { s with
      ledger := s.ledger.map fun p => (postings.find? fun w => decide (w.id = p.id)).getD p }) := by
  rw [← foldl_replaceOrAdd hs.ledger_once honce hof]
  clear honce hof hs
  induction postings generalizing s with
  | nil => rfl
  | cons p rest ih =>
      obtain ⟨⟨hkey, hstored⟩, hrest⟩ := List.forall_mem_cons.mp hkeyed
      have hput : s.putPosting p = .ok { s with ledger := replaceOrAdd Posting.id p s.ledger } := by
        have hitem : { p with groupKey := some (keyOf p) : Posting } = p := by rw [← hstored]
        unfold putPosting
        rw [hkey]
        exact congrArg (fun q => Except.ok { s with ledger := replaceOrAdd Posting.id q s.ledger }) hitem
      unfold putPostings
      rw [hput]
      exact ih hrest

end Store

end GoalReconciliation

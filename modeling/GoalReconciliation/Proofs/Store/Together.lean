import GoalReconciliation.Proofs.Related
import GoalReconciliation.Proofs.Store.Breaking
import GoalReconciliation.Proofs.Store.Guarantee

/-!
# Several writes at once

* `Store.Stores` : writes one after the other, each of which succeeds;
* `saveRecord_stores`, `saveAll_stores` : whatever steps fail, one record is stored or nothing, and **outside any
  scope, several writes at once are all stored or none of them**;
* `BankMade` : records each of which was kept or replaced by what was made of it; `BankMade.foldl_putBank` : that
  stays so as more is made of the records that there were at first;
* `putPostings_chosen` : some postings, with new reviews, take their own places.
-/

namespace GoalReconciliation

set_option autoImplicit false

open Store (keyOf)

/-! ## All or none -/

inductive Store.Stores : Store → List Write → Store → Prop
  | nil (s : Store) : Stores s [] s
  | cons {s s' s'' : Store} {w : Write} {rest : List Write} (hfirst : s.write w = (.ok (), s'))
      (hrest : Stores s' rest s'') : Stores s (w :: rest) s''

theorem Store.Stores.one {s s' : Store} {w : Write} (h : s.Stores [w] s') : s.write w = (.ok (), s') := by
  cases h with
  | cons hfirst hrest =>
      cases hrest
      exact hfirst

theorem Store.Stores.two {s s' : Store} {w w' : Write} (h : s.Stores [w, w'] s') :
    ∃ between, s.write w = (.ok (), between) ∧ between.write w' = (.ok (), s') := by
  cases h with
  | cons hfirst hrest => exact ⟨_, hfirst, hrest.one⟩

namespace Memory

variable {faults : Option Faults} {m m' : Memory}

theorem saveSingly_postings_ok {f : Faults} {failing : List String} {postings : List Posting}
    (h : repository.saveSingly f Posting.id failing (fun p => .postings [p]) postings m = (.ok (), m')) :
    m.store.putPostings postings = (.ok (), m'.store) := by
  induction postings generalizing m with
  | nil =>
      obtain ⟨-, rfl⟩ := Prod.mk.inj h
      rfl
  | cons p rest ih =>
      unfold Repository.saveSingly at h
      split at h
      · cases h
      · have hsave : repository.save (.postings [p]) m =
            ((m.store.putPostings [p]).1, { m with store := (m.store.putPostings [p]).2 }) := rfl
        rw [hsave] at h
        unfold Store.putPostings at h ⊢
        cases hput : m.store.putPosting p with
        | error problem =>
            rw [hput] at h
            cases h
        | ok next =>
            rw [hput] at h
            exact ih h

theorem under_save_ok {w : Write} (h : (under faults).save w m = (.ok (), m')) :
    m.store.write w = (.ok (), m'.store) := by
  cases w with
  | bank records =>
      have hstored := save_bank_ok (congrArg Prod.fst h)
      rw [h] at hstored
      exact Prod.ext rfl (congrArg store hstored).symm
  | postings postings =>
      have hplain : ∀ {m'}, save (.postings postings) m = (.ok (), m') →
          m.store.putPostings postings = (.ok (), m'.store) := fun hsave => by
        obtain ⟨houtcome, rfl⟩ := Prod.mk.inj hsave
        exact Prod.ext houtcome rfl
      cases faults with
      | none => exact hplain h
      | some f =>
          change repository.saveWithFaults f (.postings postings) m = _ at h
          unfold Repository.saveWithFaults at h
          simp only [] at h
          split at h
          · exact hplain h
          · exact saveSingly_postings_ok h

theorem saveEach_ok {writes : List Write} (h : (under faults).saveEach writes m = (.ok (), m')) :
    m.store.Stores writes m'.store := by
  induction writes generalizing m with
  | nil =>
      obtain ⟨-, rfl⟩ := Prod.mk.inj h
      exact .nil _
  | cons w rest ih =>
      unfold Repository.saveEach at h
      cases hsave : (under faults).save w m with
      | mk outcome next =>
          rw [hsave] at h
          cases outcome with
          | ok _ => exact .cons (under_save_ok hsave) (ih h)
          | error failure => cases h

/-- One record is stored, or nothing is. -/
theorem saveRecord_stores (faults : Option Faults) (w : BankRecord) (m : Memory) :
    (under faults).effect (Procedure.save (.bank [w])) m = (.ok (), { m with store := m.store.putBank w }) ∨
      ∃ failure, (under faults).effect (Procedure.save (.bank [w])) m = (.error failure, m) := by
  have heffect : (under faults).effect (Procedure.save (.bank [w])) m = (under faults).save (.bank [w]) m := rfl
  rw [heffect]
  cases faults with
  | none => exact .inl rfl
  | some f =>
      change repository.saveWithFaults f (.bank [w]) m = _ ∨ ∃ failure, repository.saveWithFaults f (.bank [w]) m = _
      unfold Repository.saveWithFaults
      simp only []
      split
      · exact .inl rfl
      · unfold Repository.saveSingly
        split
        · exact .inr ⟨_, rfl⟩
        · exact .inl rfl

/-- **Outside any scope, several writes at once are all stored or none of them.** -/
theorem saveAll_stores (faults : Option Faults) (writes : List Write) (hm : m.depth = 0) :
    ∃ m', m'.depth = 0 ∧
      ((under faults).effect (Procedure.saveAll writes) m = (.ok (), m') ∧ m.store.Stores writes m'.store ∨
        (∃ failure, (under faults).effect (Procedure.saveAll writes) m = (.error failure, m')) ∧ m'.store = m.store) := by
  have heffect : (under faults).effect (Procedure.saveAll writes) m = (under faults).answer (.saveAll writes) m := rfl
  refine ⟨((under faults).answer (.saveAll writes) m).2, (answer_depth faults _ m).trans hm, ?_⟩
  rw [heffect]
  cases hanswer : ((under faults).answer (.saveAll writes) m).1 with
  | ok _ =>
      obtain ⟨hsaved, hstored⟩ := saveAll_ok hanswer
      refine .inl ⟨Prod.ext hanswer rfl, ?_⟩
      rw [hstored, ← store_enter m]
      exact saveEach_ok (Prod.ext hsaved rfl)
  | error failure => exact .inr ⟨⟨failure, Prod.ext hanswer rfl⟩, saveAll_failed hm hanswer⟩

theorem saveAll_leaves {α : Type} (faults : Option Faults) (writes : List Write) {f : Unit → Procedure α}
    (hf : ∀ a m, ((under faults).effect (f a) m).2 = m) (hm : m.depth = 0) :
    ((under faults).effect (Procedure.saveAll writes >>= f) m).2.store = m.store ∨
      m.store.Stores writes ((under faults).effect (Procedure.saveAll writes >>= f) m).2.store := by
  rw [Repository.effect_bind_state _ hf]
  obtain ⟨m', -, ⟨hsave, hstored⟩ | ⟨⟨failure, hsave⟩, hkept⟩⟩ := saveAll_stores faults writes hm
  · rw [hsave]
    exact .inr hstored
  · rw [hsave]
    exact .inl hkept

end Memory

/-! ## What was made of records -/

section Items

variable {α : Type} {name : α → String} {R : α → α → Prop}

theorem forall₂_replaceOrAdd_made (hname : ∀ x y, R x y → name y = name x) {xs ys : List α}
    (hxs : (xs.map name).Nodup) (h : List.Forall₂ R xs ys) {x w : α} (hx : x ∈ xs) (hw : R x w) :
    List.Forall₂ R xs (replaceOrAdd name w ys) := by
  induction h with
  | nil => cases hx
  | @cons a b as bs hab hrest ih =>
      obtain ⟨hnew, honce⟩ := List.nodup_cons.mp hxs
      unfold replaceOrAdd
      by_cases hsame : name b = name w
      · rw [if_pos hsame]
        have hax : name a = name x := (hname a b hab).symm.trans (hsame.trans (hname x w hw))
        rcases List.mem_cons.mp hx with rfl | hx
        · exact .cons hw hrest
        · exact absurd (hax ▸ List.mem_map_of_mem hx) hnew
      · rw [if_neg hsame]
        have hx' : x ∈ as := (List.mem_cons.mp hx).resolve_left fun e => hsame (by rw [hname a b hab, hname x w hw, e])
        exact .cons hab (ih honce hx')

end Items

namespace Store

variable {R : BankRecord → BankRecord → Prop} {s s' : Store} {records : List BankRecord}

/-- The records of a store, each of them kept or replaced by what was made of it, and the same ledger. -/
structure BankMade (R : BankRecord → BankRecord → Prop) (s s' : Store) : Prop where
  bank : List.Forall₂ R s.bank s'.bank
  ledger : s'.ledger = s.ledger

theorem BankMade.refl (hR : ∀ r, R r r) (s : Store) : s.BankMade R s :=
  ⟨List.forall₂_same.mpr fun r _ => hR r, rfl⟩

theorem BankMade.putBank (h : s.BankMade R s') (hid : ∀ r w, R r w → w.id = r.id)
    (hs : (s.bank.map BankRecord.id).Nodup) {r w : BankRecord} (hr : r ∈ s.bank) (hw : R r w) :
    s.BankMade R (s'.putBank w) :=
  ⟨forall₂_replaceOrAdd_made hid hs h.bank hr hw, h.ledger⟩

theorem BankMade.foldl_putBank (h : s.BankMade R s') (hid : ∀ r w, R r w → w.id = r.id)
    (hs : (s.bank.map BankRecord.id).Nodup) (hw : ∀ w ∈ records, ∃ r ∈ s.bank, R r w) :
    s.BankMade R (records.foldl Store.putBank s') := by
  induction records generalizing s' with
  | nil => exact h
  | cons w rest ih =>
      obtain ⟨⟨r, hr, hmade⟩, hrest⟩ := List.forall_mem_cons.mp hw
      exact ih (h.putBank hid hs hr hmade) hrest

theorem BankMade.sound (h : s.BankMade R s') (hid : ∀ r w, R r w → w.id = r.id) (hs : s.Sound) : s'.Sound where
  bank_once := by
    rw [Related.map_eq (h.bank.imp hid)]
    exact hs.bank_once
  ledger_once := h.ledger ▸ hs.ledger_once
  keyed := h.ledger ▸ hs.keyed

/-! ## Chosen postings -/

theorem putPostings_chosen (hs : s.Sound) {chosen : List Posting} (honce : (chosen.map Posting.id).Nodup)
    {keep : Posting → Bool} (hchosen : ∀ p, p ∈ chosen ↔ p ∈ s.ledger ∧ keep p = true) (change : Review → Review) :
    s.putPostings (chosen.map fun p => { p with review := change p.review }) = (.ok (), { s with
      ledger := s.ledger.map fun p => if keep p then { p with review := change p.review } else p }) := by
  have hids : (chosen.map fun p => { p with review := change p.review }).map Posting.id = chosen.map Posting.id :=
    List.map_map
  have hkeyed : ∀ q ∈ chosen.map fun p => { p with review := change p.review },
      q.key = .ok (keyOf q) ∧ q.groupKey = some (keyOf q) :=
    List.forall_mem_map.mpr fun p hp => hs.keyed p ((hchosen p).mp hp).1
  have hof : ∀ q ∈ chosen.map fun p => { p with review := change p.review }, q.id ∈ s.ledger.map Posting.id :=
    List.forall_mem_map.mpr fun p hp => List.mem_map.mpr ⟨p, ((hchosen p).mp hp).1, rfl⟩
  rw [putPostings_eq hs hkeyed (hids ▸ honce) hof]
  refine Prod.ext rfl (congrArg (fun ledger => { s with ledger := ledger }) (List.map_congr_left fun p hp => ?_))
  rw [List.find?_map]
  change ((chosen.find? fun w => decide (w.id = p.id)).map _).getD p = _
  by_cases hkeep : keep p = true
  · rw [(Lookup.find?_eq_some_iff honce).mpr ⟨(hchosen p).mpr ⟨hp, hkeep⟩, rfl⟩, if_pos hkeep]
    rfl
  · have hnone : chosen.find? (fun w => decide (w.id = p.id)) = none := by
      refine List.find?_eq_none.mpr fun w hw hid => hkeep ?_
      obtain ⟨hmem, hkept⟩ := (hchosen w).mp hw
      exact Lookup.eq_of_name hs.ledger_once hmem hp (of_decide_eq_true hid) ▸ hkept
    rw [hnone, if_neg hkeep]
    rfl

end Store

end GoalReconciliation

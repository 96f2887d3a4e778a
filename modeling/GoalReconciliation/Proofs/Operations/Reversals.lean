import GoalReconciliation.Proofs.Decimal.Exact
import GoalReconciliation.Proofs.Decimal.Laws
import GoalReconciliation.Proofs.Operations.Calls
import GoalReconciliation.Proofs.Related
import GoalReconciliation.Proofs.Store.Reviewed
import GoalReconciliation.Proofs.Store.Saved

/-!
# Reversal pairs

* `Reversal.Opposite`, `opposes_iff` : types of which one is a deposit and the other a payment out;
* `Reversal.Nets`, `Reversal.Partner` : two records that undo each other, and a record with its partner;
* `Nets.exact` : where the sum of the amounts is exact, so is what is said of it;
* `Store.Paired` : each link leads to a partner whose link leads back;
* `BankRecord.core`, `lasting_cores`, `Paired.of_cores` : marks touch neither links nor goals, types and amounts, and
  keep pairs as they are;
* `link_stores`, `unlink_stores` : a pair is made of two free records that undo each other, all or nothing, and
  dissolved on both sides; `Paired.link`, `Paired.unlink` : stores with proper pairs stay so;
* `Paired.dissolves` : where nothing fails, unlinking either record of a pair releases both;
* `after_paired` : **from a store without links, reversal pairs are always proper, and unlinking either record of a pair
  clears exactly both links**.
-/

namespace GoalReconciliation

set_option autoImplicit false

open Fallible (bind_eq_ok pure_eq_ok)

/-! ## Two records that undo each other -/

namespace Reversal

def PaysOut (a : Listed TransactionType) : Prop :=
  a = .known .withdrawal ∨ a = .known .redemption

/-- One type is a deposit, and the other a payment out. -/
def Opposite (a b : Listed TransactionType) : Prop :=
  a = .known .deposit ∧ PaysOut b ∨ PaysOut a ∧ b = .known .deposit

theorem Opposite.symm {a b : Listed TransactionType} (h : Opposite a b) : Opposite b a :=
  h.elim (fun ⟨ha, hb⟩ => .inr ⟨hb, ha⟩) fun ⟨ha, hb⟩ => .inl ⟨hb, ha⟩

theorem opposes_known {a b : TransactionType} : a.opposes b = true ↔ Opposite (.known a) (.known b) := by
  cases a <;> cases b <;> simp [TransactionType.opposes, Opposite, PaysOut]

/-- A type that is given as a word, and only such a one, is told to undo its opposite. -/
theorem opposes_iff {a b : Given TransactionType} :
    opposes a b = .ok true ↔ (∃ word, a = .word word) ∧ Opposite a.listed b.listed := by
  cases a with
  | text text => simp [opposes]
  | word x =>
      change opposes (.word x) b = _ ↔ _ ∧ Opposite (.known x) b.listed
      cases hb : b.listed with
      | known y => simp [opposes, hb, opposes_known]
      | unknown text other => simp [opposes, hb, Opposite, PaysOut]

/-- Two records of one goal and of opposite types, whose amounts net to zero up to the tolerance. -/
structure Nets (t : Tolerance) (a b : BankRecord) : Prop where
  goal : b.goalId = a.goalId
  opposite : Opposite a.transactionType b.transactionType
  net : ∃ net size, a.amount.add b.amount = .ok net ∧ net.abs = .ok size ∧ size.le t.reversalNet = .ok true

variable {t : Tolerance} {a b : BankRecord}

theorem Nets.symm (h : Nets t a b) : Nets t b a where
  goal := h.goal.symm
  opposite := h.opposite.symm
  net := by
    obtain ⟨net, size, hadd, habs, hle⟩ := h.net
    obtain ⟨ordering, horder, -⟩ := Fallible.map_eq_ok.mp hle
    have hnet := Decimal.number_of_abs habs (Decimal.number_of_order horder).1
    obtain ⟨ha, hb⟩ := Decimal.number_of_add hadd hnet
    exact ⟨net, size, Decimal.add_comm_of_numbers ha hb ▸ hadd, habs, hle⟩

/-- Where the exact sum of the amounts has at most 28 digits, its size is within the tolerance. -/
theorem Nets.exact (h : Nets t a b) {p q : ℚ} (ha : a.amount.Worth p) (hb : b.amount.Worth q)
    (hfits : Decimal.Fits (p + q)) : t.reversalNet.Bounds (p + q) := by
  obtain ⟨net, size, hadd, habs, hle⟩ := h.net
  obtain ⟨net', hadd', hnet⟩ := Decimal.add_fits ha hb hfits
  obtain rfl := Except.ok.inj (hadd.symm.trans hadd')
  obtain ⟨size', habs', hsize⟩ := Decimal.abs_fits hnet hfits
  obtain rfl := Except.ok.inj (habs.symm.trans habs')
  exact (Decimal.le_iff_bounds hsize hle).mp rfl

theorem checkFree_ok {r : BankRecord} (h : checkFree r = .ok ()) : r.reversal = none := by
  unfold checkFree at h
  cases hlink : r.reversal with
  | none => rfl
  | some link =>
      rw [hlink] at h
      cases h

/-- Two records that can form a pair undo each other and are both free; the first one has a type that can be asked. -/
theorem check_ok {net : Decimal} (h : check t a b = .ok net) :
    Nets t a b ∧ a.reversal = none ∧ b.reversal = none ∧ opposes a.givenType b.givenType = .ok true := by
  unfold check at h
  simp only [] at h
  split at h
  · cases h
  · rename_i hgoal
    obtain ⟨opposite, hopposite, h⟩ := bind_eq_ok.mp h
    cases opposite with
    | false => cases h
    | true =>
        obtain ⟨net, hadd, h⟩ := bind_eq_ok.mp h
        obtain ⟨size, habs, h⟩ := bind_eq_ok.mp h
        obtain ⟨beyond, hbeyond, h⟩ := bind_eq_ok.mp h
        cases beyond with
        | true => cases h
        | false =>
            obtain ⟨_, hfreeA, h⟩ := bind_eq_ok.mp h
            obtain ⟨_, hfreeB, -⟩ := bind_eq_ok.mp h
            have hle := Decimal.le_of_not_lt (Failure.lift_fault_ok.mp hbeyond)
            have hnets : Nets t a b :=
              ⟨(not_not.mp hgoal).symm, (opposes_iff.mp hopposite).2,
                net, size, Failure.lift_fault_ok.mp hadd, Failure.lift_fault_ok.mp habs, hle⟩
            exact ⟨hnets, checkFree_ok hfreeA, checkFree_ok hfreeB, hopposite⟩

/-- A record and its partner, whose link leads back. -/
structure Partner (t : Tolerance) (a p : BankRecord) : Prop where
  distinct : p.id ≠ a.id
  back : ∃ link, p.reversal = some link ∧ link.partnerId = a.id
  nets : Nets t a p

end Reversal

/-- Records of distinct ids, whose links all lead to partners. -/
structure Store.Paired (t : Tolerance) (s : Store) : Prop where
  distinct : (s.bank.map BankRecord.id).Nodup
  partner : ∀ a ∈ s.bank, ∀ link ∈ a.reversal, ∃ p ∈ s.bank, p.id = link.partnerId ∧ Reversal.Partner t a p

/-! ## Marks -/

/-- A record without its marks, its link to a partner apart. -/
def BankRecord.core (r : BankRecord) : BankRecord :=
  r.clearMatch.plain

namespace BankRecord

variable {r w : BankRecord}

theorem core_marking (h : r.Marking w) : w.core = r.core := by
  cases h <;> rfl

theorem core_id (h : w.core = r.core) : w.id = r.id := by
  have hid : w.core.id = r.core.id := congrArg id h
  exact hid

theorem core_reversal (h : w.core = r.core) : w.reversal = r.reversal := by
  have hreversal : w.core.reversal = r.core.reversal := congrArg reversal h
  exact hreversal

end BankRecord

/-- Partners are told by what they have besides their marks. -/
theorem Reversal.Partner.of_core {t : Tolerance} {a a' p p' : BankRecord} (ha : a'.core = a.core)
    (hp : p'.core = p.core) (h : Partner t a p) : Partner t a' p' := by
  have hcore : Partner t a.core p.core := ⟨h.distinct, h.back, h.nets.goal, h.nets.opposite, h.nets.net⟩
  rw [← ha, ← hp] at hcore
  exact ⟨hcore.distinct, hcore.back, hcore.nets.goal, hcore.nets.opposite, hcore.nets.net⟩

namespace Store

def cores (s : Store) : List BankRecord :=
  s.bank.map BankRecord.core

theorem cores_ids (s : Store) : s.cores.map BankRecord.id = s.bank.map BankRecord.id := List.map_map

/-- Where only marks differ, pairs are the same. -/
theorem Paired.of_cores {t : Tolerance} {s s' : Store} (h : s'.cores = s.cores) (hs : s.Paired t) : s'.Paired t where
  distinct := by
    rw [← cores_ids, h, cores_ids]
    exact hs.distinct
  partner a' ha' link hlink := by
    have hmem : a'.core ∈ s.cores := h ▸ List.mem_map_of_mem ha'
    obtain ⟨a, ha, hcore⟩ := List.mem_map.mp hmem
    obtain ⟨p, hp, hid, hpartner⟩ := hs.partner a ha link (BankRecord.core_reversal hcore ▸ hlink)
    have hmem' : p.core ∈ s'.cores := h ▸ List.mem_map_of_mem hp
    obtain ⟨p', hp', hcore'⟩ := List.mem_map.mp hmem'
    exact ⟨p', hp', (BankRecord.core_id hcore').trans hid, hpartner.of_core hcore.symm hcore'⟩

theorem lasting_cores (s₀ : Store) (hs₀ : (s₀.bank.map BankRecord.id).Nodup) :
    Lasting (fun r w => w.core = r.core) fun s => s.cores = s₀.cores where
  distinct s hs := by
    rw [← cores_ids, hs, cores_ids]
    exact hs₀
  bank r w hr hw s hs := by
    obtain ⟨read, hread, hmem⟩ := hr
    have honce : (s₀.cores.map BankRecord.id).Nodup := cores_ids s₀ ▸ hs₀
    have hcore : r.core ∈ s₀.cores := hread ▸ List.mem_map_of_mem hmem
    refine (map_replaceOrAdd ?_ fun old hold hid => ?_).trans hs
    · rw [BankRecord.core_id hw, ← cores_ids, hs]
      exact List.mem_map.mpr ⟨r.core, hcore, rfl⟩
    · have hold' : old.core ∈ s₀.cores := hs ▸ List.mem_map_of_mem hold
      exact (Lookup.eq_of_name honce hold' hcore (hid.trans (BankRecord.core_id hw))).trans hw.symm
  posting p s s' hput hs := by
    rw [cores, putPosting_bank hput]
    exact hs

end Store

/-! ## Links -/

namespace Reversal

open Memory (under)

variable {faults : Option Faults} {m : Memory}

theorem effect_lookup (id : String) : (under faults).effect (lookup id) m = (.ok (m.store.bankRecord? id), m) := by
  have hanswer : m.store.bankById [id] = (m.store.bankRecord? id).toList := by
    cases hfind : m.store.bankRecord? id with
    | none => simp [Store.bankById, Assoc.distinct, hfind]
    | some r => simp [Store.bankById, Assoc.distinct, hfind]
  refine (Repository.effect_bind (Memory.effect_query (fun _ _ => rfl) m)).trans ?_
  change ((Except.ok (m.store.bankById [id]).head? : Except Failure _), m) = _
  rw [hanswer]
  cases m.store.bankRecord? id <;> rfl

theorem effect_need {id : String} {r : BankRecord} (h : m.store.bankRecord? id = some r) :
    (under faults).effect (need id) m = (.ok r, m) := by
  refine (Repository.effect_bind (effect_lookup id)).trans ?_
  rw [h]
  rfl

theorem effect_need_none {id : String} (h : m.store.bankRecord? id = none) :
    (under faults).effect (need id) m = (.error (.noBankRecord id), m) := by
  refine (Repository.effect_bind (effect_lookup id)).trans ?_
  rw [h]
  rfl

theorem saved_stores {α : Type} (records : List BankRecord) {f : Unit → Procedure α}
    (hf : ∀ a s, ((under faults).effect (f a) s).2 = s) (hm : m.depth = 0) :
    ((under faults).effect (Procedure.saveAll [.bank records] >>= f) m).2.store = m.store ∨
      ((under faults).effect (Procedure.saveAll [.bank records] >>= f) m).2.store =
        records.foldl Store.putBank m.store := by
  rw [Repository.effect_bind_state _ hf]
  exact Memory.saveAll_bank_cases faults records hm

/-- A pair is made of two stored records that can form one, or nothing is stored. -/
theorem link_stores (t : Tolerance) (now : Timestamp) (idA idB actor : String) (hm : m.depth = 0) :
    ((under faults).effect (link t now idA idB actor) m).2.store = m.store ∨
      ∃ a b net, m.store.bankRecord? idA = some a ∧ m.store.bankRecord? idB = some b ∧ idA ≠ idB ∧
        check t a b = .ok net ∧ ((under faults).effect (link t now idA idB actor) m).2.store =
          [pairWith a b actor now, pairWith b a actor now].foldl Store.putBank m.store := by
  unfold link
  by_cases hsame : idA = idB
  · rw [if_pos hsame]
    exact .inl rfl
  rw [if_neg hsame]
  simp only []
  cases ha : m.store.bankRecord? idA with
  | none =>
      rw [Repository.effect_bind_error (effect_need_none ha)]
      exact .inl rfl
  | some a =>
      rw [Repository.effect_bind (effect_need ha)]
      cases hb : m.store.bankRecord? idB with
      | none =>
          rw [Repository.effect_bind_error (effect_need_none hb)]
          exact .inl rfl
      | some b =>
          rw [Repository.effect_bind (effect_need hb)]
          cases hcheck : check t a b with
          | error failure => exact .inl rfl
          | ok net =>
              exact (saved_stores _ (fun _ _ => rfl) hm).imp_right fun hstored =>
                ⟨a, b, net, rfl, rfl, hsame, hcheck, hstored⟩

/-- What unlinking a record releases: the record, and its partner if that points back. -/
def released (s : Store) (r : BankRecord) (link : ReversalLink) : List BankRecord :=
  r :: pointingBack r (s.bankRecord? link.partnerId)

theorem effect_unlink {id : String} {r : BankRecord} {link : ReversalLink} (hr : m.store.bankRecord? id = some r)
    (hlink : r.reversal = some link) (actor : String) :
    (under faults).effect (unlink id actor) m = (under faults).effect
      (Procedure.saveAll [.bank ((released m.store r link).map release)] >>= fun _ =>
        Procedure.report (.reversalUnlinked ((released m.store r link).map BankRecord.id)) (some r.goalId) actor >>=
          fun _ => pure ((released m.store r link).map BankRecord.id)) m := by
  unfold unlink
  rw [Repository.effect_bind (effect_need hr), hlink]
  exact Repository.effect_bind (effect_lookup link.partnerId)

/-- A pair is dissolved, or nothing is stored. -/
theorem unlink_stores (id actor : String) (hm : m.depth = 0) :
    ((under faults).effect (unlink id actor) m).2.store = m.store ∨
      ∃ r link, m.store.bankRecord? id = some r ∧ r.reversal = some link ∧
        ((under faults).effect (unlink id actor) m).2.store =
          ((released m.store r link).map release).foldl Store.putBank m.store := by
  cases hr : m.store.bankRecord? id with
  | none =>
      unfold unlink
      rw [Repository.effect_bind_error (effect_need_none hr)]
      exact .inl rfl
  | some r =>
      cases hlink : r.reversal with
      | none =>
          unfold unlink
          rw [Repository.effect_bind (effect_need hr), hlink]
          exact .inl rfl
      | some link =>
          rw [effect_unlink hr hlink]
          exact (saved_stores _ (fun _ _ => rfl) hm).imp_right fun hstored => ⟨r, link, rfl, hlink, hstored⟩

end Reversal

/-! ## Pairs -/

namespace Store

variable {t : Tolerance} {s : Store} {a b a' b' : BankRecord}

theorem bank_replaceTwo (hs : (s.bank.map BankRecord.id).Nodup) (ha : a ∈ s.bank) (hb : b ∈ s.bank)
    (hne : b.id ≠ a.id) (ha' : a'.id = a.id) (hb' : b'.id = b.id) :
    ([a', b'].foldl putBank s).bank =
      s.bank.map fun r => if r.id = a.id then a' else if r.id = b.id then b' else r := by
  have honce : ([a', b'].map BankRecord.id).Nodup := by simp [ha', hb', hne.symm]
  have hof : ∀ r ∈ [a', b'], r.id ∈ s.bank.map BankRecord.id :=
    List.forall_mem_cons.mpr ⟨ha' ▸ List.mem_map_of_mem ha,
      List.forall_mem_singleton.mpr (hb' ▸ List.mem_map_of_mem hb)⟩
  rw [bank_foldl_putBank hs honce hof]
  refine List.map_congr_left fun r _ => ?_
  by_cases hra : r.id = a.id
  · simp [hra, ha']
  · by_cases hrb : r.id = b.id
    · simp [hrb, hb', ha', hne, hne.symm]
    · have hne' : ¬a.id = r.id := fun e => hra e.symm
      have hne'' : ¬b.id = r.id := fun e => hrb e.symm
      simp [hra, hrb, ha', hb', hne', hne'']

/-- Of records none of which leads to others, none is the partner of another one. -/
theorem Paired.partner_elsewhere (h : s.Paired t) {records : List BankRecord} (hrecords : records ⊆ s.bank)
    (hclosed : ∀ c ∈ records, ∀ link ∈ c.reversal, link.partnerId ∈ records.map BankRecord.id) {r : BankRecord}
    (hr : r ∈ s.bank) (hother : r.id ∉ records.map BankRecord.id) {link : ReversalLink}
    (hlink : r.reversal = some link) :
    ∃ p ∈ s.bank, p.id = link.partnerId ∧ Reversal.Partner t r p ∧ p.id ∉ records.map BankRecord.id := by
  obtain ⟨p, hp, hid, hpartner⟩ := h.partner r hr link hlink
  obtain ⟨back, hback, hbackId⟩ := hpartner.back
  refine ⟨p, hp, hid, hpartner, fun hin => hother ?_⟩
  obtain ⟨c, hc, hsame⟩ := List.mem_map.mp hin
  obtain rfl := Lookup.eq_of_name h.distinct (hrecords hc) hp hsame
  rw [← hbackId]
  exact hclosed c hc back hback

/-- Pairs stay pairs when two records take the places of stored ones, if these are each other's partners or without
links, and if what they replace was nobody's partner but each other's. -/
theorem Paired.replaceTwo (h : s.Paired t) (ha : a ∈ s.bank) (hb : b ∈ s.bank) (hne : b.id ≠ a.id)
    (ha' : a'.id = a.id) (hb' : b'.id = b.id)
    (hpartnerA : ∀ link ∈ a'.reversal, b'.id = link.partnerId ∧ Reversal.Partner t a' b')
    (hpartnerB : ∀ link ∈ b'.reversal, a'.id = link.partnerId ∧ Reversal.Partner t b' a')
    (hclosed : ∀ r ∈ [a, b], ∀ link ∈ r.reversal, link.partnerId ∈ [a.id, b.id]) :
    ([a', b'].foldl putBank s).Paired t := by
  have hbank := bank_replaceTwo h.distinct ha hb hne ha' hb'
  have hmem : ∀ r ∈ s.bank, (if r.id = a.id then a' else if r.id = b.id then b' else r) ∈
      ([a', b'].foldl putBank s).bank := fun r hr => hbank ▸ List.mem_map_of_mem hr
  refine ⟨?_, fun x hx link hlink => ?_⟩
  · rw [names_foldl_putBank]
    · exact h.distinct
    · exact List.forall_mem_cons.mpr ⟨ha' ▸ List.mem_map_of_mem ha,
        List.forall_mem_singleton.mpr (hb' ▸ List.mem_map_of_mem hb)⟩
  · rw [hbank] at hx
    obtain ⟨r, hr, rfl⟩ := List.mem_map.mp hx
    by_cases hra : r.id = a.id
    · rw [if_pos hra] at hlink ⊢
      have hmemB := hmem b hb
      rw [if_neg hne, if_pos rfl] at hmemB
      exact ⟨b', hmemB, hpartnerA link hlink⟩
    · rw [if_neg hra] at hlink ⊢
      by_cases hrb : r.id = b.id
      · rw [if_pos hrb] at hlink ⊢
        have hmemA := hmem a ha
        rw [if_pos rfl] at hmemA
        exact ⟨a', hmemA, hpartnerB link hlink⟩
      · rw [if_neg hrb] at hlink ⊢
        obtain ⟨p, hp, hid, hpartner, helsewhere⟩ := h.partner_elsewhere (List.cons_subset.mpr ⟨ha, by simpa using hb⟩)
          hclosed hr (by simp [hra, hrb]) hlink
        have hmemP := hmem p hp
        rw [if_neg fun e => helsewhere (by simp [e]), if_neg fun e => helsewhere (by simp [e])] at hmemP
        exact ⟨p, hmemP, hid, hpartner⟩

theorem Paired.link (h : s.Paired t) (ha : a ∈ s.bank) (hb : b ∈ s.bank) (hne : b.id ≠ a.id) {net : Decimal}
    (hcheck : Reversal.check t a b = .ok net) (actor : String) (now : Timestamp) :
    ([Reversal.pairWith a b actor now, Reversal.pairWith b a actor now].foldl putBank s).Paired t := by
  obtain ⟨hnets, hfreeA, hfreeB, -⟩ := Reversal.check_ok hcheck
  refine h.replaceTwo ha hb hne rfl rfl (fun link hlink => ?_) (fun link hlink => ?_) fun r hr link hlink => ?_
  · obtain rfl := Option.some.inj hlink
    exact ⟨rfl, hne, ⟨_, rfl, rfl⟩, hnets.goal, hnets.opposite, hnets.net⟩
  · obtain rfl := Option.some.inj hlink
    exact ⟨rfl, hne.symm, ⟨_, rfl, rfl⟩, hnets.symm.goal, hnets.symm.opposite, hnets.symm.net⟩
  · rcases List.mem_pair.mp hr with rfl | rfl
    · cases hfreeA.symm.trans hlink
    · cases hfreeB.symm.trans hlink

/-- What unlinking releases are the record and its partner. -/
theorem Paired.released_eq (h : s.Paired t) (ha : a ∈ s.bank) {link : ReversalLink} (hlink : a.reversal = some link) :
    ∃ p ∈ s.bank, p.id = link.partnerId ∧ Reversal.Partner t a p ∧ Reversal.released s a link = [a, p] := by
  obtain ⟨p, hp, hid, hpartner⟩ := h.partner a ha link hlink
  obtain ⟨back, hback, hbackId⟩ := hpartner.back
  refine ⟨p, hp, hid, hpartner, ?_⟩
  rw [Reversal.released, (bankRecord?_iff h.distinct).mpr ⟨hp, hid⟩, Reversal.pointingBack]
  simp [hback, hbackId]

theorem Paired.unlink (h : s.Paired t) (ha : a ∈ s.bank) {link : ReversalLink} (hlink : a.reversal = some link) :
    (((Reversal.released s a link).map Reversal.release).foldl putBank s).Paired t := by
  obtain ⟨p, hp, hid, hpartner, hreleased⟩ := h.released_eq ha hlink
  obtain ⟨back, hback, hbackId⟩ := hpartner.back
  rw [hreleased]
  refine h.replaceTwo ha hp hpartner.distinct rfl rfl (fun _ hnone => ?_) (fun _ hnone => ?_) fun r hr held hheld => ?_
  · cases hnone
  · cases hnone
  · rcases List.mem_pair.mp hr with rfl | rfl
    · obtain rfl := Option.some.inj (hlink.symm.trans hheld)
      exact List.mem_pair.mpr (.inr hid.symm)
    · obtain rfl := Option.some.inj (hback.symm.trans hheld)
      exact List.mem_pair.mpr (.inl hbackId)

end Store

/-! ## Calls -/

section Calls

variable {t : Tolerance}

theorem Operation.Call.leaves_paired {c : Operation.Call} (hc : c.Writes) {m : Memory} (hdepth : m.depth = 0)
    (hm : m.store.Paired t) : (c.leaves t m).store.Paired t := by
  obtain ⟨operation, now, faults⟩ := c
  rcases hc with hmarks | hpairs
  · have hlasting := (Store.lasting_cores m.store hm.distinct).mono fun _ _ => BankRecord.core_marking
    exact hm.of_cores (Operation.Call.leaves_marks hlasting hmarks rfl)
  · cases operation with
    | linkReversal idA idB actor =>
        rw [Operation.Call.leaves_linkReversal]
        rcases Reversal.link_stores t now idA idB actor hdepth with hsame | ⟨a, b, net, ha, hb, hne, hcheck, hstored⟩
        · rw [hsame]
          exact hm
        · obtain ⟨hmemA, hidA⟩ := (Store.bankRecord?_iff hm.distinct).mp ha
          obtain ⟨hmemB, hidB⟩ := (Store.bankRecord?_iff hm.distinct).mp hb
          rw [hstored]
          exact hm.link hmemA hmemB (hidA ▸ hidB ▸ hne.symm) hcheck actor now
    | unlinkReversal id actor =>
        rw [Operation.Call.leaves_unlinkReversal]
        rcases Reversal.unlink_stores id actor hdepth with hsame | ⟨r, link, hr, hlink, hstored⟩
        · rw [hsame]
          exact hm
        · rw [hstored]
          exact hm.unlink ((Store.bankRecord?_iff hm.distinct).mp hr).1 hlink
    | _ => cases hpairs

/-- A record whose link is cleared, and with it the review that is one of a reversal; all else stays. -/
structure Reversal.Released (before after : BankRecord) : Prop where
  cleared : after.reversal = none
  review : after.review = if before.review.tag = some .reversal then {} else before.review
  unchanged : { after with reversal := before.reversal, review := before.review } = before

/-- Unlinking one of two records clears both links and changes nothing else. -/
def Reversal.Dissolves (m : Memory) (a p : BankRecord) : Prop :=
  ∀ actor, ∃ after, (Memory.under none).effect (unlink a.id actor) m = (.ok [a.id, p.id], after) ∧
    after.store.ledger = m.store.ledger ∧ List.Forall₂ (fun r r' =>
      if r.id = a.id ∨ r.id = p.id then Released r r' else r' = r) m.store.bank after.store.bank

/-- Every link leads to a partner whose link leads back, and either of the two records can be unlinked. -/
def Memory.ProperPairs (t : Tolerance) (m : Memory) : Prop :=
  ∀ a ∈ m.store.bank, ∀ link ∈ a.reversal, ∃ p ∈ m.store.bank, p.id = link.partnerId ∧ Reversal.Partner t a p ∧
    Reversal.Dissolves m a p ∧ Reversal.Dissolves m p a

theorem Reversal.released_release (r : BankRecord) : Released r (release r) :=
  ⟨rfl, rfl, rfl⟩

theorem Store.Paired.dissolves {m : Memory} (h : m.store.Paired t) {a p : BankRecord} (ha : a ∈ m.store.bank)
    (hp : p ∈ m.store.bank) {link : ReversalLink} (hlink : a.reversal = some link) (hid : p.id = link.partnerId) :
    Reversal.Dissolves m a p := by
  intro actor
  obtain ⟨p', hp', hid', hpartner, hreleased⟩ := h.released_eq ha hlink
  obtain rfl := Lookup.eq_of_name h.distinct hp hp' (hid.trans hid'.symm)
  obtain ⟨hfine, hstore⟩ := Memory.saveAll_bank_fine ([a, p].map Reversal.release) m
  refine ⟨((Memory.under none).answer (.saveAll [.bank ([a, p].map Reversal.release)]) m).2, ?_, ?_, ?_⟩
  · rw [Reversal.effect_unlink ((Store.bankRecord?_iff h.distinct).mpr ⟨ha, rfl⟩) hlink, hreleased]
    exact Repository.effect_bind (Prod.ext hfine rfl)
  · rw [hstore]
    exact Store.ledger_foldl_putBank m.store
  · have hbank := Store.bank_replaceTwo h.distinct ha hp hpartner.distinct
      (show (Reversal.release a).id = a.id from rfl) (show (Reversal.release p).id = p.id from rfl)
    rw [hstore, List.map_cons, List.map_singleton, hbank]
    refine List.forall₂_map_right_iff.mpr (List.forall₂_same.mpr fun r hr => ?_)
    by_cases hra : r.id = a.id
    · obtain rfl := Lookup.eq_of_name h.distinct hr ha hra
      simpa using Reversal.released_release r
    · by_cases hrp : r.id = p.id
      · obtain rfl := Lookup.eq_of_name h.distinct hr hp hrp
        simpa [hra] using Reversal.released_release r
      · simp [hra, hrp]

/-- **Reversal pairs are always proper.** From a store without links, whatever is called and fails, each link leads to
another record of the same goal and the opposite type whose amount nets with the record's own to zero up to the
tolerance, that record's link leads back, and unlinking either of the two clears exactly both links. -/
theorem after_paired {s : Store} (hids : (s.bank.map BankRecord.id).Nodup) (hfree : ∀ r ∈ s.bank, r.reversal = none)
    (t : Tolerance) {calls : List Operation.Call} (hcalls : ∀ c ∈ calls, c.Writes) :
    ((Memory.ofStore s).after t calls).ProperPairs t := by
  have hstart : (Memory.ofStore s).depth = 0 ∧ (Memory.ofStore s).store.Paired t := by
    refine ⟨rfl, hids, fun a ha link hlink => ?_⟩
    cases (hfree a ha).symm.trans hlink
  obtain ⟨-, hpaired⟩ := Memory.after_invariant (I := fun m => m.depth = 0 ∧ m.store.Paired t)
    (fun c hc m hm => ⟨(Memory.run_depth _ _ _).trans hm.1, Operation.Call.leaves_paired (hcalls c hc) hm.1 hm.2⟩)
    hstart
  intro a ha link hlink
  obtain ⟨p, hp, hid, hpartner⟩ := hpaired.partner a ha link hlink
  obtain ⟨back, hback, hbackId⟩ := hpartner.back
  exact ⟨p, hp, hid, hpartner, hpaired.dissolves ha hp hlink hid, hpaired.dissolves hp ha hback hbackId.symm⟩

namespace Sample

def reversible : Store :=
  { bank := [record "deposit" "s1" 100,
      { record "withdrawal" "s2" 100 with
        givenType := .word .withdrawal, amount := .finite true 100 0 }]
    ledger := [posting "p1" "a" "s1" 100] }

/-- The two records made a pair, unlinked, made a pair again, the pair refused when it is made once more, and a tag for
one of the two. -/
def pairing : List Operation.Call :=
  [{ operation := .linkReversal "deposit" "withdrawal" "operator", now := ⟨day, 12, 0, 0, 0, some 0⟩ },
    { operation := .unlinkReversal "withdrawal" "operator", now := ⟨day, 13, 0, 0, 0, some 0⟩ },
    { operation := .linkReversal "withdrawal" "deposit" "operator", now := ⟨day, 14, 0, 0, 0, some 0⟩ },
    { operation := .linkReversal "deposit" "withdrawal" "operator", now := ⟨day, 15, 0, 0, 0, some 0⟩ },
    { operation := .tagRecords ⟨["deposit"], [], some .other, none, "operator"⟩, now := ⟨day, 16, 0, 0, 0, some 0⟩ }]

def relinked : Memory :=
  (Memory.ofStore reversible).after {} pairing

end Sample

/-- The two records are a pair, and unlinking the withdrawal clears both links. -/
theorem after_paired_sample :
    Sample.relinked.ProperPairs {} ∧
      Sample.relinked.store.bank.map (fun r => (r.id, r.reversal.map ReversalLink.partnerId, r.review.tag)) =
        [("deposit", some "withdrawal", some .other), ("withdrawal", some "deposit", some .reversal)] ∧
      ∃ after, (Memory.under none).effect (Reversal.unlink "withdrawal" "operator") Sample.relinked =
          (.ok ["withdrawal", "deposit"], after) ∧
        after.store.bank.all (fun r => r.reversal.isNone) = true := by
  have hwrites : ∀ c ∈ Sample.pairing, (c.operation.marks || c.operation.pairs) = true := by
    simp [Sample.pairing, Operation.marks, Operation.pairs]
  have hproper : Sample.relinked.ProperPairs {} := after_paired (by decide) (by decide) {} fun c hc =>
    (Bool.or_eq_true _ _).mp (hwrites c hc)
  refine ⟨hproper, by decide +kernel, ?_⟩
  have hids : Sample.relinked.store.bank.map BankRecord.id = ["deposit", "withdrawal"] := by decide +kernel
  obtain ⟨a, ha, ⟨haid, link, hlink, hpartner⟩⟩ : ∃ a ∈ Sample.relinked.store.bank,
      a.id = "withdrawal" ∧ ∃ link ∈ a.reversal, link.partnerId = "deposit" := by decide +kernel
  obtain ⟨p, hp, hpid, -, hdissolves, -⟩ := hproper a ha link hlink
  rw [hpartner] at hpid
  obtain ⟨after, hunlinked, -, hreleased⟩ := hdissolves "operator"
  rw [haid, hpid] at hunlinked hreleased
  refine ⟨after, hunlinked, List.all_eq_true.mpr fun r' hr' => ?_⟩
  obtain ⟨r, hr, hrelated⟩ := Related.exists_of_mem hreleased hr'
  have hpair : r.id = "withdrawal" ∨ r.id = "deposit" := by
    have hid := hids ▸ List.mem_map_of_mem hr
    simpa [or_comm] using hid
  rw [if_pos hpair] at hrelated
  rw [hrelated.cleared]
  rfl

end Calls

end GoalReconciliation

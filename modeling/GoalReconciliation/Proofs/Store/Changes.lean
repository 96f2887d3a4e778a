import GoalReconciliation.Proofs.Store.Saved

/-!
# Stored records changed

* `Change` : a stored record with what is to take its place, if anything;
* `Store.Changes` : changes of stored records, each of them changed once, under its own id;
* `Store.Changes.changed`, `Store.Changes.other` : which record each id has after the changes;
* `Store.Changes.length_eq` : as many records are stored as differ afterwards;
* `Store.Changes.map_eq` : what the changes leave as it is in each record, they leave as it is in the store.
-/

namespace GoalReconciliation

set_option autoImplicit false

/-- A stored record with what is to take its place, if anything. -/
structure Change where
  old : BankRecord
  new? : Option BankRecord

namespace Change

def outcome (c : Change) : BankRecord :=
  c.new?.getD c.old

end Change

namespace Store

def change (s : Store) (changes : List Change) : Store :=
  (changes.filterMap Change.new?).foldl putBank s

/-- Changes of stored records, each of them changed once, under its own id. -/
structure Changes (s : Store) (changes : List Change) : Prop where
  distinct : (s.bank.map BankRecord.id).Nodup
  once : (changes.map fun c => c.old.id).Nodup
  stored : ∀ c ∈ changes, c.old ∈ s.bank
  new : ∀ c ∈ changes, ∀ w, c.new? = some w → w.id = c.old.id ∧ w ≠ c.old

namespace Changes

variable {s : Store} {changes : List Change} (h : s.Changes changes)

include h

theorem names_sublist :
    ((changes.filterMap Change.new?).map BankRecord.id).Sublist (changes.map fun c => c.old.id) := by
  have hnew := h.new
  clear h
  induction changes with
  | nil => exact List.Sublist.slnil
  | cons c rest ih =>
      obtain ⟨hc, hrest⟩ := List.forall_mem_cons.mp hnew
      cases hw : c.new? with
      | none =>
          rw [List.filterMap_cons_none hw]
          exact (ih hrest).cons _
      | some w =>
          rw [List.filterMap_cons_some hw, List.map_cons, List.map_cons, (hc w hw).1]
          exact (ih hrest).cons_cons _

theorem stored_once : ((changes.filterMap Change.new?).map BankRecord.id).Nodup :=
  h.once.sublist h.names_sublist

theorem eq_of_id {c c' : Change} (hc : c ∈ changes) (hc' : c' ∈ changes) (hid : c.old.id = c'.old.id) : c = c' :=
  List.inj_on_of_nodup_map h.once hc hc' hid

theorem changed {c : Change} (hc : c ∈ changes) : (s.change changes).bankRecord? c.old.id = some c.outcome := by
  rw [change, bankRecord?_foldl_putBank h.stored_once, Change.outcome]
  cases hw : c.new? with
  | some w =>
      obtain ⟨hid, -⟩ := h.new c hc w hw
      have hfind : (changes.filterMap Change.new?).find? (fun r => decide (r.id = c.old.id)) = some w :=
        (Lookup.find?_eq_some_iff h.stored_once).mpr ⟨List.mem_filterMap.mpr ⟨c, hc, hw⟩, hid⟩
      rw [hfind, Option.some_or, Option.getD_some]
  | none =>
      have hfind : (changes.filterMap Change.new?).find? (fun r => decide (r.id = c.old.id)) = none := by
        refine List.find?_eq_none.mpr fun w hmem hid => ?_
        obtain ⟨c', hc', hw'⟩ := List.mem_filterMap.mp hmem
        have hsame := h.eq_of_id hc' hc ((h.new c' hc' w hw').1.symm.trans (by simpa using hid))
        rw [hsame, hw] at hw'
        cases hw'
      rw [hfind, Option.none_or, Option.getD_none]
      exact (bankRecord?_iff h.distinct).mpr ⟨h.stored c hc, rfl⟩

theorem other {id : String} (hid : ∀ c ∈ changes, c.old.id ≠ id) :
    (s.change changes).bankRecord? id = s.bankRecord? id := by
  have hfind : (changes.filterMap Change.new?).find? (fun r => decide (r.id = id)) = none := by
    refine List.find?_eq_none.mpr fun w hw hname => ?_
    obtain ⟨c, hc, hw⟩ := List.mem_filterMap.mp hw
    exact hid c hc ((h.new c hc w hw).1.symm.trans (by simpa using hname))
  rw [change, bankRecord?_foldl_putBank h.stored_once, hfind, Option.none_or]

theorem names_eq : (s.change changes).bank.map BankRecord.id = s.bank.map BankRecord.id := by
  refine names_foldl_putBank fun w hw => ?_
  obtain ⟨c, hc, hw⟩ := List.mem_filterMap.mp hw
  rw [(h.new c hc w hw).1]
  exact List.mem_map_of_mem (h.stored c hc)

theorem distinct_after : ((s.change changes).bank.map BankRecord.id).Nodup :=
  h.names_eq ▸ h.distinct

/-- A record differs afterwards if something has taken its place. -/
theorem differs_iff {r : BankRecord} (hr : r ∈ s.bank) :
    (s.change changes).bankRecord? r.id ≠ some r ↔ r.id ∈ (changes.filterMap Change.new?).map BankRecord.id := by
  constructor
  · intro hdiffers
    by_contra hnone
    refine hdiffers ?_
    by_cases hid : ∃ c ∈ changes, c.old.id = r.id
    · obtain ⟨c, hc, hid⟩ := hid
      obtain rfl := Lookup.eq_of_name h.distinct (h.stored c hc) hr hid
      rw [h.changed hc, Change.outcome]
      cases hw : c.new? with
      | none => rfl
      | some w =>
          refine absurd (List.mem_map.mpr ⟨w, List.mem_filterMap.mpr ⟨c, hc, hw⟩, ?_⟩) hnone
          exact (h.new c hc w hw).1
    · rw [h.other fun c hc e => hid ⟨c, hc, e⟩]
      exact (bankRecord?_iff h.distinct).mpr ⟨hr, rfl⟩
  · intro hnew hsame
    obtain ⟨w, hw, hid⟩ := List.mem_map.mp hnew
    obtain ⟨c, hc, hw⟩ := List.mem_filterMap.mp hw
    obtain ⟨hname, hne⟩ := h.new c hc w hw
    obtain rfl := Lookup.eq_of_name h.distinct (h.stored c hc) hr (hname.symm.trans hid)
    rw [h.changed hc, Change.outcome, hw, Option.getD_some] at hsame
    exact hne (Option.some.inj hsame)

theorem length_eq : (changes.filterMap Change.new?).length =
    s.bank.countP fun r => decide ((s.change changes).bankRecord? r.id ≠ some r) := by
  have hdistinct := h.distinct
  rw [List.countP_eq_length_filter, ← List.length_map (f := BankRecord.id), ← List.length_map (f := BankRecord.id)]
  refine List.Perm.length_eq ((List.perm_ext_iff_of_nodup h.stored_once
    (hdistinct.sublist (List.filter_sublist.map _))).mpr fun id => ?_)
  constructor
  · intro hid
    obtain ⟨w, hw, rfl⟩ := List.mem_map.mp hid
    obtain ⟨c, hc, hnew⟩ := List.mem_filterMap.mp hw
    rw [(h.new c hc w hnew).1] at hid ⊢
    refine List.mem_map_of_mem (List.mem_filter.mpr ⟨h.stored c hc, ?_⟩)
    exact decide_eq_true ((h.differs_iff (h.stored c hc)).mpr hid)
  · intro hid
    obtain ⟨r, hr, rfl⟩ := List.mem_map.mp hid
    obtain ⟨hr, hdiffers⟩ := List.mem_filter.mp hr
    exact (h.differs_iff hr).mp (of_decide_eq_true hdiffers)

/-- What the changes leave as it is in each record, they leave as it is in the store. -/
theorem map_eq {β : Type} (f : BankRecord → β) (hf : ∀ c ∈ changes, f c.outcome = f c.old) :
    (s.change changes).bank.map f = s.bank.map f := by
  refine Lookup.map_eq_of_names h.distinct h.names_eq fun r hr => ?_
  by_cases hid : ∃ c ∈ changes, c.old.id = r.id
  · obtain ⟨c, hc, hid⟩ := hid
    obtain rfl := Lookup.eq_of_name h.distinct (h.stored c hc) hr hid
    exact ⟨c.outcome, h.changed hc, hf c hc⟩
  · refine ⟨r, ?_, rfl⟩
    have hother := h.other fun c hc e => hid ⟨c, hc, e⟩
    exact hother.trans ((bankRecord?_iff h.distinct).mpr ⟨hr, rfl⟩)

end Changes

end Store

end GoalReconciliation

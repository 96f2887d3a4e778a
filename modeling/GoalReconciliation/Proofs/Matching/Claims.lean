import GoalReconciliation.Matching.Passes
import GoalReconciliation.Proofs.Fallible
import Mathlib.Data.List.Flatten
import Mathlib.Data.List.Nodup

/-!
# Claims, one match at a time

All passes but the operators' work by one kind of step: free records and free groups, each taken once, are checked,
matched and claimed.

* `Checked` : what each pass has checked before it makes a match;
* `Taken` : a match of free records and groups, checked by a pass;
* `Step`, `Steps` : a match made and its sides claimed, and a sequence of such steps;
* `Extends` : what steps add to the claims; `Steps.extends` : every sequence of steps is of this form.
-/

namespace GoalReconciliation

set_option autoImplicit false

open Fallible (bind_eq_ok pure_eq_ok)

/-- The sides of a match: its lists are those of the records and groups, and its totals the sums of the amounts. -/
structure Match.Pairs (m : Match) (rs : List BankRecord) (gs : List Group) : Prop where
  bankIds : m.bankIds = rs.map BankRecord.id
  groupKeys : m.groupKeys = gs.map Group.key
  postingIds : m.postingIds = gs.flatMap Group.postingIds
  bankTotal : Decimal.sum (rs.map BankRecord.amount) = .ok m.bankTotal
  groupTotal : Decimal.sum (gs.map Group.amount) = .ok m.groupTotal

theorem Match.pair_spec {rs : List BankRecord} {gs : List Group} {matchType : MatchType} {confidence : Float}
    {within : Bool} {m : Match} (h : Match.pair rs gs matchType confidence within = .ok m) :
    m.Pairs rs gs ∧ m.matchType = matchType ∧ m.withinTolerance = within := by
  obtain ⟨bankTotal, hbank, h⟩ := bind_eq_ok.mp h
  obtain ⟨groupTotal, hgroup, h⟩ := bind_eq_ok.mp h
  obtain rfl := pure_eq_ok.mp h
  exact ⟨⟨rfl, rfl, rfl, hbank, hgroup⟩, rfl, rfl⟩

namespace Matching

/-! ## Steps -/

/-- What each pass has checked of the records and groups that it matches. -/
inductive Checked (t : Tolerance) (records : List BankRecord) (groups : List Group) (c : Claims) :
    MatchType → Bool → List BankRecord → List Group → Prop
  | exact {r : BankRecord} {g : Group} (hsource : sameSource r g = true)
      (hamounts : t.amountsMatch r.amount g.amount = .ok true) : Checked t records groups c .exact true [r] [g]
  | amount {r : BankRecord} {g : Group} (htype : g.transactionType = r.transactionType)
      (hdates : (r.date.daysApart g.date : Int) ≤ t.dateWindow)
      (hamounts : t.amountsMatch r.amount g.amount = .ok true) : Checked t records groups c .amount true [r] [g]
  | splitBank {rs : List BankRecord} {g : Group} {bound : Decimal} (hof : rs ⊆ c.recordsOf records g)
      (hmany : 2 ≤ rs.length) (hbound : t.allowance g.amount = .ok bound)
      (hfound : Combination.find ((c.recordsOf records g).map fun r => (r.id, r.amount)) g.amount bound t.splitLimit =
        .ok (rs.map BankRecord.id)) : Checked t records groups c .splitBankToGroup true rs [g]
  | splitGroup {r : BankRecord} {gs : List Group} {bound : Decimal} (hof : gs ⊆ c.groupsOf groups r)
      (hmany : 2 ≤ gs.length) (hbound : t.allowance r.amount = .ok bound)
      (hfound : Combination.find ((c.groupsOf groups r).map fun g => (g.key, g.amount)) r.amount bound t.splitLimit =
        .ok (gs.map Group.key)) : Checked t records groups c .splitGroupToBank true [r] gs
  | source {r : BankRecord} {g : Group} (hsource : sameSource r g = true) :
      Checked t records groups c .exact false [r] [g]

/-- A match of free records and groups of the run, each taken once, that a pass has checked. -/
structure Taken (t : Tolerance) (records : List BankRecord) (groups : List Group) (c : Claims) (m : Match)
    (rs : List BankRecord) (gs : List Group) : Prop where
  records_of : rs ⊆ records
  groups_of : gs ⊆ groups
  records_free : ∀ r ∈ rs, c.freeBank r = true
  groups_free : ∀ g ∈ gs, c.freeGroup g = true
  records_once : (rs.map BankRecord.id).Nodup
  groups_once : (gs.map Group.key).Nodup
  checked : Checked t records groups c m.matchType m.withinTolerance rs gs
  pairs : m.Pairs rs gs

def Claims.add (c : Claims) (m : Match) : Claims :=
  { bank := c.bank ++ m.bankIds, groups := c.groups ++ m.groupKeys, made := c.made ++ [m] }

theorem Claims.take_spec {c c' : Claims} {rs : List BankRecord} {gs : List Group} {matchType : MatchType}
    {confidence : Float} {within : Bool} (h : c.take rs gs matchType confidence within = .ok c') :
    ∃ m : Match, m.Pairs rs gs ∧ m.matchType = matchType ∧ m.withinTolerance = within ∧ c' = c.add m := by
  obtain ⟨m, hm, h⟩ := bind_eq_ok.mp h
  obtain rfl := pure_eq_ok.mp h
  obtain ⟨hpairs, htype, hwithin⟩ := Match.pair_spec hm
  refine ⟨m, hpairs, htype, hwithin, ?_⟩
  rw [Claims.add, hpairs.bankIds, hpairs.groupKeys]

theorem Claims.freeBank_iff {c : Claims} {r : BankRecord} : c.freeBank r = true ↔ r.id ∉ c.bank := by
  simp [freeBank]

theorem Claims.freeGroup_iff {c : Claims} {g : Group} : c.freeGroup g = true ↔ g.key ∉ c.groups := by
  simp [freeGroup]

section Steps

open Relation (ReflTransGen)

variable (t : Tolerance) (records : List BankRecord) (groups : List Group) (kind : Match → Prop)

/-- A match of some kind, made of what is free, and its sides claimed. -/
def Step (c c' : Claims) : Prop :=
  ∃ m rs gs, kind m ∧ Taken t records groups c m rs gs ∧ c' = c.add m

def Steps : Claims → Claims → Prop :=
  ReflTransGen (Step t records groups kind)

/-- What steps add to the claims: matches, each made of what was free, which share no side with each other or with the
claims before. -/
structure Extends (c c' : Claims) (new : List Match) : Prop where
  made_eq : c'.made = c.made ++ new
  bank_eq : c'.bank = c.bank ++ new.flatMap Match.bankIds
  groups_eq : c'.groups = c.groups ++ new.flatMap Match.groupKeys
  bank_once : (new.flatMap Match.bankIds).Nodup
  bank_new : ∀ id ∈ new.flatMap Match.bankIds, id ∉ c.bank ∧ id ∈ records.map BankRecord.id
  groups_once : (new.flatMap Match.groupKeys).Nodup
  groups_new : ∀ key ∈ new.flatMap Match.groupKeys, key ∉ c.groups ∧ key ∈ groups.map Group.key
  kinds : ∀ m ∈ new, kind m
  each : ∀ m ∈ new, ∃ before rs gs, c.bank ⊆ before.bank ∧ c.groups ⊆ before.groups ∧
    Taken t records groups before m rs gs

variable {t records groups kind}

theorem Taken.bank_apart {c : Claims} {m : Match} {rs : List BankRecord} {gs : List Group}
    (h : Taken t records groups c m rs gs) : ∀ id ∈ m.bankIds, id ∉ c.bank ∧ id ∈ records.map BankRecord.id := by
  intro id hid
  rw [h.pairs.bankIds] at hid
  obtain ⟨r, hr, rfl⟩ := List.mem_map.mp hid
  exact ⟨Claims.freeBank_iff.mp (h.records_free r hr), List.mem_map_of_mem (h.records_of hr)⟩

theorem Taken.groups_apart {c : Claims} {m : Match} {rs : List BankRecord} {gs : List Group}
    (h : Taken t records groups c m rs gs) : ∀ key ∈ m.groupKeys, key ∉ c.groups ∧ key ∈ groups.map Group.key := by
  intro key hkey
  rw [h.pairs.groupKeys] at hkey
  obtain ⟨g, hg, rfl⟩ := List.mem_map.mp hkey
  exact ⟨Claims.freeGroup_iff.mp (h.groups_free g hg), List.mem_map_of_mem (h.groups_of hg)⟩

theorem Extends.refl (c : Claims) : Extends t records groups kind c c [] where
  made_eq := (List.append_nil _).symm
  bank_eq := (List.append_nil _).symm
  groups_eq := (List.append_nil _).symm
  bank_once := List.nodup_nil
  bank_new := by simp
  groups_once := List.nodup_nil
  groups_new := by simp
  kinds := by simp
  each := by simp

theorem Extends.step {c c' : Claims} {new : List Match} (h : Extends t records groups kind c c' new) {m : Match}
    {rs : List BankRecord} {gs : List Group} (hkind : kind m) (htaken : Taken t records groups c' m rs gs) :
    Extends t records groups kind c (c'.add m) (new ++ [m]) := by
  have hbank := htaken.bank_apart
  have hgroups := htaken.groups_apart
  rw [h.bank_eq] at hbank
  rw [h.groups_eq] at hgroups
  refine { made_eq := ?_, bank_eq := ?_, groups_eq := ?_, bank_once := ?_, bank_new := ?_, groups_once := ?_,
           groups_new := ?_, kinds := ?_, each := ?_ }
  · rw [Claims.add, h.made_eq, List.append_assoc]
  · rw [Claims.add, h.bank_eq, List.flatMap_append, List.flatMap_singleton, List.append_assoc]
  · rw [Claims.add, h.groups_eq, List.flatMap_append, List.flatMap_singleton, List.append_assoc]
  · rw [List.flatMap_append, List.flatMap_singleton]
    refine h.bank_once.append (htaken.pairs.bankIds ▸ htaken.records_once) fun id hold hid => ?_
    exact (hbank id hid).1 (List.mem_append_right _ hold)
  · rw [List.flatMap_append, List.flatMap_singleton]
    intro id hid
    rcases List.mem_append.mp hid with hid | hid
    · exact h.bank_new id hid
    · exact ⟨fun hc => (hbank id hid).1 (List.mem_append_left _ hc), (hbank id hid).2⟩
  · rw [List.flatMap_append, List.flatMap_singleton]
    refine h.groups_once.append (htaken.pairs.groupKeys ▸ htaken.groups_once) fun key hold hkey => ?_
    exact (hgroups key hkey).1 (List.mem_append_right _ hold)
  · rw [List.flatMap_append, List.flatMap_singleton]
    intro key hkey
    rcases List.mem_append.mp hkey with hkey | hkey
    · exact h.groups_new key hkey
    · exact ⟨fun hc => (hgroups key hkey).1 (List.mem_append_left _ hc), (hgroups key hkey).2⟩
  · rw [List.forall_mem_append, List.forall_mem_singleton]
    exact ⟨h.kinds, hkind⟩
  · rw [List.forall_mem_append, List.forall_mem_singleton]
    refine ⟨h.each, c', rs, gs, ?_, ?_, htaken⟩
    · exact h.bank_eq ▸ List.subset_append_left _ _
    · exact h.groups_eq ▸ List.subset_append_left _ _

/-- **What a sequence of steps adds to the claims.** -/
theorem Steps.extends {c c' : Claims} (h : Steps t records groups kind c c') :
    ∃ new, Extends t records groups kind c c' new := by
  induction h with
  | refl => exact ⟨[], Extends.refl c⟩
  | tail _ hstep ih =>
      obtain ⟨new, hnew⟩ := ih
      obtain ⟨m, rs, gs, hkind, htaken, rfl⟩ := hstep
      exact ⟨new ++ [m], hnew.step hkind htaken⟩

theorem Steps.mono {other : Match → Prop} (hkind : ∀ m, kind m → other m) {c c' : Claims}
    (h : Steps t records groups kind c c') : Steps t records groups other c c' := by
  refine ReflTransGen.mono (fun c c' hstep => ?_) c c' h
  obtain ⟨m, rs, gs, hm, htaken⟩ := hstep
  exact ⟨m, rs, gs, hkind m hm, htaken⟩

/-! ## Claims only grow -/

theorem Steps.made_subset {c c' : Claims} (h : Steps t records groups kind c c') : c.made ⊆ c'.made := by
  obtain ⟨new, hnew⟩ := h.extends
  exact hnew.made_eq ▸ List.subset_append_left _ _

theorem Steps.freeBank {c c' : Claims} (h : Steps t records groups kind c c') {r : BankRecord}
    (hr : c'.freeBank r = true) : c.freeBank r = true := by
  obtain ⟨new, hnew⟩ := h.extends
  rw [Claims.freeBank_iff, hnew.bank_eq] at hr
  exact Claims.freeBank_iff.mpr fun hc => hr (List.mem_append_left _ hc)

theorem Steps.freeGroup {c c' : Claims} (h : Steps t records groups kind c c') {g : Group}
    (hg : c'.freeGroup g = true) : c.freeGroup g = true := by
  obtain ⟨new, hnew⟩ := h.extends
  rw [Claims.freeGroup_iff, hnew.groups_eq] at hg
  exact Claims.freeGroup_iff.mpr fun hc => hg (List.mem_append_left _ hc)

theorem Steps.bank_claimed {c c' : Claims} (h : Steps t records groups kind c c') {r : BankRecord}
    (hbefore : c.freeBank r = true) (hafter : ¬c'.freeBank r = true) :
    ∃ m ∈ c'.made, kind m ∧ r.id ∈ m.bankIds := by
  obtain ⟨new, hnew⟩ := h.extends
  rw [Claims.freeBank_iff, not_not, hnew.bank_eq, List.mem_append, List.mem_flatMap] at hafter
  obtain ⟨m, hm, hid⟩ := hafter.resolve_left (Claims.freeBank_iff.mp hbefore)
  exact ⟨m, hnew.made_eq ▸ List.mem_append_right _ hm, hnew.kinds m hm, hid⟩

theorem Steps.group_claimed {c c' : Claims} (h : Steps t records groups kind c c') {g : Group}
    (hbefore : c.freeGroup g = true) (hafter : ¬c'.freeGroup g = true) :
    ∃ m ∈ c'.made, kind m ∧ g.key ∈ m.groupKeys := by
  obtain ⟨new, hnew⟩ := h.extends
  rw [Claims.freeGroup_iff, not_not, hnew.groups_eq, List.mem_append, List.mem_flatMap] at hafter
  obtain ⟨m, hm, hkey⟩ := hafter.resolve_left (Claims.freeGroup_iff.mp hbefore)
  exact ⟨m, hnew.made_eq ▸ List.mem_append_right _ hm, hnew.kinds m hm, hkey⟩

end Steps

end Matching

end GoalReconciliation

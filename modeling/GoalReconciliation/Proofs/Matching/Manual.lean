import GoalReconciliation.Proofs.Assoc
import GoalReconciliation.Proofs.Lookup
import GoalReconciliation.Proofs.Matching.Claims
import GoalReconciliation.Proofs.Related

/-!
# The operators' matches

* `BankRecord.links` : an operator has linked the record to a group;
* `Linked` : the match of one operator's link;
* `manualPass_spec` : the pass makes the match of each link, in the order in which the links are first seen;
* `ManualClaims`, `manualPass_claims` : it claims the records that operators have matched and the groups that these
  links name, as far as they are present.
-/

namespace GoalReconciliation

set_option autoImplicit false

/-- An operator has linked the record to the group with this key. -/
def BankRecord.links (r : BankRecord) (key : String) : Bool :=
  r.reference.any fun link => link.isManual && link.references key

namespace Matching

open Fallible (bind_eq_ok pure_eq_ok)

theorem links_iff {r : BankRecord} {key : String} :
    r.links key = true ↔ r.hasManualMatch = true ∧ key ∈ manualKeys r := by
  cases hreference : r.reference with
  | none => simp [BankRecord.links, BankRecord.hasManualMatch, hreference]
  | some link =>
      simp [BankRecord.links, BankRecord.hasManualMatch, manualKeys, MatchReference.references, hreference]

def present (groups : List Group) (keys : List String) : List Group :=
  keys.filterMap (Assoc.last? Group.key groups)

theorem mem_present {groups : List Group} (hgroups : (groups.map Group.key).Nodup) {keys : List String} {g : Group} :
    g ∈ present groups keys ↔ g ∈ groups ∧ g.key ∈ keys := by
  rw [present, List.mem_filterMap]
  constructor
  · rintro ⟨key, hkey, hfind⟩
    obtain ⟨hg, rfl⟩ := (Lookup.last?_eq_some_iff hgroups).mp hfind
    exact ⟨hg, hkey⟩
  · rintro ⟨hg, hkey⟩
    exact ⟨g.key, hkey, (Lookup.last?_eq_some_iff hgroups).mpr ⟨hg, rfl⟩⟩

/-- The match of one operator's link. -/
structure Linked (groups : List Group) (link : List String × List BankRecord) (m : Match) : Prop where
  bankIds : m.bankIds = link.2.map BankRecord.id
  groupKeys : m.groupKeys = link.1
  postingIds : m.postingIds = (present groups link.1).flatMap Group.postingIds
  matchType : m.matchType = .manual
  withinTolerance : m.withinTolerance = true
  bankTotal : Decimal.sum (link.2.map BankRecord.amount) = .ok m.bankTotal
  groupTotal : Decimal.sum ((present groups link.1).map Group.amount) = .ok m.groupTotal

theorem takeManual_spec {groups : List Group} {c c' : Claims} {link : List String × List BankRecord}
    (h : takeManual groups c link = .ok c') :
    ∃ m, Linked groups link m ∧ c'.bank = c.bank ++ m.bankIds ∧
      c'.groups = c.groups ++ (present groups link.1).map Group.key ∧ c'.made = c.made ++ [m] := by
  obtain ⟨m, hm, h⟩ := bind_eq_ok.mp h
  obtain rfl := pure_eq_ok.mp h
  obtain ⟨hpairs, htype, hwithin⟩ := Match.pair_spec hm
  refine ⟨{ m with groupKeys := link.1 }, ?_, ?_, rfl, rfl⟩
  · exact ⟨hpairs.bankIds, rfl, hpairs.postingIds, htype, hwithin, hpairs.bankTotal, hpairs.groupTotal⟩
  · rw [hpairs.bankIds]

theorem takeManual_fold {groups : List Group} {links : List (List String × List BankRecord)} {c c' : Claims}
    (h : links.foldlM (takeManual groups) c = .ok c') :
    ∃ made, List.Forall₂ (Linked groups) links made ∧ c'.made = c.made ++ made ∧
      c'.bank = c.bank ++ made.flatMap Match.bankIds ∧
      c'.groups = c.groups ++ links.flatMap fun link => (present groups link.1).map Group.key := by
  induction links generalizing c with
  | nil =>
      obtain rfl : c = c' := by simpa using h
      exact ⟨[], List.Forall₂.nil, by simp⟩
  | cons link links ih =>
      rw [List.foldlM_cons, bind_eq_ok] at h
      obtain ⟨next, hnext, h⟩ := h
      obtain ⟨m, hm, hbank, hgroups, hmade⟩ := takeManual_spec hnext
      obtain ⟨made, hlinked, hmade', hbank', hgroups'⟩ := ih h
      refine ⟨m :: made, List.Forall₂.cons hm hlinked, ?_, ?_, ?_⟩
      · rw [hmade', hmade, List.append_assoc, List.singleton_append]
      · rw [hbank', hbank, List.append_assoc, List.flatMap_cons]
      · rw [hgroups', hgroups, List.append_assoc, List.flatMap_cons]

def operatorLinks (records : List BankRecord) : List (List String × List BankRecord) :=
  Assoc.gather manualKeys (records.filter BankRecord.hasManualMatch)

/-- The pass makes the match of each link, in the order in which the links are first seen. -/
theorem manualPass_spec {records : List BankRecord} {groups : List Group} {c : Claims}
    (h : manualPass records groups {} = .ok c) :
    List.Forall₂ (Linked groups) (operatorLinks records) c.made ∧ c.bank = c.made.flatMap Match.bankIds ∧
      c.groups = (operatorLinks records).flatMap fun link => (present groups link.1).map Group.key := by
  obtain ⟨made, hlinked, hmade, hbank, hgroups⟩ := takeManual_fold h
  rw [List.nil_append] at hmade hbank hgroups
  subst hmade
  exact ⟨hlinked, hbank, hgroups⟩

structure ManualClaims (records : List BankRecord) (groups : List Group) (c : Claims) : Prop where
  bank_eq : c.bank = c.made.flatMap Match.bankIds
  bank_perm : c.bank.Perm ((records.filter BankRecord.hasManualMatch).map BankRecord.id)
  groups_iff : ∀ key, key ∈ c.groups ↔ (∃ r ∈ records, r.links key = true) ∧ key ∈ groups.map Group.key
  types : ∀ m ∈ c.made, m.matchType = .manual
  postings : ∀ m ∈ c.made, ∀ id ∈ m.postingIds, ∃ g ∈ groups, g.key ∈ c.groups ∧ id ∈ g.postingIds

theorem mem_operatorLinks {records : List BankRecord} {key : String} :
    (∃ link ∈ operatorLinks records, key ∈ link.1) ↔ ∃ r ∈ records, r.links key = true := by
  constructor
  · rintro ⟨⟨keys, members⟩, hlink, hkey⟩
    obtain ⟨r, hr, rfl⟩ := List.mem_map.mp (Assoc.mem_gather.mp hlink).1
    obtain ⟨hr, hmanual⟩ := List.mem_filter.mp hr
    exact ⟨r, hr, links_iff.mpr ⟨hmanual, hkey⟩⟩
  · rintro ⟨r, hr, hlinks⟩
    obtain ⟨hmanual, hkey⟩ := links_iff.mp hlinks
    refine ⟨(manualKeys r, _), Assoc.mem_gather.mpr ⟨?_, rfl⟩, hkey⟩
    exact List.mem_map_of_mem (List.mem_filter.mpr ⟨hr, hmanual⟩)

theorem linked_bankIds {groups : List Group} {links : List (List String × List BankRecord)} {made : List Match}
    (h : List.Forall₂ (Linked groups) links made) :
    made.flatMap Match.bankIds = (links.flatMap Prod.snd).map BankRecord.id := by
  induction h with
  | nil => rfl
  | cons hm _ ih => rw [List.flatMap_cons, List.flatMap_cons, List.map_append, hm.bankIds, ih]

theorem manualPass_claims {records : List BankRecord} {groups : List Group} {c : Claims}
    (hgroups : (groups.map Group.key).Nodup) (h : manualPass records groups {} = .ok c) :
    ManualClaims records groups c := by
  obtain ⟨hlinked, hbank, hkeys⟩ := manualPass_spec h
  have hmem : ∀ key, key ∈ c.groups ↔ (∃ link ∈ operatorLinks records, key ∈ link.1) ∧ key ∈ groups.map Group.key := by
    intro key
    rw [hkeys, List.mem_flatMap]
    constructor
    · rintro ⟨link, hlink, hkey⟩
      obtain ⟨g, hg, rfl⟩ := List.mem_map.mp hkey
      obtain ⟨hg, hkey⟩ := (mem_present hgroups).mp hg
      exact ⟨⟨link, hlink, hkey⟩, List.mem_map_of_mem hg⟩
    · rintro ⟨⟨link, hlink, hkey⟩, hpresent⟩
      obtain ⟨g, hg, rfl⟩ := List.mem_map.mp hpresent
      exact ⟨link, hlink, List.mem_map_of_mem ((mem_present hgroups).mpr ⟨hg, hkey⟩)⟩
  have hmade : ∀ m ∈ c.made, ∃ link ∈ operatorLinks records, Linked groups link m :=
    fun m hm => Related.exists_of_mem hlinked hm
  refine { bank_eq := hbank, bank_perm := ?_, groups_iff := ?_, types := ?_, postings := ?_ }
  · rw [hbank, linked_bankIds hlinked]
    exact (Assoc.gather_perm _ _).map _
  · intro key
    rw [hmem, mem_operatorLinks]
  · intro m hm
    obtain ⟨link, -, hlink⟩ := hmade m hm
    exact hlink.matchType
  · intro m hm id hid
    obtain ⟨link, hmember, hlink⟩ := hmade m hm
    rw [hlink.postingIds] at hid
    obtain ⟨g, hg, hid⟩ := List.mem_flatMap.mp hid
    obtain ⟨hgroup, hkey⟩ := (mem_present hgroups).mp hg
    exact ⟨g, hgroup, (hmem _).mpr ⟨⟨link, hmember, hkey⟩, List.mem_map_of_mem hgroup⟩, hid⟩

end Matching

end GoalReconciliation

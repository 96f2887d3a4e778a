import GoalReconciliation.Proofs.Matching.Partition

/-!
# What becomes of a group

* `Run.sides`, `Run.posting_iff` : a match holds the postings of a group if it names the group, and none of them if it
  does not;
* `Run.free_fate` : a group that is not withheld is left over or in one match, which is no operator's;
* `Run.named_by_operator` : what operators' links name is in their matches;
* `GroupFate`, `Run.one_fate` : **exactly one of four things becomes of a group**.
-/

namespace GoalReconciliation

set_option autoImplicit false

open Matching

def Match.touches (m : Match) (ids : List String) : Bool :=
  ids.any m.postingIds.contains

theorem Match.touches_iff {m : Match} {ids : List String} : m.touches ids = true ↔ ∃ id ∈ ids, id ∈ m.postingIds := by
  simp [Match.touches]

/-- What becomes of a group: nothing matches it, a pass matches it, operators have matched it, or it is kept free for
an operator's link on a record that takes no part. -/
inductive GroupFate where
  | unmatched
  | matched
  | byOperator
  | reserved
deriving DecidableEq

/-- What has become of the group with this key and these postings, by the matches that are made, the keys that are left
over, and whether an operator's link names the key. -/
def GroupFate.Holds (made : List Match) (leftover : List String) (linked : Prop) (key : String) (ids : List String) :
    GroupFate → Prop
  | .unmatched => key ∈ leftover
  | .matched => ∃ m, (made.filter fun m => decide (m.matchType ≠ .manual) && m.touches ids) = [m] ∧ ids ⊆ m.postingIds
  | .byOperator => (∃ m ∈ made, m.matchType = .manual ∧ ids ⊆ m.postingIds) ∧
      ∀ m ∈ made, m.touches ids = true → m.matchType = .manual
  | .reserved => (∀ m ∈ made, m.touches ids = false) ∧ linked

namespace Matching

theorem filter_eq_singleton {α β : Type} [DecidableEq β] {f : α → List β} {xs : List α} (h : (xs.flatMap f).Nodup)
    {x : α} (hx : x ∈ xs) {b : β} (hb : b ∈ f x) : (xs.filter fun y => decide (b ∈ f y)) = [x] := by
  induction xs with
  | nil => cases hx
  | cons y rest ih =>
      rw [List.flatMap_cons] at h
      obtain ⟨-, hrest, hdisjoint⟩ := List.nodup_append'.mp h
      rcases List.mem_cons.mp hx with rfl | hx
      · have hothers : rest.filter (fun y => decide (b ∈ f y)) = [] :=
          List.filter_eq_nil_iff.mpr fun y hy => by
            simpa using fun hb' => hdisjoint hb (List.mem_flatMap.mpr ⟨y, hy, hb'⟩)
        rw [List.filter_cons_of_pos (by simpa using hb), hothers]
      · have hnot : b ∉ f y := fun hb' => hdisjoint hb' (List.mem_flatMap.mpr ⟨x, hx, hb⟩)
        rw [List.filter_cons_of_neg (by simpa using hnot), ih hrest hx]

section Runs

variable {t : Tolerance} {records : List BankRecord} {groups : List Group} {reserved : List String}
  {outcome : MatchOutcome} (run : Run t records groups reserved outcome)

namespace Run

include run

theorem manual_linked {m : Match} (hm : m ∈ run.stages.manual.made) :
    ∃ link ∈ operatorLinks records, Linked groups link m := by
  obtain ⟨hlinked, -, -⟩ := manualPass_spec run.stages.manual_ok
  exact Related.exists_of_mem hlinked hm

/-- What an operator's link names is in an operators' match. -/
theorem named_by_operator {key : String} (h : ∃ r ∈ records, r.links key = true) :
    ∃ m ∈ run.stages.manual.made, key ∈ m.groupKeys := by
  obtain ⟨link, hlink, hkey⟩ := mem_operatorLinks.mpr h
  obtain ⟨hlinked, -, -⟩ := manualPass_spec run.stages.manual_ok
  obtain ⟨m, hm, hsame⟩ := Related.exists_of_mem hlinked.flip hlink
  have hsame' : Linked groups link m := hsame
  exact ⟨m, hm, hsame'.groupKeys ▸ hkey⟩

theorem made_iff {m : Match} : m ∈ outcome.made ↔ m ∈ run.stages.manual.made ∨ m ∈ run.new := by
  rw [run.made_append, List.mem_append]

/-- A match holds the postings of the groups that it names, as far as they are present. -/
theorem sides (hgroups : (groups.map Group.key).Nodup) {m : Match} (hm : m ∈ outcome.made) :
    ∃ gs ⊆ groups, m.postingIds = gs.flatMap Group.postingIds ∧ ∀ g ∈ groups, g ∈ gs ↔ g.key ∈ m.groupKeys := by
  rcases run.made_iff.mp hm with hm | hm
  · obtain ⟨link, -, hlink⟩ := run.manual_linked hm
    refine ⟨present groups link.1, fun g hg => ((mem_present hgroups).mp hg).1, hlink.postingIds, fun g hg => ?_⟩
    rw [mem_present hgroups, hlink.groupKeys, and_iff_right hg]
  · obtain ⟨before, rs, gs, -, -, htaken⟩ := run.added.each m hm
    refine ⟨gs, htaken.groups_of, htaken.pairs.postingIds, fun g hg => ?_⟩
    rw [htaken.pairs.groupKeys]
    refine ⟨List.mem_map_of_mem, fun hkey => ?_⟩
    obtain ⟨g', hg', hsame⟩ := List.mem_map.mp hkey
    rwa [← Lookup.eq_of_name hgroups (htaken.groups_of hg') hg hsame]

/-- A posting of a group is in a match if and only if the match names the group. -/
theorem posting_iff (hgroups : (groups.map Group.key).Nodup) (hpostings : (groups.flatMap Group.postingIds).Nodup)
    {m : Match} (hm : m ∈ outcome.made) {g : Group} (hg : g ∈ groups) {id : String} (hid : id ∈ g.postingIds) :
    id ∈ m.postingIds ↔ g.key ∈ m.groupKeys := by
  obtain ⟨gs, hgs, hids, hkeys⟩ := run.sides hgroups hm
  rw [hids, ← hkeys g hg, List.mem_flatMap]
  constructor
  · rintro ⟨g', hg', hid'⟩
    rwa [group_of_posting hpostings hg (hgs hg') hid hid']
  · exact fun hmem => ⟨g, hmem, hid⟩

variable (hgroups : (groups.map Group.key).Nodup)

/-- An operators' match names nothing that is not withheld. -/
theorem manual_withheld {m : Match} (hm : m ∈ run.stages.manual.made) {key : String} (hkey : key ∈ m.groupKeys) :
    ∃ r ∈ records, r.links key = true := by
  obtain ⟨link, hlink, hlinked⟩ := run.manual_linked hm
  exact mem_operatorLinks.mp ⟨link, hlink, hlinked.groupKeys ▸ hkey⟩

include hgroups in
/-- A group that is not withheld is left over, or a pass has matched it. -/
theorem free_fate {g : Group} (hg : g ∈ groups) (hfree : Matching.withheld records reserved g.key = false) :
    g.key ∈ outcome.unmatchedGroupKeys ∧ (∀ m ∈ run.new, g.key ∉ m.groupKeys) ∨
      g.key ∉ outcome.unmatchedGroupKeys ∧ ∃ m ∈ run.new, g.key ∈ m.groupKeys := by
  have hperm := run.groups_perm hgroups
  have honce : (run.new.flatMap Match.groupKeys ++ outcome.unmatchedGroupKeys).Nodup :=
    hperm.nodup_iff.mpr (hgroups.sublist (List.filter_sublist.map _))
  obtain ⟨-, -, hdisjoint⟩ := List.nodup_append'.mp honce
  have hkey : g.key ∈ run.new.flatMap Match.groupKeys ++ outcome.unmatchedGroupKeys :=
    hperm.mem_iff.mpr (List.mem_map_of_mem (List.mem_filter.mpr ⟨hg, by simpa using hfree⟩))
  rcases List.mem_append.mp hkey with hkey | hkey
  · exact .inr ⟨hdisjoint hkey, List.mem_flatMap.mp hkey⟩
  · exact .inl ⟨hkey, fun m hm hmem => hdisjoint (List.mem_flatMap.mpr ⟨m, hm, hmem⟩) hkey⟩

/-- A withheld group is in no match that is not an operators' one, and not left over. -/
theorem withheld_fate {key : String} (hkey : Matching.withheld records reserved key = true) :
    (∀ m ∈ run.new, key ∉ m.groupKeys) ∧ key ∉ outcome.unmatchedGroupKeys := by
  constructor
  · intro m hm hmem
    obtain ⟨-, hfree⟩ := run.new_groups (List.mem_flatMap.mpr ⟨m, hm, hmem⟩)
    exact Bool.false_ne_true (hfree.symm.trans hkey)
  · intro hmem
    rw [run.unmatchedGroups_eq] at hmem
    obtain ⟨g, hg, rfl⟩ := List.mem_map.mp hmem
    obtain ⟨hg, hfree⟩ := List.mem_filter.mp hg
    exact Bool.false_ne_true (((run.last_freeGroup hg).mp hfree).1.symm.trans hkey)

end Run

/-! ## One fate -/

namespace Run

variable (hgroups : (groups.map Group.key).Nodup) (hpostings : (groups.flatMap Group.postingIds).Nodup)
  {g : Group} (hg : g ∈ groups) (hids : g.postingIds ≠ [])

include run hgroups hpostings hg

theorem covers {m : Match} (hm : m ∈ outcome.made) (hkey : g.key ∈ m.groupKeys) : g.postingIds ⊆ m.postingIds :=
  fun _ hid => (run.posting_iff hgroups hpostings hm hg hid).mpr hkey

include hids

/-- A match that holds one of the postings names the group. -/
theorem touches_iff {m : Match} (hm : m ∈ outcome.made) : m.touches g.postingIds = true ↔ g.key ∈ m.groupKeys := by
  rw [Match.touches_iff]
  constructor
  · rintro ⟨id, hid, hmem⟩
    exact (run.posting_iff hgroups hpostings hm hg hid).mp hmem
  · intro hkey
    obtain ⟨id, rest, hcons⟩ := List.exists_cons_of_ne_nil hids
    have hid : id ∈ g.postingIds := hcons ▸ List.mem_cons_self
    exact ⟨id, hid, (run.posting_iff hgroups hpostings hm hg hid).mpr hkey⟩

variable (linked : Prop)

theorem matched_iff : GroupFate.Holds outcome.made outcome.unmatchedGroupKeys linked g.key g.postingIds .matched ↔
    ∃ m ∈ run.new, g.key ∈ m.groupKeys := by
  have hpasses : (outcome.made.filter fun m => decide (m.matchType ≠ .manual) && m.touches g.postingIds) =
      run.new.filter fun m => decide (g.key ∈ m.groupKeys) := by
    have htouching : ∀ m ∈ outcome.made, (decide (m.matchType ≠ .manual) && m.touches g.postingIds) =
        (decide (g.key ∈ m.groupKeys) && decide (m.matchType ≠ .manual)) := by
      intro m hm
      have htouches := run.touches_iff hgroups hpostings hg hids hm
      rw [Bool.and_comm, Bool.eq_iff_iff.mpr (htouches.trans decide_eq_true_iff.symm)]
    rw [List.filter_congr htouching, ← List.filter_filter, ← run.algorithmic_eq, MatchOutcome.algorithmic]
  unfold GroupFate.Holds
  rw [hpasses]
  constructor
  · rintro ⟨m, hone, -⟩
    have hm : m ∈ run.new.filter fun m => decide (g.key ∈ m.groupKeys) := hone ▸ List.mem_cons_self
    exact ⟨m, (List.mem_filter.mp hm).1, of_decide_eq_true (List.mem_filter.mp hm).2⟩
  · rintro ⟨m, hm, hkey⟩
    have hmade := run.made_iff.mpr (.inr hm)
    exact ⟨m, filter_eq_singleton run.added.groups_once hm hkey, run.covers hgroups hpostings hg hmade hkey⟩

theorem byOperator_iff :
    GroupFate.Holds outcome.made outcome.unmatchedGroupKeys linked g.key g.postingIds .byOperator ↔
      (∃ r ∈ records, r.links g.key = true) ∧ ∀ m ∈ run.new, g.key ∉ m.groupKeys := by
  have htouches := fun {m : Match} (hm : m ∈ outcome.made) => run.touches_iff hgroups hpostings hg hids hm
  constructor
  · rintro ⟨⟨m, hm, htype, hall⟩, honly⟩
    obtain ⟨id, rest, hcons⟩ := List.exists_cons_of_ne_nil hids
    have hid : id ∈ g.postingIds := hcons ▸ List.mem_cons_self
    refine ⟨run.manual_withheld (run.mem_manual hm htype)
      ((htouches hm).mp (Match.touches_iff.mpr ⟨id, hid, hall hid⟩)), fun m' hm' hkey => ?_⟩
    have hmade := run.made_iff.mpr (.inr hm')
    exact run.added.kinds m' hm' (honly m' hmade ((htouches hmade).mpr hkey))
  · rintro ⟨hnamed, hnone⟩
    obtain ⟨m, hm, hkey⟩ := run.named_by_operator hnamed
    have hmade := run.made_iff.mpr (.inl hm)
    refine ⟨⟨m, hmade, run.manual.types m hm, run.covers hgroups hpostings hg hmade hkey⟩, fun m' hm' htouched => ?_⟩
    rcases run.made_iff.mp hm' with hmanual | hnew
    · exact run.manual.types m' hmanual
    · exact absurd ((htouches hm').mp htouched) (hnone m' hnew)

theorem reserved_iff :
    GroupFate.Holds outcome.made outcome.unmatchedGroupKeys linked g.key g.postingIds .reserved ↔
      linked ∧ (¬∃ r ∈ records, r.links g.key = true) ∧ ∀ m ∈ run.new, g.key ∉ m.groupKeys := by
  have htouches := fun {m : Match} (hm : m ∈ outcome.made) => run.touches_iff hgroups hpostings hg hids hm
  constructor
  · rintro ⟨huntouched, hlink⟩
    have hnone : ∀ m ∈ outcome.made, g.key ∉ m.groupKeys := fun m hm hkey =>
      Bool.false_ne_true ((huntouched m hm).symm.trans ((htouches hm).mpr hkey))
    refine ⟨hlink, fun hnamed => ?_, fun m hm => hnone m (run.made_iff.mpr (.inr hm))⟩
    obtain ⟨m, hm, hkey⟩ := run.named_by_operator hnamed
    exact hnone m (run.made_iff.mpr (.inl hm)) hkey
  · rintro ⟨hlink, hnotnamed, hnone⟩
    refine ⟨fun m hm => Bool.eq_false_iff.mpr fun htouched => ?_, hlink⟩
    rcases run.made_iff.mp hm with hmanual | hnew
    · exact hnotnamed (run.manual_withheld hmanual ((htouches hm).mp htouched))
    · exact hnone m hnew ((htouches hm).mp htouched)

variable {linked}

/-- A group that is kept free for a link is reserved: the link is on a record that takes no part. -/
theorem reserved_of_fate (hlinked : linked → Matching.withheld records reserved g.key = true)
    (h : GroupFate.Holds outcome.made outcome.unmatchedGroupKeys linked g.key g.postingIds .reserved) :
    g.key ∈ reserved := by
  obtain ⟨hlink, hnotnamed, -⟩ := (run.reserved_iff hgroups hpostings hg hids linked).mp h
  exact (withheld_iff.mp (hlinked hlink)).resolve_left hnotnamed

/-- **Exactly one of four things becomes of a group**: it is left over; one match that is no operator's has all of its
postings; operators' matches have all of them and no other match has any; or no match has any, and an operator's link
names it. -/
theorem one_fate (hlinked : linked → Matching.withheld records reserved g.key = true)
    (hreserved : g.key ∈ reserved → linked) :
    ∃! fate : GroupFate, fate.Holds outcome.made outcome.unmatchedGroupKeys linked g.key g.postingIds := by
  have hmatched := run.matched_iff hgroups hpostings hg hids linked
  have hoperator := run.byOperator_iff hgroups hpostings hg hids linked
  have hkept := run.reserved_iff hgroups hpostings hg hids linked
  cases hwithheld : Matching.withheld records reserved g.key with
  | false =>
      have hnolink : ¬linked := fun hlink => Bool.false_ne_true (hwithheld.symm.trans (hlinked hlink))
      have hnotnamed : ¬∃ r ∈ records, r.links g.key = true := fun hnamed =>
        Bool.false_ne_true (hwithheld.symm.trans (withheld_iff.mpr (.inl hnamed)))
      rcases run.free_fate hgroups hg hwithheld with ⟨hleft, hnone⟩ | ⟨hnot, m, hm, hkey⟩
      · refine ⟨.unmatched, hleft, fun fate hfate => ?_⟩
        cases fate with
        | unmatched => rfl
        | matched =>
            obtain ⟨m, hm, hkey⟩ := hmatched.mp hfate
            exact absurd hkey (hnone m hm)
        | byOperator => exact absurd (hoperator.mp hfate).1 hnotnamed
        | reserved => exact absurd hfate.2 hnolink
      · refine ⟨.matched, hmatched.mpr ⟨m, hm, hkey⟩, fun fate hfate => ?_⟩
        cases fate with
        | unmatched => exact absurd hfate hnot
        | matched => rfl
        | byOperator => exact absurd (hoperator.mp hfate).1 hnotnamed
        | reserved => exact absurd hfate.2 hnolink
  | true =>
      obtain ⟨hnone, hnot⟩ := run.withheld_fate hwithheld
      have hnomatch : ¬∃ m ∈ run.new, g.key ∈ m.groupKeys := fun ⟨m, hm, hkey⟩ => hnone m hm hkey
      by_cases hnamed : ∃ r ∈ records, r.links g.key = true
      · refine ⟨.byOperator, hoperator.mpr ⟨hnamed, hnone⟩, fun fate hfate => ?_⟩
        cases fate with
        | unmatched => exact absurd hfate hnot
        | matched => exact absurd (hmatched.mp hfate) hnomatch
        | byOperator => rfl
        | reserved => exact absurd hnamed (hkept.mp hfate).2.1
      · have hlink := hreserved ((withheld_iff.mp hwithheld).resolve_left hnamed)
        refine ⟨.reserved, hkept.mpr ⟨hlink, hnamed, hnone⟩, fun fate hfate => ?_⟩
        cases fate with
        | unmatched => exact absurd hfate hnot
        | matched => exact absurd (hmatched.mp hfate) hnomatch
        | byOperator => exact absurd (hoperator.mp hfate).1 hnamed
        | reserved => rfl

end Run

end Runs

end Matching

end GoalReconciliation

import GoalReconciliation.Proofs.Run.Building
import GoalReconciliation.Proofs.Store.Reviewed

/-!
# What a run refuses

* `Group.OneMovement` : postings that agree on type, date and source id; `build_ok`, `build_invalid` : a key's postings
  are a group if they do, and invalid only if they do not;
* `buildGroups_spec` : the groups that are built, and the keys that are refused;
* `refusals_names`, `mem_pairsOf` : the items that fail a check, and the pairs of linked records;
* `taking`, `ofLoaded_spec` : **what is refused of what is loaded, record by record and key by key**.
-/

namespace GoalReconciliation

set_option autoImplicit false

open Fallible (bind_eq_ok map_eq_ok pure_eq_ok)
open Store (keyOf)

/-! ## Groups -/

namespace Group

/-- The postings agree on type, date and source id. -/
def OneMovement (postings : List Posting) : Prop :=
  ∀ p ∈ postings, ∀ q ∈ postings,
    p.transactionType = q.transactionType ∧ p.date = q.date ∧ p.sourceId = q.sourceId

instance (postings : List Posting) : Decidable (OneMovement postings) :=
  inferInstanceAs (Decidable (∀ p ∈ postings, ∀ q ∈ postings,
    p.transactionType = q.transactionType ∧ p.date = q.date ∧ p.sourceId = q.sourceId))

theorem agrees_iff {first p : Posting} : agrees first p = true ↔
    p.transactionType = first.transactionType ∧ p.date = first.date ∧ p.sourceId = first.sourceId := by
  simp [agrees, and_assoc]

theorem oneMovement_iff {first : Posting} {rest : List Posting} :
    OneMovement (first :: rest) ↔ ∀ p ∈ first :: rest, agrees first p = true := by
  constructor
  · intro h p hp
    exact agrees_iff.mpr (h p hp first List.mem_cons_self)
  · intro h p hp q hq
    obtain ⟨htype, hdate, hsource⟩ := agrees_iff.mp (h p hp)
    obtain ⟨htype', hdate', hsource'⟩ := agrees_iff.mp (h q hq)
    exact ⟨htype.trans htype'.symm, hdate.trans hdate'.symm, hsource.trans hsource'.symm⟩

section Sums

variable {key : String} {first : Posting} {postings : List Posting} {sums : Sums}

theorem addPosting_ok {p : Posting} {sums' : Sums} (h : addPosting key first sums p = .ok sums') :
    agrees first p = true := by
  by_contra hagrees
  rw [addPosting_disagreeing sums (Bool.not_eq_true _ ▸ hagrees)] at h
  cases h

/-- A posting that agrees is not invalid: its amount may only be too large. -/
theorem addPosting_invalid {p : Posting} {problem : Problem}
    (h : addPosting key first sums p = .error (.invalid problem)) : agrees first p = false := by
  by_contra hagrees
  rw [Bool.not_eq_false] at hagrees
  unfold addPosting at h
  rw [hagrees] at h
  cases htotal : sums.1.add p.amount with
  | error fault =>
      rw [htotal] at h
      cases h
  | ok total =>
      cases hinstruments : sums.2.addTo p.instrument p.amount with
      | error fault =>
          rw [htotal, hinstruments] at h
          cases h
      | ok instruments =>
          rw [htotal, hinstruments] at h
          cases h

theorem foldlM_addPosting_ok {sums' : Sums} (h : postings.foldlM (addPosting key first) sums = .ok sums') :
    ∀ p ∈ postings, agrees first p = true := by
  induction postings generalizing sums with
  | nil => simp
  | cons p rest ih =>
      rw [List.foldlM_cons] at h
      obtain ⟨next, hnext, h⟩ := bind_eq_ok.mp h
      exact List.forall_mem_cons.mpr ⟨addPosting_ok hnext, ih h⟩

theorem foldlM_addPosting_invalid {problem : Problem}
    (h : postings.foldlM (addPosting key first) sums = .error (.invalid problem)) :
    ∃ p ∈ postings, agrees first p = false := by
  induction postings generalizing sums with
  | nil => cases h
  | cons p rest ih =>
      rw [List.foldlM_cons] at h
      rcases Fallible.bind_eq_error.mp h with hp | ⟨next, -, h⟩
      · exact ⟨p, List.mem_cons_self, addPosting_invalid hp⟩
      · obtain ⟨q, hq, hdisagrees⟩ := ih h
        exact ⟨q, List.mem_cons_of_mem p hq, hdisagrees⟩

end Sums

variable {key : String} {postings : List Posting}

theorem build_ok {g : Group} (h : build key postings = .ok g) :
    g.key = key ∧ g.postingIds = postings.map Posting.id ∧ OneMovement postings := by
  cases postings with
  | nil => cases h
  | cons first rest =>
      refine ⟨build_key h, ?_⟩
      obtain ⟨sums, hsums, h⟩ := bind_eq_ok.mp h
      obtain rfl := pure_eq_ok.mp h
      exact ⟨rfl, oneMovement_iff.mpr (foldlM_addPosting_ok hsums)⟩

theorem build_invalid (hpostings : postings ≠ []) {problem : Problem}
    (h : build key postings = .error (.invalid problem)) : ¬OneMovement postings := by
  obtain ⟨first, rest, rfl⟩ := List.exists_cons_of_ne_nil hpostings
  rcases Fallible.bind_eq_error.mp h with h | ⟨sums, -, h⟩
  · obtain ⟨p, hp, hdisagrees⟩ := foldlM_addPosting_invalid h
    intro hone
    exact Bool.false_ne_true (hdisagrees.symm.trans (oneMovement_iff.mp hone p hp))
  · cases h

end Group

namespace Admission

open GoalReconciliation.Group (OneMovement)

/-- Of the keys, those whose postings are of one movement have their groups, and the others are refused. -/
theorem buildGroups_spec {keyed : List (String × List Posting)} (hkeyed : ∀ pair ∈ keyed, pair.2 ≠ [])
    {groups : List Group} {errors : List RecordError} (h : buildGroups keyed = .ok (groups, errors)) :
    (groups.map fun g => (g.key, g.postingIds)) =
        (keyed.filter fun pair => decide (OneMovement pair.2)).map (fun pair => (pair.1, pair.2.map Posting.id)) ∧
      errors.map RecordError.recordId = (keyed.filter fun pair => !decide (OneMovement pair.2)).map Prod.fst := by
  induction keyed generalizing groups errors with
  | nil =>
      obtain ⟨rfl, rfl⟩ := Prod.mk.inj (Except.ok.inj h)
      exact ⟨rfl, rfl⟩
  | cons pair rest ih =>
      obtain ⟨key, members⟩ := pair
      obtain ⟨hmembers, hrest⟩ := List.forall_mem_cons.mp hkeyed
      unfold buildGroups at h
      cases hbuild : Group.build key members with
      | ok g =>
          rw [hbuild] at h
          obtain ⟨⟨others, failed⟩, hothers, heq⟩ := map_eq_ok.mp h
          obtain ⟨rfl, rfl⟩ := Prod.mk.inj heq
          obtain ⟨hgroups, herrors⟩ := ih hrest hothers
          obtain ⟨hkey, hids, hone⟩ := Group.build_ok hbuild
          rw [List.filter_cons_of_pos (by simpa using hone), List.filter_cons_of_neg (by simpa using hone), List.map_cons,
            List.map_cons, hgroups, hkey, hids]
          exact ⟨rfl, herrors⟩
      | error failure =>
          rw [hbuild] at h
          cases failure with
          | invalid problem =>
              obtain ⟨⟨others, failed⟩, hothers, heq⟩ := map_eq_ok.mp h
              obtain ⟨rfl, rfl⟩ := Prod.mk.inj heq
              obtain ⟨hgroups, herrors⟩ := ih hrest hothers
              have hnot := Group.build_invalid hmembers hbuild
              rw [List.filter_cons_of_neg (by simpa using hnot), List.filter_cons_of_pos (by simpa using hnot),
                List.map_cons, List.map_cons, herrors]
              exact ⟨hgroups, rfl⟩
          | _ => cases h

/-! ## Records and postings -/

theorem refusals_names {α : Type} (check : α → Except Problem Unit) (name : α → String) (items : List α) :
    (refusals check name items).map RecordError.recordId =
      (items.filter fun item => !(check item).toBool).map name := by
  induction items with
  | nil => rfl
  | cons item rest ih =>
      unfold refusals at ih ⊢
      cases hcheck : check item with
      | ok _ =>
          rw [List.filterMap_cons_none (by simp [hcheck]), List.filter_cons_of_neg (by simp [hcheck, Except.toBool]), ih]
      | error problem =>
          rw [List.filterMap_cons_some (b := refusal (name item) problem) (by simp [hcheck]),
            List.filter_cons_of_pos (by simp [hcheck, Except.toBool]), List.map_cons, List.map_cons, ih]
          rfl

theorem mem_pairsOf {records : List BankRecord} {pair : String × String} :
    pair ∈ pairsOf records ↔
      ∃ r ∈ records, ∃ link, r.reversal = some link ∧ sortedPair r.id link.partnerId = pair := by
  simp [pairsOf]

/-- The postings that take part in a goal's run: those on channels that count that pass the check. -/
def taking (t : Tolerance) (goal : String) (postings : List Posting) : List Posting :=
  passing (fun p => p.check goal) (onChannel t postings)

def members (postings : List Posting) (key : String) : List Posting :=
  postings.filter fun p => decide (keyOf p = key)

def keysOf (postings : List Posting) : List String :=
  Assoc.distinct (postings.map keyOf)

theorem mem_keysOf {postings : List Posting} {key : String} :
    key ∈ keysOf postings ↔ ∃ p ∈ postings, keyOf p = key := by
  rw [keysOf, Assoc.mem_distinct, List.mem_map]

theorem nodup_keysOf (postings : List Posting) : (keysOf postings).Nodup :=
  Assoc.nodup_distinct _

/-- **What is admitted of what is loaded, and what is refused.** Each record and each posting on a channel that counts
that fails the check is refused once, and each key whose postings are not of one movement. The other keys have their
groups. -/
theorem ofLoaded_spec {t : Tolerance} {goal : String} {records : List BankRecord} {postings : List Posting}
    {a : Admission} (hkeyed : ∀ p ∈ postings, p.key = .ok (keyOf p)) (h : ofLoaded t goal records postings = .ok a) :
    a.errors.map RecordError.recordId =
        (records.filter fun r => !(r.check goal).toBool).map BankRecord.id ++
            ((onChannel t postings).filter fun p => !(p.check goal).toBool).map Posting.id ++
          (keysOf (taking t goal postings)).filter (fun key => !decide (OneMovement (members (taking t goal postings) key))) ∧
      (a.groups.map fun g => (g.key, g.postingIds)) =
        ((keysOf (taking t goal postings)).filter fun key =>
          decide (OneMovement (members (taking t goal postings) key))).map
            (fun key => (key, (members (taking t goal postings) key).map Posting.id)) ∧
      a.reversalPairs = pairsOf (passing (fun r => r.check goal) records) := by
  obtain ⟨keyed, hgathered, h⟩ := bind_eq_ok.mp h
  obtain ⟨⟨groups, errors⟩, hgroups, h⟩ := bind_eq_ok.mp h
  obtain rfl := pure_eq_ok.mp h
  have htaking : ∀ p ∈ taking t goal postings, p.key = .ok (keyOf p) := fun p hp =>
    hkeyed p (List.mem_filter.mp (List.mem_filter.mp hp).1).1
  have hgather := (Failure.lift_problem_ok.mp hgathered).symm.trans (Group.gather_keyed htaking)
  have heq : keyed = (keysOf (taking t goal postings)).map fun key => (key, members (taking t goal postings) key) :=
    (Except.ok.inj hgather).trans (Assoc.gather_eq keyOf _)
  have hmembers : ∀ pair ∈ keyed, pair.2 ≠ [] := by
    intro pair hpair
    rw [heq] at hpair
    obtain ⟨key, hkey, rfl⟩ := List.mem_map.mp hpair
    obtain ⟨p, hp, rfl⟩ := mem_keysOf.mp hkey
    exact List.ne_nil_of_mem (List.mem_filter.mpr ⟨hp, decide_eq_true rfl⟩)
  obtain ⟨hbuilt, hrefused⟩ := buildGroups_spec hmembers hgroups
  rw [heq, List.filter_map, List.map_map] at hbuilt hrefused
  refine ⟨?_, hbuilt, rfl⟩
  rw [List.map_append, List.map_append, refusals_names, refusals_names, hrefused]
  exact congrArg _ (List.map_id _)

end Admission

end GoalReconciliation

import GoalReconciliation.Proofs.Assoc
import GoalReconciliation.Proofs.Fallible
import GoalReconciliation.Run.Admission

/-!
# What is admitted to a run

* `Group.build_key`, `buildGroups_keys` : groups are built in the order of their keys, some keys left out;
* `Group.gather_map` : postings that keep their keys are gathered as they were;
* `ofLoaded_records`, `mem_ofLoaded`, `ofLoaded_groups` : the admitted records are those loaded that pass the check and
  are no part of a pair, and the admitted groups have distinct keys;
* `ofLoaded_kind` : what is refused is reported as invalid.
-/

namespace GoalReconciliation

set_option autoImplicit false

open Fallible (bind_eq_ok map_eq_ok pure_eq_ok)

/-! ## Failures of one kind within those of any kind -/

theorem Failure.lift_problem_ok {α : Type} {x : Except Problem α} {a : α} :
    (liftM x : Except Failure α) = .ok a ↔ x = .ok a := by
  cases x <;> simp [liftM, monadLift, MonadLift.monadLift]

theorem Failure.lift_fault_ok {α : Type} {x : Except Decimal.Fault α} {a : α} :
    (liftM x : Except Failure α) = .ok a ↔ x = .ok a := by
  cases x <;> simp [liftM, monadLift, MonadLift.monadLift]

/-! ## Listings -/

theorem Sorting.newestFirst_perm {α : Type} (date : α → Date) (key : α → String) (items : List α) :
    (Sorting.newestFirst date key items).Perm items :=
  List.mergeSort_perm _ _

theorem Sorting.byText_perm {α : Type} (key : α → String) (items : List α) : (Sorting.byText key items).Perm items :=
  List.mergeSort_perm _ _

/-! ## Groups -/

theorem Group.build_key {key : String} {postings : List Posting} {g : Group} (h : Group.build key postings = .ok g) :
    g.key = key := by
  cases postings with
  | nil => cases h
  | cons first rest =>
      obtain ⟨sums, -, h⟩ := bind_eq_ok.mp h
      obtain rfl := pure_eq_ok.mp h
      rfl

theorem Group.gather_keys {postings : List Posting} {keyed : List (String × List Posting)}
    (h : Group.gather postings = .ok keyed) : (keyed.map Prod.fst).Nodup := by
  obtain ⟨tagged, -, h⟩ := bind_eq_ok.mp h
  obtain rfl := pure_eq_ok.mp h
  rw [List.map_map]
  exact Assoc.gather_keys_nodup Prod.fst tagged

theorem Group.gather_map {f : Posting → Posting} (hkey : ∀ p, (f p).key = p.key) (postings : List Posting) :
    Group.gather (postings.map f) =
      (Group.gather postings).map (List.map fun entry => (entry.1, entry.2.map f)) := by
  let change (keyed : String × Posting) : String × Posting := (keyed.1, f keyed.2)
  have hkeyed : (postings.map f).mapM (fun p => return (← p.key, p)) =
      (postings.mapM fun p => return (← p.key, p) : Except Problem (List (String × Posting))).map (List.map change) :=
    Fallible.mapM_map_eq (fun p => by
      rw [hkey]
      cases p.key <;> rfl) postings
  unfold Group.gather
  rw [hkeyed]
  cases (postings.mapM fun p => return (← p.key, p) : Except Problem (List (String × Posting))) with
  | error problem => rfl
  | ok keyed =>
      change Except.ok ((Assoc.gather Prod.fst (keyed.map change)).map _) = Except.ok (List.map _ (List.map _ _))
      rw [Assoc.gather_map (g := change) (fun _ => rfl), List.map_map, List.map_map]
      refine congrArg Except.ok (List.map_congr_left fun entry _ => congrArg (Prod.mk entry.1) ?_)
      exact List.map_map.trans (List.map_map (g := f)).symm

namespace Admission

theorem buildGroups_keys {keyed : List (String × List Posting)} {groups : List Group} {errors : List RecordError}
    (h : buildGroups keyed = .ok (groups, errors)) : (groups.map Group.key).Sublist (keyed.map Prod.fst) := by
  induction keyed generalizing groups errors with
  | nil =>
      obtain ⟨rfl, -⟩ := Prod.mk.inj (Except.ok.inj h)
      exact List.Sublist.slnil
  | cons entry rest ih =>
      obtain ⟨key, members⟩ := entry
      unfold buildGroups at h
      cases hbuild : Group.build key members with
      | ok g =>
          rw [hbuild] at h
          obtain ⟨⟨others, _⟩, hothers, heq⟩ := map_eq_ok.mp h
          obtain ⟨rfl, rfl⟩ := Prod.mk.inj heq
          rw [List.map_cons, Group.build_key hbuild]
          exact (ih hothers).cons_cons key
      | error failure =>
          rw [hbuild] at h
          cases failure with
          | invalid problem =>
              obtain ⟨⟨others, _⟩, hothers, heq⟩ := map_eq_ok.mp h
              obtain ⟨rfl, rfl⟩ := Prod.mk.inj heq
              exact (ih hothers).cons key
          | _ => cases h

variable {t : Tolerance} {goal : String} {records : List BankRecord} {postings : List Posting} {a : Admission}

/-- The admitted records are some of those loaded, in their order. -/
theorem ofLoaded_records (h : ofLoaded t goal records postings = .ok a) : a.records.Sublist records := by
  obtain ⟨keyed, -, h⟩ := bind_eq_ok.mp h
  obtain ⟨⟨groups, errors⟩, -, h⟩ := bind_eq_ok.mp h
  obtain rfl := pure_eq_ok.mp h
  exact List.filter_sublist.trans List.filter_sublist

theorem mem_ofLoaded (h : ofLoaded t goal records postings = .ok a) {r : BankRecord} :
    r ∈ a.records ↔ r ∈ records ∧ r.reversal = none ∧ (r.check goal).toBool = true := by
  obtain ⟨keyed, -, h⟩ := bind_eq_ok.mp h
  obtain ⟨⟨groups, errors⟩, -, h⟩ := bind_eq_ok.mp h
  obtain rfl := pure_eq_ok.mp h
  simp [passing]

theorem ofLoaded_groups (h : ofLoaded t goal records postings = .ok a) : (a.groups.map Group.key).Nodup := by
  obtain ⟨keyed, hkeyed, h⟩ := bind_eq_ok.mp h
  obtain ⟨⟨groups, errors⟩, hgroups, h⟩ := bind_eq_ok.mp h
  obtain rfl := pure_eq_ok.mp h
  exact (Group.gather_keys (Failure.lift_problem_ok.mp hkeyed)).sublist (buildGroups_keys hgroups)

/-! ## Errors -/

theorem refusals_kind {α : Type} {check : α → Except Problem Unit} {name : α → String} {items : List α}
    {e : RecordError} (h : e ∈ refusals check name items) : e.kind = "validation" := by
  obtain ⟨item, -, hitem⟩ := List.mem_filterMap.mp h
  cases hcheck : check item with
  | ok _ =>
      rw [hcheck] at hitem
      cases hitem
  | error problem =>
      rw [hcheck] at hitem
      obtain rfl := Option.some.inj hitem
      rfl

theorem buildGroups_kind {keyed : List (String × List Posting)} {groups : List Group} {errors : List RecordError}
    (h : buildGroups keyed = .ok (groups, errors)) : ∀ e ∈ errors, e.kind = "validation" := by
  induction keyed generalizing groups errors with
  | nil =>
      obtain ⟨-, rfl⟩ := Prod.mk.inj (Except.ok.inj h)
      simp
  | cons entry rest ih =>
      obtain ⟨key, members⟩ := entry
      unfold buildGroups at h
      cases hbuild : Group.build key members with
      | ok g =>
          rw [hbuild] at h
          obtain ⟨⟨others, _⟩, hothers, heq⟩ := map_eq_ok.mp h
          obtain ⟨rfl, rfl⟩ := Prod.mk.inj heq
          exact ih hothers
      | error failure =>
          rw [hbuild] at h
          cases failure with
          | invalid problem =>
              obtain ⟨⟨others, _⟩, hothers, heq⟩ := map_eq_ok.mp h
              obtain ⟨rfl, rfl⟩ := Prod.mk.inj heq
              exact List.forall_mem_cons.mpr ⟨rfl, ih hothers⟩
          | _ => cases h

theorem ofLoaded_kind (h : ofLoaded t goal records postings = .ok a) : ∀ e ∈ a.errors, e.kind = "validation" := by
  obtain ⟨keyed, -, h⟩ := bind_eq_ok.mp h
  obtain ⟨⟨groups, errors⟩, hgroups, h⟩ := bind_eq_ok.mp h
  obtain rfl := pure_eq_ok.mp h
  intro e he
  rcases List.mem_append.mp he with he | he
  · rcases List.mem_append.mp he with he | he
    · exact refusals_kind he
    · exact refusals_kind he
  · exact buildGroups_kind hgroups e he

end Admission

end GoalReconciliation

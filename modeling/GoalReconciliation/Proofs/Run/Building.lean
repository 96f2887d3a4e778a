import GoalReconciliation.Proofs.Decimal.Magnitude
import GoalReconciliation.Proofs.Run.Admission

/-!
# Groups of moderate amounts

* `Group.foldlM_addPosting` : moderate amounts are summed up as far as their postings agree;
* `Group.build_cases` : **the postings of a key are a group if they agree, and invalid if they do not**;
* `Group.gather_keyed` : postings that have their keys are gathered under them;
* `Admission.buildGroups_moderate` : the groups of several keys are those of the keys whose postings agree.
-/

namespace GoalReconciliation

set_option autoImplicit false

open Decimal (Moderate Bounded add_bounded bounded_zero)
open Fallible (bind_eq_ok map_eq_ok pure_eq_ok)

/-! ## Sums -/

def Amounts.Bounded (amounts : Amounts) : Prop :=
  ∀ pair ∈ amounts, pair.2.Bounded

theorem Amounts.addTo_bounded {amounts : Amounts} (h : amounts.Bounded) (code : Listed Instrument) {amount : Decimal}
    (hamount : amount.Moderate) : ∃ amounts', amounts.addTo code amount = .ok amounts' ∧ amounts'.Bounded := by
  have hstart : ((Assoc.get? code amounts).getD Decimal.zero).Bounded := by
    cases hget : Assoc.get? code amounts with
    | none => exact bounded_zero
    | some d =>
        obtain ⟨pair, hpair, rfl⟩ := Assoc.mem_of_get? hget
        exact h pair hpair
  obtain ⟨total, hadd, htotal⟩ := add_bounded hstart hamount
  refine ⟨Assoc.put code total amounts, bind_eq_ok.mpr ⟨total, hadd, rfl⟩, fun pair hpair => ?_⟩
  rcases Assoc.mem_put hpair with rfl | hpair
  · exact htotal
  · exact h pair hpair

namespace Group

def Sums.Bounded (sums : Sums) : Prop :=
  sums.1.Bounded ∧ sums.2.Bounded

theorem addPosting_agreeing (key : String) {first p : Posting} {sums : Sums} (hsums : sums.Bounded)
    (hp : p.amount.Moderate) (hagrees : agrees first p = true) :
    ∃ sums', addPosting key first sums p = .ok sums' ∧ sums'.Bounded := by
  obtain ⟨total, hadd, htotal⟩ := add_bounded hsums.1 hp
  obtain ⟨instruments, haddTo, hinstruments⟩ := Amounts.addTo_bounded hsums.2 p.instrument hp
  refine ⟨(total, instruments), ?_, htotal, hinstruments⟩
  unfold addPosting
  rw [hagrees, hadd, haddTo]
  rfl

theorem addPosting_disagreeing {key : String} {first p : Posting} (sums : Sums) (h : agrees first p = false) :
    addPosting key first sums p = .error (.invalid (.disagreement p.id key)) := by
  unfold addPosting
  rw [h]
  rfl

theorem foldlM_addPosting (key : String) (first : Posting) {postings : List Posting}
    (hpostings : ∀ p ∈ postings, p.amount.Moderate) {sums : Sums} (hsums : sums.Bounded) :
    (∀ p ∈ postings, agrees first p = true) ∧
        (∃ sums', postings.foldlM (addPosting key first) sums = .ok sums' ∧ sums'.Bounded) ∨
      ∃ p ∈ postings, agrees first p = false ∧
        postings.foldlM (addPosting key first) sums = .error (.invalid (.disagreement p.id key)) := by
  induction postings generalizing sums with
  | nil => exact .inl ⟨by simp, sums, rfl, hsums⟩
  | cons p rest ih =>
      obtain ⟨hp, hrest⟩ := List.forall_mem_cons.mp hpostings
      rw [List.foldlM_cons]
      cases hagrees : agrees first p with
      | false =>
          right
          refine ⟨p, List.mem_cons_self, hagrees, ?_⟩
          rw [addPosting_disagreeing sums hagrees]
          rfl
      | true =>
          obtain ⟨next, hnext, hbounded⟩ := addPosting_agreeing key hsums hp hagrees
          rw [hnext]
          obtain ⟨hall, hok⟩ | ⟨q, hq, hdisagrees, herror⟩ := ih hrest hbounded
          · exact .inl ⟨List.forall_mem_cons.mpr ⟨hagrees, hall⟩, hok⟩
          · exact .inr ⟨q, List.mem_cons_of_mem _ hq, hdisagrees, herror⟩

/-- The postings of a key are a group if they agree, and invalid if they do not. -/
theorem build_cases (key : String) {first : Posting} {rest : List Posting}
    (hpostings : ∀ p ∈ first :: rest, p.amount.Moderate) :
    (∀ p ∈ first :: rest, agrees first p = true) ∧ (∃ g, build key (first :: rest) = .ok g ∧ g.amount.Bounded) ∨
      ∃ p ∈ first :: rest, agrees first p = false ∧
        build key (first :: rest) = .error (.invalid (.disagreement p.id key)) := by
  have hstart : Sums.Bounded (Decimal.zero, []) := ⟨bounded_zero, by simp [Amounts.Bounded]⟩
  obtain ⟨hall, sums, hsums, hbounded⟩ | ⟨p, hp, hdisagrees, herror⟩ :=
    foldlM_addPosting key first hpostings hstart
  · refine .inl ⟨hall, ?_⟩
    rw [build, hsums]
    exact ⟨_, rfl, hbounded.1⟩
  · refine .inr ⟨p, hp, hdisagrees, ?_⟩
    rw [build, herror]
    rfl

theorem build_moderate (key : String) {postings : List Posting} (hpostings : ∀ p ∈ postings, p.amount.Moderate) :
    (∃ g, build key postings = .ok g ∧ g.amount.Bounded) ∨
      ∃ problem, build key postings = .error (.invalid problem) := by
  cases postings with
  | nil => exact .inr ⟨_, rfl⟩
  | cons first rest =>
      obtain ⟨-, hok⟩ | ⟨p, -, -, herror⟩ := build_cases key hpostings
      · exact .inl hok
      · exact .inr ⟨_, herror⟩

/-! ## Keys -/

theorem gather_keyed {postings : List Posting} {keyOf : Posting → String}
    (hkeyed : ∀ p ∈ postings, p.key = .ok (keyOf p)) :
    gather postings = .ok (Assoc.gather keyOf postings) := by
  have hmap : postings.mapM (fun p : Posting => do return (← p.key, p)) =
      .ok (postings.map fun p => (keyOf p, p)) := by
    refine Fallible.mapM_eq_ok.mpr (List.forall₂_map_right_iff.mpr (List.forall₂_same.mpr fun p hp => ?_))
    change (do return (← p.key, p)) = _
    rw [hkeyed p hp]
    rfl
  unfold gather
  rw [hmap]
  change Except.ok _ = Except.ok _
  have hkeys : (postings.map fun p => (keyOf p, p)).map Prod.fst = postings.map keyOf := List.map_map
  have hmembers : ∀ key : String, ((postings.map fun p => (keyOf p, p)).filter fun pair => decide (pair.1 = key)).map
      Prod.snd = postings.filter fun p => decide (keyOf p = key) := by
    intro key
    rw [List.filter_map, List.map_map]
    exact List.map_id _
  rw [Assoc.gather_eq, Assoc.gather_eq, hkeys, List.map_map]
  refine congrArg Except.ok (List.map_congr_left fun key _ => ?_)
  exact congrArg (Prod.mk key) (hmembers key)

end Group

namespace Admission

/-- The groups of several keys are those of the keys whose postings agree. -/
theorem buildGroups_moderate {keyed : List (String × List Posting)}
    (hkeyed : ∀ pair ∈ keyed, ∀ p ∈ pair.2, p.amount.Moderate) :
    ∃ groups errors, buildGroups keyed = .ok (groups, errors) ∧
      ∀ g, g ∈ groups ↔ ∃ pair ∈ keyed, Group.build pair.1 pair.2 = .ok g := by
  induction keyed with
  | nil => exact ⟨[], [], rfl, by simp⟩
  | cons pair rest ih =>
      obtain ⟨key, members⟩ := pair
      obtain ⟨hmembers, hrest⟩ := List.forall_mem_cons.mp hkeyed
      obtain ⟨groups, errors, hothers, hgroups⟩ := ih hrest
      unfold buildGroups
      obtain ⟨g, hbuild, -⟩ | ⟨problem, hbuild⟩ := Group.build_moderate key hmembers
      · rw [hbuild, hothers]
        refine ⟨g :: groups, errors, rfl, fun h => ?_⟩
        rw [List.mem_cons, hgroups, List.exists_mem_cons_iff, hbuild, Except.ok.injEq, eq_comm]
      · rw [hbuild, hothers]
        refine ⟨groups, _, rfl, fun h => ?_⟩
        rw [hgroups, List.exists_mem_cons_iff, hbuild]
        simp

end Admission

end GoalReconciliation

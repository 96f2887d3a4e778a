import GoalReconciliation.Store.Procedure
import Mathlib.Data.List.Sort

/-!
# Several procedures woven into one

* `Weaves` : a procedure whose steps are those of several others, each one's in its own order, and which returns all
  their outcomes; whose step is next may depend on all answers so far;
* `Schedule` : a way of weaving any procedures;
* `weaves_inOrder`, `weaves_inTurns` : **one after the other, or taking turns at each request, are such ways.**
-/

namespace GoalReconciliation

set_option autoImplicit false

namespace Procedure

variable {α β γ : Type}

theorem bind_bind (p : Procedure α) (f : α → Procedure β) (g : β → Procedure γ) :
    (p.bind f).bind g = p.bind fun a => (f a).bind g := by
  induction p with
  | done outcome => cases outcome <;> rfl
  | ask request next ih => exact congrArg (ask request) (funext fun answer => ih answer)
  | record event rest ih => exact congrArg (record event) ih

theorem bind_pure (p : Procedure α) : p.bind pure = p := by
  induction p with
  | done outcome => cases outcome <;> rfl
  | ask request next ih => exact congrArg (ask request) (funext fun answer => ih answer)
  | record event rest ih => exact congrArg (record event) ih

theorem recordAll_append (events more : List AuditEvent) (p : Procedure α) :
    recordAll (events ++ more) p = recordAll events (recordAll more p) :=
  List.foldr_append

theorem recordAll_bind (events : List AuditEvent) (p : Procedure α) (f : α → Procedure β) :
    (recordAll events p).bind f = recordAll events (p.bind f) := by
  induction events with
  | nil => rfl
  | cons event rest ih => exact congrArg (record event) ih

/-! ## Weaving -/

/-- The procedure takes steps of the others, one at a time, and returns the outcomes of all of them. -/
inductive Weaves : List (Procedure α) → Procedure (List (Except Failure α)) → Prop
  | finished (outcomes : List (Except Failure α)) : Weaves (outcomes.map done) (done (.ok outcomes))
  | ask (before after : List (Procedure α)) {request : Request} {next : Except Failure request.Answer → Procedure α}
      {rest : Except Failure request.Answer → Procedure (List (Except Failure α))}
      (h : ∀ answer, Weaves (before ++ next answer :: after) (rest answer)) :
      Weaves (before ++ .ask request next :: after) (.ask request rest)
  | record (before after : List (Procedure α)) {event : AuditEvent} {p : Procedure α}
      {rest : Procedure (List (Except Failure α))} (h : Weaves (before ++ p :: after) rest) :
      Weaves (before ++ .record event p :: after) (.record event rest)

structure Schedule (α : Type) where
  outcomes : List (Procedure α) → Procedure (List (Except Failure α))
  weaves : ∀ procedures, Weaves procedures (outcomes procedures)

theorem weaves_attempt {before after : List (Procedure α)} {p : Procedure α}
    {f : Except Failure α → Procedure (List (Except Failure α))}
    (h : ∀ outcome, Weaves (before ++ done outcome :: after) (f outcome)) :
    Weaves (before ++ p :: after) (p.attempt.bind f) := by
  induction p with
  | done outcome => exact h outcome
  | ask request next ih => exact .ask before after ih
  | record event rest ih => exact .record before after ih

/-! ## One after the other -/

/-- Behind procedures that are begun already, the others one after the other. -/
theorem weaves_inOrder_bind {procedures before : List (Procedure α)}
    {f : List (Except Failure α) → Procedure (List (Except Failure α))}
    (h : ∀ outcomes, Weaves (before ++ outcomes.map done) (f outcomes)) :
    Weaves (before ++ procedures) ((inOrder (procedures.map attempt)).bind f) := by
  induction procedures generalizing before f with
  | nil => exact h []
  | cons p rest ih =>
      have hnext : (inOrder ((p :: rest).map attempt)).bind f =
          p.attempt.bind fun outcome => (inOrder (rest.map attempt)).bind fun outcomes => f (outcome :: outcomes) := by
        refine (bind_bind _ _ _).trans (congrArg _ (funext fun outcome => ?_))
        exact bind_bind _ _ _
      rw [hnext]
      refine weaves_attempt fun outcome => ?_
      have hmore : ∀ others : List (Procedure α),
          before ++ done outcome :: others = before ++ [done outcome] ++ others := fun others => by
        rw [List.append_assoc, List.singleton_append]
      rw [hmore]
      exact ih fun outcomes => hmore _ ▸ h (outcome :: outcomes)

/-- **One after the other.** -/
theorem weaves_inOrder (procedures : List (Procedure α)) : Weaves procedures (inOrder (procedures.map attempt)) := by
  have h : Weaves ([] ++ procedures) ((inOrder (procedures.map attempt)).bind pure) :=
    weaves_inOrder_bind fun outcomes => .finished outcomes
  rwa [bind_pure, List.nil_append] at h

/-! ## In turns -/

def placed (procedures : List (Procedure α)) : List (Nat × Procedure α) :=
  procedures.mapIdx fun place p => (place, p)

def settled (finished : List (Nat × Except Failure α)) : List (Nat × Procedure α) :=
  finished.map fun result => (result.1, done result.2)

theorem settled_concat (tasks : List (Nat × Procedure α)) (finished : List (Nat × Except Failure α)) (place : Nat)
    (outcome : Except Failure α) : (tasks ++ settled (finished ++ [(place, outcome)])).Perm
      ((place, done outcome) :: (tasks ++ settled finished)) := by
  rw [settled, List.map_append, ← List.append_assoc]
  exact List.perm_append_singleton _ _

/-- A procedure in its place, and what another one in this place makes of all of them. -/
theorem exists_place {place : Nat} {p : Procedure α} {others : List (Nat × Procedure α)}
    {procedures : List (Procedure α)} (h : ((place, p) :: others).Perm (placed procedures)) :
    ∃ before after, procedures = before ++ p :: after ∧
      ∀ q, ((place, q) :: others).Perm (placed (before ++ q :: after)) := by
  obtain ⟨i, hi, heq⟩ := List.mem_mapIdx.mp (h.subset List.mem_cons_self)
  obtain ⟨rfl, rfl⟩ := Prod.mk.inj heq
  obtain ⟨before, after, hsplit, hlength⟩ : ∃ before after, procedures = before ++ procedures[i] :: after ∧
      before.length = i :=
    ⟨procedures.take i, procedures.drop (i + 1), by simp, List.length_take_of_le hi.le⟩
  have hplaced : ∀ q, (placed (before ++ q :: after)).Perm
      ((i, q) :: (placed before ++ after.mapIdx fun place p => (place + 1 + i, p))) := by
    intro q
    rw [placed, List.mapIdx_append, List.mapIdx_cons, hlength, Nat.zero_add]
    exact List.perm_middle
  generalize procedures[i] = p at h hsplit
  subst hsplit
  refine ⟨before, after, rfl, fun q => ?_⟩
  have hothers := List.Perm.cons_inv (h.trans (hplaced p))
  exact (hothers.cons (i, q)).trans (hplaced q).symm

namespace Turns

def Holds (t : Turns α) (procedures : List (Procedure α)) : Prop :=
  (t.active ++ t.waiting ++ settled t.finished).Perm (placed procedures)

def inPlace (finished : List (Nat × Except Failure α)) : List (Except Failure α) :=
  (finished.mergeSort fun a b => decide (a.1 ≤ b.1)).map (·.2)

/-- Once all procedures are finished, their outcomes are in place. -/
theorem weaves_inPlace {procedures : List (Procedure α)} {finished : List (Nat × Except Failure α)}
    (h : (settled finished).Perm (placed procedures)) :
    Weaves procedures (pure (inPlace finished)) := by
  let sorted := finished.mergeSort fun a b => decide (a.1 ≤ b.1)
  have hperm : (settled sorted).Perm (placed procedures) := ((List.mergeSort_perm finished _).map _).trans h
  have hascending : sorted.Pairwise fun a b => decide (a.1 ≤ b.1) = true :=
    List.pairwise_mergeSort (fun a b c hab hbc => by simp only [decide_eq_true_eq] at *; omega)
      (fun a b => by simp only [Bool.or_eq_true, decide_eq_true_eq]; omega) finished
  have hsettled : (settled sorted).Pairwise fun a b => a.1 ≤ b.1 :=
    List.pairwise_map.mpr (hascending.imp fun hab => of_decide_eq_true hab)
  have hplaced : (placed procedures).Pairwise fun a b => a.1 ≤ b.1 := by
    rw [List.pairwise_iff_getElem]
    intro i j hi hj hij
    simp only [placed, List.getElem_mapIdx]
    exact hij.le
  -- there is one procedure in a place
  have hplace : ∀ a b, a ∈ settled sorted → b ∈ placed procedures → a.1 ≤ b.1 → b.1 ≤ a.1 → a = b := by
    intro a b ha hb hle hge
    obtain ⟨i, hi, rfl⟩ := List.mem_mapIdx.mp (hperm.subset ha)
    obtain ⟨j, hj, rfl⟩ := List.mem_mapIdx.mp hb
    obtain rfl : i = j := Nat.le_antisymm hle hge
    rfl
  have hsame : settled sorted = placed procedures := hperm.eq_of_pairwise hplace hsettled hplaced
  have hprocedures : procedures = (inPlace finished).map done := by
    have hsecond : (settled sorted).map Prod.snd = (inPlace finished).map done := by
      rw [settled, inPlace, List.map_map, List.map_map]
      rfl
    rw [← hsecond, hsame]
    exact List.ext_getElem (by simp [placed]) fun i _ _ => by simp [placed]
  rw [hprocedures]
  exact .finished (inPlace finished)

theorem weaves_advance {before after : List (Procedure α)} {p : Procedure α}
    {rest : Procedure (List (Except Failure α))} (h : Weaves (before ++ (advance p).2 :: after) rest) :
    Weaves (before ++ p :: after) (recordAll (advance p).1 rest) := by
  induction p with
  | done outcome => exact h
  | ask request next ih => exact h
  | record event p ih => exact .record before after (ih h)

/-- The events of a step, after which what is left can be woven, and so the procedures before it. -/
def Leads (procedures : List (Procedure α)) (step : List AuditEvent × Turns α) : Prop :=
  ∃ left, step.2.Holds left ∧ ∀ rest, Weaves left rest → Weaves procedures (recordAll step.1 rest)

theorem leads_enter {t : Turns α} {place : Nat} {before after : List (Procedure α)} {p : Procedure α}
    (h : ∀ q, ((place, q) :: (t.active ++ t.waiting ++ settled t.finished)).Perm
      (placed (before ++ q :: after))) : Leads (before ++ p :: after) (enter t place p) := by
  refine ⟨before ++ (advance p).2 :: after, ?_, fun rest hrest => ?_⟩
  · have hleft := h (advance p).2
    unfold Turns.enter
    generalize advance p = advanced at hleft
    obtain ⟨events, q⟩ := advanced
    have hlast : (t.active ++ [(place, q)] ++ t.waiting ++
        settled t.finished).Perm (placed (before ++ q :: after)) := by
      refine List.Perm.trans ?_ hleft
      simp only [List.append_assoc, List.singleton_append]
      exact List.perm_middle
    cases q with
    | done outcome =>
        exact (settled_concat _ _ _ _).trans hleft
    | ask request next => exact hlast
    | record event rest => exact hlast
  · have hevents : (enter t place p).1 = (advance p).1 := by
      unfold Turns.enter
      generalize advance p = advanced
      obtain ⟨events, q⟩ := advanced
      cases q <;> rfl
    rw [hevents]
    exact weaves_advance hrest

theorem leads_fill {t : Turns α} {procedures : List (Procedure α)} (h : t.Holds procedures) (limit fuel : Nat) :
    Leads procedures (fill limit fuel t) := by
  induction fuel generalizing t procedures with
  | zero => exact ⟨procedures, h, fun rest hrest => hrest⟩
  | succ fuel ih =>
      unfold Turns.fill
      cases hwaiting : t.waiting with
      | nil => exact ⟨procedures, h, fun rest hrest => hrest⟩
      | cons task others =>
          obtain ⟨place, p⟩ := task
          simp only []
          split
          · unfold Holds at h
            rw [hwaiting] at h
            have hfirst : ((place, p) :: (t.active ++ others ++
                settled t.finished)).Perm (placed procedures) := by
              refine List.Perm.trans ?_ h
              simp only [List.append_assoc, List.cons_append]
              exact List.perm_middle.symm
            obtain ⟨before, after, rfl, hplaced⟩ := exists_place hfirst
            obtain ⟨begun, hbegun, hrecorded⟩ := leads_enter (t := { t with waiting := others }) (p := p) hplaced
            obtain ⟨left, hleft, hmore⟩ := ih hbegun
            refine ⟨left, hleft, fun rest hrest => ?_⟩
            rw [recordAll_append]
            exact hrecorded _ (hmore rest hrest)
          · exact ⟨procedures, h, fun rest hrest => hrest⟩

end Turns

open Turns in
theorem weaves_finishInOrder {tasks : List (Nat × Procedure α)} {finished : List (Nat × Except Failure α)}
    {procedures : List (Procedure α)}
    (h : (tasks ++ settled finished).Perm (placed procedures)) :
    Weaves procedures ((finishInOrder finished tasks).bind fun finished => pure (inPlace finished)) := by
  induction tasks generalizing finished procedures with
  | nil => exact weaves_inPlace h
  | cons task rest ih =>
      obtain ⟨before, after, rfl, hplaced⟩ := exists_place h
      refine (bind_bind _ _ _) ▸ weaves_attempt fun outcome => ih ?_
      exact (settled_concat _ _ _ _).trans (hplaced (done outcome))

open Turns in
theorem weaves_takeTurns {t : Turns α} {procedures : List (Procedure α)} (h : t.Holds procedures) (limit turns : Nat) :
    Weaves procedures ((takeTurns limit turns t).bind fun finished => pure (inPlace finished)) := by
  induction turns generalizing t procedures with
  | zero => exact weaves_finishInOrder h
  | succ turns ih =>
      unfold takeTurns
      unfold Holds at h
      cases hactive : t.active with
      | nil =>
          rw [hactive] at h
          exact weaves_finishInOrder h
      | cons task rest =>
          obtain ⟨place, p⟩ := task
          rw [hactive] at h
          obtain ⟨before, after, rfl, hplaced⟩ := exists_place h
          -- a procedure that is active waits for an answer; any other one would be done to its end
          have hfinish : Weaves (before ++ p :: after) ((p.attempt.bind fun outcome => takeTurns limit turns
              { t with active := rest, finished := t.finished ++ [(place, outcome)] }).bind
                fun finished => pure (inPlace finished)) := by
            rw [bind_bind]
            refine weaves_attempt fun outcome => ih ?_
            exact (settled_concat _ _ _ _).trans (hplaced (done outcome))
          cases p with
          | done outcome => exact hfinish
          | record event next => exact hfinish
          | ask request next =>
              refine .ask before after fun answer => ?_
              obtain ⟨begun, hbegun, hrecorded⟩ :=
                leads_enter (t := { t with active := rest }) (p := next answer) hplaced
              obtain ⟨left, hleft, hmore⟩ := leads_fill hbegun limit
                (enter { t with active := rest } place (next answer)).2.waiting.length
              have hnext := hrecorded _ (hmore _ (ih hleft))
              rw [← recordAll_append, ← recordAll_bind] at hnext
              exact hnext

/-- **Taking turns at each request.** -/
theorem weaves_inTurns (limit : Nat) (procedures : List (Procedure α)) :
    Weaves procedures (inTurns limit procedures) := by
  have hstart : (⟨[], placed procedures, []⟩ : Turns α).Holds procedures := by
    unfold Turns.Holds settled
    simp
  obtain ⟨left, hleft, hbegun⟩ := Turns.leads_fill hstart limit procedures.length
  have hturns := hbegun _ (weaves_takeTurns hleft limit maxTurns)
  rw [← recordAll_bind] at hturns
  exact hturns

end Procedure

end GoalReconciliation

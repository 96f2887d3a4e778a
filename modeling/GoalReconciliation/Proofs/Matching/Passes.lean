import GoalReconciliation.Matching.Outcome
import GoalReconciliation.Proofs.Lookup
import GoalReconciliation.Proofs.Matching.Claims
import GoalReconciliation.Proofs.Matching.Combination

/-!
# What each pass does

* `pairTurn_cases`, `splitTurn_cases` : the turn of one item either makes a match or leaves the claims, and then
  nothing free has fitted;
* `NothingFound` : a split among some candidates has found none that sum to its target;
* `pairPass_steps`, `splitBankPass_steps`, `splitGroupPass_steps` : a pass is a sequence of steps;
* `pairPass_rejected`, `splitBankPass_rejected`, `splitGroupPass_rejected` : what is free after a pass was tried and
  rejected in it, as claims only grow;
* `Stages` : the claims after each pass of a run.
-/

namespace GoalReconciliation.Matching

set_option autoImplicit false

open Fallible (Turn bind_eq_ok pure_eq_ok foldlM_steps foldlM_turn)
open Relation (ReflTransGen)

variable {t : Tolerance} {records : List BankRecord} {groups : List Group} {kind : Match → Prop} {c c' : Claims}

/-! ## Turns -/

section Turns

variable {α : Type} {turn : Claims → α → Except Decimal.Fault Claims} {xs : List α}

theorem turns_steps
    (hturn : ∀ a ∈ xs, ∀ c c' : Claims, turn c a = .ok c' → Steps t records groups kind c c')
    (h : ReflTransGen (Turn turn xs) c c') : Steps t records groups kind c c' := by
  induction h with
  | refl => exact ReflTransGen.refl
  | tail _ hlast ih =>
      obtain ⟨a, ha, hlast⟩ := hlast
      exact ih.trans (hturn a ha _ _ hlast)

theorem turn_between
    (hturn : ∀ a ∈ xs, ∀ c c' : Claims, turn c a = .ok c' → Steps t records groups kind c c')
    (h : xs.foldlM turn c = .ok c') {a : α} (ha : a ∈ xs) :
    ∃ before after, turn before a = .ok after ∧ Steps t records groups kind before c' ∧
      Steps t records groups kind after c' := by
  obtain ⟨before, after, -, hat, hafter⟩ := foldlM_turn h ha
  have hafter := turns_steps hturn hafter
  exact ⟨before, after, hat, (hturn a ha _ _ hat).trans hafter, hafter⟩

end Turns

theorem Claims.not_freeBank_add {m : Match} {rs : List BankRecord} {gs : List Group} (hpairs : m.Pairs rs gs)
    {r : BankRecord} (hr : r ∈ rs) : ¬(c.add m).freeBank r = true := by
  rw [freeBank_iff, not_not, add, hpairs.bankIds]
  exact List.mem_append_right _ (List.mem_map_of_mem hr)

theorem Claims.not_freeGroup_add {m : Match} {rs : List BankRecord} {gs : List Group} (hpairs : m.Pairs rs gs)
    {g : Group} (hg : g ∈ gs) : ¬(c.add m).freeGroup g = true := by
  rw [freeGroup_iff, not_not, add, hpairs.groupKeys]
  exact List.mem_append_right _ (List.mem_map_of_mem hg)

/-! ## One record with one group -/

section Pairs

variable {fits : BankRecord → Group → Except Decimal.Fault Bool} {matchType : MatchType}
  {confidence : BankRecord → Group → Float} {within : Bool}

/-- A free record takes a free group that it fits, or it fits none. -/
theorem pairTurn_cases {r : BankRecord} (h : pairTurn fits matchType confidence within groups c r = .ok c') :
    (c.freeBank r = true ∧ ∃ g ∈ groups, c.freeGroup g = true ∧ fits r g = .ok true ∧
        c.take [r] [g] matchType (confidence r g) within = .ok c') ∨
      (c' = c ∧ (c.freeBank r = true → ∀ g ∈ groups, c.freeGroup g = true → fits r g = .ok false)) := by
  unfold pairTurn at h
  split at h
  · rename_i hfree
    obtain ⟨found, hfound, h⟩ := bind_eq_ok.mp h
    cases found with
    | some g =>
        obtain ⟨hg, hfits⟩ := Fallible.findM?_eq_some hfound
        obtain ⟨hmem, hgfree⟩ := List.mem_filter.mp hg
        exact Or.inl ⟨hfree, g, hmem, hgfree, hfits, h⟩
    | none =>
        have hnone := Fallible.findM?_eq_none hfound
        exact Or.inr ⟨(pure_eq_ok.mp h).symm, fun _ g hg hgfree => hnone g (List.mem_filter.mpr ⟨hg, hgfree⟩)⟩
  · rename_i htaken
    exact Or.inr ⟨(pure_eq_ok.mp h).symm, fun hfree => absurd hfree htaken⟩

variable
  (hchecked : ∀ c r g, fits r g = .ok true → Checked t records groups c matchType within [r] [g])
  (hkind : ∀ m : Match, m.matchType = matchType → m.withinTolerance = within → kind m)

include hchecked hkind

theorem pairTurn_steps {r : BankRecord} (hr : r ∈ records)
    (h : pairTurn fits matchType confidence within groups c r = .ok c') : Steps t records groups kind c c' := by
  rcases pairTurn_cases h with ⟨hfree, g, hg, hgfree, hfits, htake⟩ | ⟨rfl, -⟩
  · obtain ⟨m, hpairs, rfl, rfl, rfl⟩ := Claims.take_spec htake
    refine ReflTransGen.single ⟨m, [r], [g], hkind m rfl rfl, ?_, rfl⟩
    exact { records_of := by simpa using hr, groups_of := by simpa using hg, records_free := by simpa using hfree,
            groups_free := by simpa using hgfree, records_once := List.nodup_singleton _,
            groups_once := List.nodup_singleton _, checked := hchecked c r g hfits, pairs := hpairs }
  · exact ReflTransGen.refl

theorem pairPass_steps (h : pairPass fits matchType confidence within records groups c = .ok c') :
    Steps t records groups kind c c' :=
  turns_steps (fun _ hr _ _ => pairTurn_steps hchecked hkind hr) (foldlM_steps h)

/-- A record and a group that are both free after the pass do not fit. -/
theorem pairPass_rejected (h : pairPass fits matchType confidence within records groups c = .ok c')
    {r : BankRecord} {g : Group} (hr : r ∈ records) (hg : g ∈ groups) (hrfree : c'.freeBank r = true)
    (hgfree : c'.freeGroup g = true) : fits r g = .ok false := by
  obtain ⟨before, after, hturn, hbefore, hafter⟩ :=
    turn_between (fun _ hr _ _ => pairTurn_steps hchecked hkind hr) h hr
  rcases pairTurn_cases hturn with ⟨-, g', -, -, -, htake⟩ | ⟨-, hnone⟩
  · obtain ⟨m, hpairs, -, -, rfl⟩ := Claims.take_spec htake
    exact absurd (hafter.freeBank hrfree) (Claims.not_freeBank_add hpairs (List.mem_singleton_self r))
  · exact hnone (hbefore.freeBank hrfree) g hg (hbefore.freeGroup hgfree)

end Pairs

theorem exactFits_checked (c : Claims) (r : BankRecord) (g : Group) (h : exactFits t r g = .ok true) :
    Checked t records groups c .exact true [r] [g] := by
  unfold exactFits at h
  split at h
  · rename_i hsource
    exact Checked.exact hsource h
  · cases h

theorem amountFits_checked (c : Claims) (r : BankRecord) (g : Group) (h : amountFits t r g = .ok true) :
    Checked t records groups c .amount true [r] [g] := by
  unfold amountFits at h
  split at h
  · rename_i hnear
    exact Checked.amount hnear.1 hnear.2 h
  · cases h

theorem sourceFits_checked (c : Claims) (r : BankRecord) (g : Group)
    (h : (.ok (sameSource r g) : Except Decimal.Fault Bool) = .ok true) :
    Checked t records groups c .exact false [r] [g] :=
  Checked.source (Except.ok.inj h)

/-! ## One with several -/

/-- No candidates were found to sum to the target: there were too few to search, or the search has ended without. -/
def NothingFound {α : Type} (t : Tolerance) (name : α → String) (amount : α → Decimal) (candidates : List α)
    (target : Decimal) : Prop :=
  candidates.length < 2 ∨ ∃ bound, t.allowance target = .ok bound ∧
    Combination.find (candidates.map fun a => (name a, amount a)) target bound t.splitLimit = .ok []

/-- The candidates that were found to sum to the target are taken: several of them, each once. Or none were found. -/
theorem splitTurn_cases {α : Type} {name : α → String} {amount : α → Decimal} {candidates : List α}
    (hcandidates : (candidates.map name).Nodup) {target : Decimal} {take : List α → Except Decimal.Fault Claims}
    (h : splitTurn t name amount candidates target take c = .ok c') :
    (∃ (picked : List α) (bound : Decimal), picked ⊆ candidates ∧ (picked.map name).Nodup ∧ 2 ≤ picked.length ∧
        t.allowance target = .ok bound ∧
        Combination.find (candidates.map fun a => (name a, amount a)) target bound t.splitLimit =
          .ok (picked.map name) ∧
        take picked = .ok c') ∨
      (c' = c ∧ NothingFound t name amount candidates target) := by
  unfold splitTurn at h
  split at h
  · rename_i hfew
    exact Or.inr ⟨(Except.ok.inj h).symm, Or.inl hfew⟩
  · obtain ⟨bound, hbound, h⟩ := bind_eq_ok.mp h
    obtain ⟨names, hnames, h⟩ := bind_eq_ok.mp h
    split at h
    · rename_i hempty
      obtain rfl := List.isEmpty_iff.mp hempty
      exact Or.inr ⟨(pure_eq_ok.mp h).symm, Or.inr ⟨bound, hbound, hnames⟩⟩
    · rename_i hsome
      obtain ⟨hpicked, honce, hmany⟩ := Combination.find_picked hcandidates hnames (by simpa using hsome)
      refine Or.inl ⟨_, bound, Lookup.picked_subset name candidates names, ?_, hmany, hbound, ?_, h⟩
      · rwa [hpicked]
      · rwa [hpicked]

theorem Claims.mem_recordsOf {r : BankRecord} {g : Group} :
    r ∈ c.recordsOf records g ↔ r ∈ records ∧ c.freeBank r = true ∧ sameDay r g = true := by
  simp [recordsOf]

theorem Claims.mem_groupsOf {r : BankRecord} {g : Group} :
    g ∈ c.groupsOf groups r ↔ g ∈ groups ∧ c.freeGroup g = true ∧ sameDay r g = true := by
  simp [groupsOf]

theorem Claims.recordsOf_sublist (c : Claims) (records : List BankRecord) (g : Group) :
    (c.recordsOf records g).Sublist records :=
  List.filter_sublist

theorem Claims.groupsOf_sublist (c : Claims) (groups : List Group) (r : BankRecord) :
    (c.groupsOf groups r).Sublist groups :=
  List.filter_sublist

theorem Claims.recordsOf_nodup (hrecords : (records.map BankRecord.id).Nodup) (g : Group) :
    ((c.recordsOf records g).map BankRecord.id).Nodup :=
  hrecords.sublist ((c.recordsOf_sublist records g).map _)

theorem Claims.groupsOf_nodup (hgroups : (groups.map Group.key).Nodup) (r : BankRecord) :
    ((c.groupsOf groups r).map Group.key).Nodup :=
  hgroups.sublist ((c.groupsOf_sublist groups r).map _)

section Splits

variable (hrecords : (records.map BankRecord.id).Nodup)
  (hkind : ∀ m : Match, m.matchType = .splitBankToGroup → m.withinTolerance = true → kind m)

include hrecords hkind

theorem splitBankTurn_steps {g : Group} (hg : g ∈ groups) (h : splitBankTurn t records c g = .ok c') :
    Steps t records groups kind c c' := by
  unfold splitBankTurn at h
  split at h
  · rename_i hfree
    rcases splitTurn_cases (Claims.recordsOf_nodup hrecords g) h with
      ⟨rs, bound, hof, honce, hmany, hbound, hfound, htake⟩ | ⟨rfl, -⟩
    · obtain ⟨m, hpairs, htype, hwithin, rfl⟩ := Claims.take_spec htake
      refine ReflTransGen.single ⟨m, rs, [g], hkind m htype hwithin, ?_, rfl⟩
      refine { records_of := fun r hr => (Claims.mem_recordsOf.mp (hof hr)).1, groups_of := by simpa using hg,
               records_free := fun r hr => (Claims.mem_recordsOf.mp (hof hr)).2.1, groups_free := by simpa using hfree,
               records_once := honce, groups_once := List.nodup_singleton _, checked := ?_, pairs := hpairs }
      rw [htype, hwithin]
      exact Checked.splitBank hof hmany hbound hfound
    · exact ReflTransGen.refl
  · obtain rfl := Except.ok.inj h
    exact ReflTransGen.refl

theorem splitBankPass_steps (h : splitBankPass t records groups c = .ok c') : Steps t records groups kind c c' :=
  turns_steps (fun _ hg _ _ => splitBankTurn_steps hrecords hkind hg) (foldlM_steps h)

/-- For a group that is free after the pass, nothing was found among its candidates, which were all that are free
after the pass, and maybe more. -/
theorem splitBankPass_rejected (h : splitBankPass t records groups c = .ok c') {g : Group} (hg : g ∈ groups)
    (hfree : c'.freeGroup g = true) :
    ∃ before : Claims, (∀ r, c'.freeBank r = true → before.freeBank r = true) ∧
      NothingFound t BankRecord.id BankRecord.amount (before.recordsOf records g) g.amount := by
  obtain ⟨before, after, hturn, hbefore, hafter⟩ :=
    turn_between (fun _ hg _ _ => splitBankTurn_steps hrecords hkind hg) h hg
  refine ⟨before, fun r => hbefore.freeBank, ?_⟩
  rw [splitBankTurn, if_pos (hbefore.freeGroup hfree)] at hturn
  rcases splitTurn_cases (Claims.recordsOf_nodup hrecords g) hturn with ⟨rs, bound, -, -, -, -, -, htake⟩ | ⟨-, hnone⟩
  · obtain ⟨m, hpairs, -, -, rfl⟩ := Claims.take_spec htake
    exact absurd (hafter.freeGroup hfree) (Claims.not_freeGroup_add hpairs (List.mem_singleton_self g))
  · exact hnone

end Splits

section Splits

variable (hgroups : (groups.map Group.key).Nodup)
  (hkind : ∀ m : Match, m.matchType = .splitGroupToBank → m.withinTolerance = true → kind m)

include hgroups hkind

theorem splitGroupTurn_steps {r : BankRecord} (hr : r ∈ records) (h : splitGroupTurn t groups c r = .ok c') :
    Steps t records groups kind c c' := by
  unfold splitGroupTurn at h
  split at h
  · rename_i hfree
    rcases splitTurn_cases (Claims.groupsOf_nodup hgroups r) h with
      ⟨gs, bound, hof, honce, hmany, hbound, hfound, htake⟩ | ⟨rfl, -⟩
    · obtain ⟨m, hpairs, htype, hwithin, rfl⟩ := Claims.take_spec htake
      refine ReflTransGen.single ⟨m, [r], gs, hkind m htype hwithin, ?_, rfl⟩
      refine { records_of := by simpa using hr, groups_of := fun g hg => (Claims.mem_groupsOf.mp (hof hg)).1,
               records_free := by simpa using hfree,
               groups_free := fun g hg => (Claims.mem_groupsOf.mp (hof hg)).2.1,
               records_once := List.nodup_singleton _, groups_once := honce, checked := ?_, pairs := hpairs }
      rw [htype, hwithin]
      exact Checked.splitGroup hof hmany hbound hfound
    · exact ReflTransGen.refl
  · obtain rfl := Except.ok.inj h
    exact ReflTransGen.refl

theorem splitGroupPass_steps (h : splitGroupPass t records groups c = .ok c') : Steps t records groups kind c c' :=
  turns_steps (fun _ hr _ _ => splitGroupTurn_steps hgroups hkind hr) (foldlM_steps h)

theorem splitGroupPass_rejected (h : splitGroupPass t records groups c = .ok c') {r : BankRecord} (hr : r ∈ records)
    (hfree : c'.freeBank r = true) :
    ∃ before : Claims, (∀ g, c'.freeGroup g = true → before.freeGroup g = true) ∧
      NothingFound t Group.key Group.amount (before.groupsOf groups r) r.amount := by
  obtain ⟨before, after, hturn, hbefore, hafter⟩ :=
    turn_between (fun _ hr _ _ => splitGroupTurn_steps hgroups hkind hr) h hr
  refine ⟨before, fun g => hbefore.freeGroup, ?_⟩
  rw [splitGroupTurn, if_pos (hbefore.freeBank hfree)] at hturn
  rcases splitTurn_cases (Claims.groupsOf_nodup hgroups r) hturn with ⟨gs, bound, -, -, -, -, -, htake⟩ | ⟨-, hnone⟩
  · obtain ⟨m, hpairs, -, -, rfl⟩ := Claims.take_spec htake
    exact absurd (hafter.freeBank hfree) (Claims.not_freeBank_add hpairs (List.mem_singleton_self r))
  · exact hnone

end Splits

/-! ## A run of all passes -/

/-- The claims after each pass of a run; the reserved keys are claimed after the operators' matches. -/
structure Stages (t : Tolerance) (records : List BankRecord) (groups : List Group) (reserved : List String)
    (last : Claims) where
  manual : Claims
  exact : Claims
  amount : Claims
  splitBank : Claims
  splitGroup : Claims
  manual_ok : manualPass records groups {} = .ok manual
  exact_ok : exactPass t records groups { manual with groups := manual.groups ++ reserved } = .ok exact
  amount_ok : amountPass t records groups exact = .ok amount
  splitBank_ok : splitBankPass t records groups amount = .ok splitBank
  splitGroup_ok : splitGroupPass t records groups splitBank = .ok splitGroup
  source_ok : sourcePass records groups splitGroup = .ok last

theorem claims_stages {reserved : List String} (h : MatchOutcome.claims t records groups reserved = .ok c) :
    Nonempty (Stages t records groups reserved c) := by
  obtain ⟨manual, hmanual, h⟩ := bind_eq_ok.mp h
  obtain ⟨exact, hexact, h⟩ := bind_eq_ok.mp h
  obtain ⟨amount, hamount, h⟩ := bind_eq_ok.mp h
  obtain ⟨splitBank, hsplitBank, h⟩ := bind_eq_ok.mp h
  obtain ⟨splitGroup, hsplitGroup, h⟩ := bind_eq_ok.mp h
  exact ⟨manual, exact, amount, splitBank, splitGroup, hmanual, hexact, hamount, hsplitBank, hsplitGroup, h⟩

def OfType (matchType : MatchType) (within : Bool) (m : Match) : Prop :=
  m.matchType = matchType ∧ m.withinTolerance = within

def Tolerant (m : Match) : Prop :=
  m.matchType ≠ .manual ∧ m.withinTolerance = true

theorem OfType.ne_manual {matchType : MatchType} {within : Bool} (hne : matchType ≠ .manual) {m : Match}
    (h : OfType matchType within m) : m.matchType ≠ .manual :=
  h.1 ▸ hne

theorem OfType.tolerant {matchType : MatchType} (hne : matchType ≠ .manual) {m : Match} (h : OfType matchType true m) :
    Tolerant m :=
  ⟨h.ne_manual hne, h.2⟩

namespace Stages

variable {reserved : List String} {last : Claims}

def start (s : Stages t records groups reserved last) : Claims :=
  { s.manual with groups := s.manual.groups ++ reserved }

section Steps

variable (s : Stages t records groups reserved last)

theorem exact_steps : Steps t records groups (OfType .exact true) s.start s.exact :=
  pairPass_steps exactFits_checked (fun _ => And.intro) s.exact_ok

theorem amount_steps : Steps t records groups (OfType .amount true) s.exact s.amount :=
  pairPass_steps amountFits_checked (fun _ => And.intro) s.amount_ok

theorem splitBank_steps (hrecords : (records.map BankRecord.id).Nodup) :
    Steps t records groups (OfType .splitBankToGroup true) s.amount s.splitBank :=
  splitBankPass_steps hrecords (fun _ => And.intro) s.splitBank_ok

theorem splitGroup_steps (hgroups : (groups.map Group.key).Nodup) :
    Steps t records groups (OfType .splitGroupToBank true) s.splitBank s.splitGroup :=
  splitGroupPass_steps hgroups (fun _ => And.intro) s.splitGroup_ok

theorem source_steps : Steps t records groups (OfType .exact false) s.splitGroup last :=
  pairPass_steps sourceFits_checked (fun _ => And.intro) s.source_ok

theorem middle_steps (hrecords : (records.map BankRecord.id).Nodup) (hgroups : (groups.map Group.key).Nodup) :
    Steps t records groups Tolerant s.exact s.splitGroup := by
  have hamount := s.amount_steps.mono fun _ => OfType.tolerant (by decide)
  have hsplitBank := (s.splitBank_steps hrecords).mono fun _ => OfType.tolerant (by decide)
  have hsplitGroup := (s.splitGroup_steps hgroups).mono fun _ => OfType.tolerant (by decide)
  exact (hamount.trans hsplitBank).trans hsplitGroup

/-- All passes but the last one make matches in tolerance. -/
theorem tolerant_steps (hrecords : (records.map BankRecord.id).Nodup) (hgroups : (groups.map Group.key).Nodup) :
    Steps t records groups Tolerant s.start s.splitGroup :=
  (s.exact_steps.mono fun _ => OfType.tolerant (by decide)).trans (s.middle_steps hrecords hgroups)

theorem after_exact (hrecords : (records.map BankRecord.id).Nodup) (hgroups : (groups.map Group.key).Nodup) :
    Steps t records groups (fun m => m.matchType ≠ .manual) s.exact last :=
  ((s.middle_steps hrecords hgroups).mono fun _ hm => hm.1).trans
    (s.source_steps.mono fun _ => OfType.ne_manual (by decide))

theorem after_splitBank (hgroups : (groups.map Group.key).Nodup) :
    Steps t records groups (fun m => m.matchType ≠ .manual) s.splitBank last :=
  ((s.splitGroup_steps hgroups).mono fun _ => OfType.ne_manual (by decide)).trans
    (s.source_steps.mono fun _ => OfType.ne_manual (by decide))

theorem steps (hrecords : (records.map BankRecord.id).Nodup) (hgroups : (groups.map Group.key).Nodup) :
    Steps t records groups (fun m => m.matchType ≠ .manual) s.start last :=
  (s.exact_steps.mono fun _ => OfType.ne_manual (by decide)).trans (s.after_exact hrecords hgroups)

/-! ### What is left free was rejected -/

theorem exact_rejected {r : BankRecord} {g : Group} (hr : r ∈ records) (hg : g ∈ groups)
    (hrfree : s.exact.freeBank r = true) (hgfree : s.exact.freeGroup g = true) : exactFits t r g = .ok false :=
  pairPass_rejected exactFits_checked (fun _ => And.intro) s.exact_ok hr hg hrfree hgfree

theorem amount_rejected {r : BankRecord} {g : Group} (hr : r ∈ records) (hg : g ∈ groups)
    (hrfree : s.amount.freeBank r = true) (hgfree : s.amount.freeGroup g = true) : amountFits t r g = .ok false :=
  pairPass_rejected amountFits_checked (fun _ => And.intro) s.amount_ok hr hg hrfree hgfree

include s in
theorem source_rejected {r : BankRecord} {g : Group} (hr : r ∈ records) (hg : g ∈ groups)
    (hrfree : last.freeBank r = true) (hgfree : last.freeGroup g = true) : sameSource r g = false := by
  have hrejected := pairPass_rejected (sourceFits_checked (t := t)) (fun _ => And.intro) s.source_ok hr hg hrfree hgfree
  exact Except.ok.inj hrejected

end Steps

end Stages

end GoalReconciliation.Matching

import GoalReconciliation.Proofs.Keys.Decoding
import GoalReconciliation.Proofs.Keys.Spellings
import GoalReconciliation.Proofs.Keys.Sums

/-!
# Groups as a partition of the postings

* `Posting.Lacking` : neither a stored key nor the fields of one; `exists_key_iff` : such a posting has no key;
* `Group.withKey`, `Group.Faulty` : the postings of a key; postings of which one has no key, or differs from the first
  one of its key;
* `Group.buildAll_keyed`, `build_gathered` : postings with keys are built key by key;
* `Group.Partition` : groups that share the postings out among them, and the amounts with them;
* `partition_of_built` : what is built key by key is such;
* `buildAll_partition` : **the groups of postings are a partition of them, unless they are faulty**.
-/

namespace GoalReconciliation

set_option autoImplicit false

open Fallible (bind_eq_ok)

/-! ## Keys of postings -/

/-- A posting without a stored key, and without one of the fields that make one. -/
def Posting.Lacking (p : Posting) : Prop :=
  (p.groupKey = none ∨ p.groupKey = some "") ∧
    (Text.strip p.accountId = "" ∨ Text.strip p.goalId = "" ∨ Text.strip p.sourceId = "" ∨ Text.strip p.channel = "")

instance (p : Posting) : Decidable p.Lacking :=
  inferInstanceAs (Decidable (_ ∧ _))

theorem Posting.exists_key_iff (p : Posting) : (∃ key, p.key = .ok key) ↔ ¬p.Lacking := by
  unfold Posting.key Lacking
  rw [GroupingKey.generate_toText]
  cases hstored : p.groupKey with
  | none => simp [GroupingKey.exists_joined_iff]
  | some key =>
      by_cases hkey : key = ""
      · simp [hkey, GroupingKey.exists_joined_iff]
      · simp [hkey]

def Posting.keyText (p : Posting) : String :=
  p.key.toOption.getD ""

theorem Posting.key_eq {p : Posting} (h : ¬p.Lacking) : p.key = .ok p.keyText := by
  obtain ⟨key, hkey⟩ := p.exists_key_iff.mpr h
  unfold keyText
  rw [hkey]
  rfl

namespace Group

def withKey (key : String) (postings : List Posting) : List Posting :=
  postings.filter fun p => decide (p.key.toOption = some key)

/-- A posting has no key, or differs from the first posting of its key in type, date or source id. -/
def Faulty (postings : List Posting) : Prop :=
  (∃ p ∈ postings, p.Lacking) ∨
    ∃ key first p, (withKey key postings).head? = some first ∧ p ∈ withKey key postings ∧
      (p.transactionType ≠ first.transactionType ∨ p.date ≠ first.date ∨ p.sourceId ≠ first.sourceId)

/-- Postings are of one movement if none differs from the first one. -/
theorem not_oneMovement_iff {postings : List Posting} : ¬OneMovement postings ↔
    ∃ first p, postings.head? = some first ∧ p ∈ postings ∧
      (p.transactionType ≠ first.transactionType ∨ p.date ≠ first.date ∨ p.sourceId ≠ first.sourceId) := by
  cases postings with
  | nil => simp [OneMovement]
  | cons first rest =>
      rw [oneMovement_iff]
      simp only [agrees_iff, List.head?_cons, Option.some.injEq, exists_and_left, exists_eq_left', not_forall]
      simp only [exists_prop, not_and_or, ne_eq]

theorem faulty_iff {postings : List Posting} :
    Faulty postings ↔ (∃ p ∈ postings, p.Lacking) ∨ ∃ key, ¬OneMovement (withKey key postings) := by
  simp only [Faulty, not_oneMovement_iff]

variable {postings : List Posting}

theorem withKey_keyed (hkeyed : ∀ p ∈ postings, ¬p.Lacking) (key : String) :
    withKey key postings = postings.filter fun p => decide (p.keyText = key) := by
  refine List.filter_congr fun p hp => ?_
  rw [Posting.key_eq (hkeyed p hp)]
  simp [Except.toOption]

theorem buildAll_keyed (hkeyed : ∀ p ∈ postings, ¬p.Lacking) :
    buildAll postings = (Assoc.gather Posting.keyText postings).mapM fun pair => build pair.1 pair.2 := by
  unfold buildAll
  rw [gather_keyed fun p hp => Posting.key_eq (hkeyed p hp)]
  rfl

/-- A posting without a key is refused before anything is built. -/
theorem buildAll_lacking (h : ∃ p ∈ postings, p.Lacking) :
    ∃ problem, buildAll postings = .error (.invalid problem) := by
  obtain ⟨p, hp, hlacking⟩ := h
  cases hgather : gather postings with
  | ok keyed =>
      obtain ⟨tagged, htagged, -⟩ := bind_eq_ok.mp hgather
      obtain ⟨pair, -, hpair⟩ := Fallible.mapM_item htagged hp
      obtain ⟨key, hkey, -⟩ := bind_eq_ok.mp hpair
      exact absurd hlacking (p.exists_key_iff.mp ⟨key, hkey⟩)
  | error problem =>
      unfold buildAll
      rw [hgather]
      exact ⟨problem, rfl⟩

/-- Groups that share the postings out among them, and the amounts with them. -/
structure Partition (postings : List Posting) (groups : List Group) : Prop where
  distinct : (groups.map Group.key).Nodup
  inOrder : groups.Pairwise fun g h => (postings.map fun p => p.key.toOption).idxOf (some g.key) <
    (postings.map fun p => p.key.toOption).idxOf (some h.key)
  keys : ∀ key, key ∈ groups.map Group.key ↔ ∃ p ∈ postings, p.key = .ok key
  sums : ∀ g ∈ groups, SumOf (withKey g.key postings) g
  ids : (groups.flatMap Group.postingIds).Perm (postings.map Posting.id)

theorem build_gathered (hkeyed : ∀ p ∈ postings, ¬p.Lacking) (hfits : ∀ key, SumsFit (withKey key postings))
    {pair : String × List Posting} (hpair : pair ∈ Assoc.gather Posting.keyText postings) :
    OneMovement (withKey pair.1 postings) ∧
        (∃ g, build pair.1 pair.2 = .ok g ∧ g.key = pair.1 ∧ SumOf (withKey pair.1 postings) g) ∨
      ¬OneMovement (withKey pair.1 postings) ∧ ∃ problem, build pair.1 pair.2 = .error (.invalid problem) := by
  obtain ⟨hkey, hmembers⟩ := Assoc.mem_gather.mp hpair
  rw [← withKey_keyed hkeyed] at hmembers
  obtain ⟨p, hp, hsame⟩ := List.mem_map.mp hkey
  have hne : withKey pair.1 postings ≠ [] := by
    rw [withKey_keyed hkeyed]
    exact List.ne_nil_of_mem (List.mem_filter.mpr ⟨hp, decide_eq_true hsame⟩)
  rw [hmembers]
  exact build_sumOf pair.1 hne (hfits pair.1)

theorem built_eq {keyed : List (String × List Posting)} {groups : List Group}
    (h : List.Forall₂ (fun pair g => build pair.1 pair.2 = .ok g) keyed groups) :
    groups.map Group.key = keyed.map Prod.fst ∧
      groups.flatMap Group.postingIds = (keyed.flatMap Prod.snd).map Posting.id := by
  induction h with
  | nil => exact ⟨rfl, rfl⟩
  | cons hbuild _ ih =>
      obtain ⟨hkey, hids, -⟩ := build_ok hbuild
      simp [hkey, hids, ih.1, ih.2]

/-- A group that is built is the sum of the postings of its key. -/
theorem sumOf_built (hkeyed : ∀ p ∈ postings, ¬p.Lacking) (hfits : ∀ key, SumsFit (withKey key postings))
    {pair : String × List Posting} (hpair : pair ∈ Assoc.gather Posting.keyText postings) {g : Group}
    (h : build pair.1 pair.2 = .ok g) : SumOf (withKey g.key postings) g := by
  rcases build_gathered hkeyed hfits hpair with ⟨-, built, hbuilt, hkey, hsum⟩ | ⟨-, problem, hinvalid⟩
  · rw [h, Except.ok.injEq] at hbuilt
    rwa [hbuilt, hkey]
  · rw [h] at hinvalid
    cases hinvalid

/-- What is built key by key shares the postings out. -/
theorem partition_of_built (hkeyed : ∀ p ∈ postings, ¬p.Lacking) (hfits : ∀ key, SumsFit (withKey key postings))
    {groups : List Group} (h : buildAll postings = .ok groups) : Partition postings groups := by
  rw [buildAll_keyed hkeyed] at h
  obtain ⟨hkeys, hids⟩ := built_eq (Fallible.mapM_eq_ok.mp h)
  have htexts : (postings.map fun p => p.key.toOption) = (postings.map Posting.keyText).map some := by
    rw [List.map_map]
    refine List.map_congr_left fun p hp => ?_
    rw [Posting.key_eq (hkeyed p hp)]
    rfl
  have hindex : ∀ (texts : List String) (key : String), (texts.map some).idxOf (some key) = texts.idxOf key := by
    intro texts key
    rw [List.idxOf, List.findIdx_map]
    rfl
  rw [Assoc.gather_keys] at hkeys
  refine ⟨?_, ?_, ?_, ?_, ?_⟩
  · rw [hkeys]
    exact Assoc.nodup_distinct _
  · have hordered := Assoc.distinct_inOrder (postings.map Posting.keyText)
    rw [← hkeys, List.pairwise_map] at hordered
    simpa only [htexts, hindex] using hordered
  · intro key
    rw [hkeys, Assoc.mem_distinct, List.mem_map]
    refine exists_congr fun p => and_congr_right fun hp => ?_
    rw [Posting.key_eq (hkeyed p hp), Except.ok.injEq]
  · intro g hg
    obtain ⟨pair, hpair, hbuild⟩ := Fallible.mapM_mem h hg
    exact sumOf_built hkeyed hfits hpair hbuild
  · rw [hids]
    exact (Assoc.gather_perm _ _).map _

/-- Postings of one movement for each key have their groups. -/
theorem buildAll_sound (hfits : ∀ key, SumsFit (withKey key postings)) (h : ¬Faulty postings) :
    ∃ groups, buildAll postings = .ok groups ∧ Partition postings groups := by
  rw [faulty_iff, not_or] at h
  have hkeyed : ∀ p ∈ postings, ¬p.Lacking := fun p hp hlacking => h.1 ⟨p, hp, hlacking⟩
  have hone : ∀ key, OneMovement (withKey key postings) := fun key => not_not.mp fun hnot => h.2 ⟨key, hnot⟩
  obtain ⟨groups, hgroups⟩ : ∃ groups, buildAll postings = .ok groups := by
    rw [buildAll_keyed hkeyed]
    apply Fallible.exists_mapM_ok
    intro pair hpair
    rcases build_gathered hkeyed hfits hpair with ⟨-, g, hbuild, -⟩ | ⟨hnot, -⟩
    · exact ⟨g, hbuild⟩
    · exact absurd (hone pair.1) hnot
  exact ⟨groups, hgroups, partition_of_built hkeyed hfits hgroups⟩

theorem buildAll_faulty (hfits : ∀ key, SumsFit (withKey key postings)) (h : Faulty postings) :
    ∃ problem, buildAll postings = .error (.invalid problem) := by
  by_cases hlacking : ∃ p ∈ postings, p.Lacking
  · exact buildAll_lacking hlacking
  · obtain ⟨key, hnot⟩ := (faulty_iff.mp h).resolve_left hlacking
    have hkeyed : ∀ p ∈ postings, ¬p.Lacking := fun p hp hp' => hlacking ⟨p, hp, hp'⟩
    rw [buildAll_keyed hkeyed]
    cases hbuilt : (Assoc.gather Posting.keyText postings).mapM fun pair => build pair.1 pair.2 with
    | error failure =>
        obtain ⟨pair, hpair, hfails⟩ := Fallible.mapM_error hbuilt
        rcases build_gathered hkeyed hfits hpair with ⟨-, g, hbuild, -⟩ | ⟨-, problem, hinvalid⟩
        · rw [hbuild] at hfails
          cases hfails
        · rw [hinvalid, Except.error.injEq] at hfails
          exact ⟨problem, by rw [← hfails]⟩
    | ok groups =>
        -- The postings of the key are not of one movement, so there are some, and their group is built.
        obtain ⟨first, p, -, hp, -⟩ := not_oneMovement_iff.mp hnot
        have hpair : (key, withKey key postings) ∈ Assoc.gather Posting.keyText postings := by
          rw [withKey_keyed hkeyed] at hp ⊢
          obtain ⟨hmem, hkey⟩ := List.mem_filter.mp hp
          exact Assoc.mem_gather.mpr ⟨List.mem_map.mpr ⟨p, hmem, of_decide_eq_true hkey⟩, rfl⟩
        obtain ⟨g, -, hbuild⟩ := Fallible.mapM_item hbuilt hpair
        exact absurd (build_ok hbuild).2.2 hnot

/-- **Postings whose amounts are finite and add up exactly are built into groups that are a partition of them, unless
one has no key or differs from the first one of its key, in which case they are invalid.** -/
theorem buildAll_partition {postings : List Posting} (hfits : ∀ key, SumsFit (withKey key postings)) :
    ((∃ problem, buildAll postings = .error (.invalid problem)) ↔ Faulty postings) ∧
      (¬Faulty postings → ∃ groups, buildAll postings = .ok groups ∧ Partition postings groups) := by
  refine ⟨⟨?_, buildAll_faulty hfits⟩, buildAll_sound hfits⟩
  rintro ⟨problem, hinvalid⟩
  by_contra hsound
  obtain ⟨groups, hgroups, -⟩ := buildAll_sound hfits hsound
  rw [hgroups] at hinvalid
  cases hinvalid

section Sample

/-- Postings of one movement: two without a stored key, for different instruments, and one with a key of its own. -/
def samplePostings : List Posting :=
  let first : Posting :=
    { id := "LP1", goalId := "G1", accountId := "256-774", sourceId := "TX1", channel := "BANK",
      givenInstrument := .word .moneyMarket, givenType := .word .deposit, date := ⟨2024, 3, 1, by decide⟩,
      amount := .finite false 60000 (-2) }
  [first, { first with id := "LP2", groupKey := some "K" },
    { first with id := "LP3", givenInstrument := .word .bond, amount := .finite false 40000 (-2) }]

theorem samplePostings_fit (key : String) : SumsFit (withKey key samplePostings) := by
  have hexact : Decimal.ExactSums (samplePostings.map Posting.amount) :=
    Decimal.exactSums_of_units (show Decimal.minExponent ≤ -2 by decide) (by decide) (by decide) (by decide)
  exact sumsFit_of_exactSums (hexact.sublist (List.filter_sublist.map _))

theorem samplePostings_sound : ¬Faulty samplePostings := by
  have hkeyed : ∀ p ∈ samplePostings, ¬p.Lacking := by decide
  have hone : OneMovement samplePostings := by decide
  rw [faulty_iff]
  rintro (⟨p, hp, hlacking⟩ | ⟨key, hnot⟩)
  · exact hkeyed p hp hlacking
  · exact hnot fun p hp q hq => hone p (List.mem_filter.mp hp).1 q (List.mem_filter.mp hq).1

/-- The three postings have their groups. -/
theorem buildAll_partition_sample :
    ∃ groups, buildAll samplePostings = .ok groups ∧ Partition samplePostings groups :=
  (buildAll_partition samplePostings_fit).2 samplePostings_sound

end Sample

end Group

end GoalReconciliation

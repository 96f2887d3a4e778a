import GoalReconciliation.Proofs.Operations.Overtaking
import GoalReconciliation.Proofs.Store.Tables
import GoalReconciliation.Proofs.Tolerance

/-!
# What an operator can match

* `Store.selected`, `Store.posted` : the records and the postings of a selection, each of them once;
* `ManualMatch.Agrees` : the totals of the two sides agree, up to the allowance as it is rounded; `agrees_iff_of_fits` :
  where nothing is rounded, the exact distance is within the exact allowance;
* `ManualMatch.Matchable` : all that a selection needs to be matched;
* `create_cases` : a selection that can be matched is, and one that cannot be is refused;
* `create_iff_matchable` : **a match is made just of a selection that can be matched, and marks just its records**;
* `create_beyond_exact` : a selection that is matched because its allowance is rounded up.
-/

namespace GoalReconciliation

set_option autoImplicit false

open Decimal (ExactSums Fits Rounds total)
open Fallible (bind_eq_ok exists_bind_ok pure_eq_ok)
open Store (keyOf)

theorem Assoc.distinct_eq_singleton {κ : Type} [DecidableEq κ] {ks : List κ} {k : κ} :
    distinct ks = [k] ↔ ks ≠ [] ∧ ∀ x ∈ ks, x = k := by
  constructor
  · intro h
    refine ⟨?_, fun x hx => ?_⟩
    · rintro rfl
      cases h
    · rwa [← mem_distinct, h, List.mem_singleton] at hx
  · rintro ⟨hne, hall⟩
    have hsub : distinct ks ⊆ [k] := fun x hx => List.mem_singleton.mpr (hall x (mem_distinct.mp hx))
    have hlength := ((nodup_distinct ks).subperm hsub).length_le
    obtain ⟨x, hx⟩ := List.exists_mem_of_ne_nil ks hne
    cases hdistinct : distinct ks with
    | nil =>
        have hmem := mem_distinct.mpr hx
        rw [hdistinct] at hmem
        cases hmem
    | cons y rest =>
        rw [hdistinct] at hlength hsub
        obtain rfl : rest = [] := List.eq_nil_of_length_eq_zero (by simpa using hlength)
        exact congrArg (· :: []) (List.mem_singleton.mp (hsub List.mem_cons_self))

/-! ## Selections -/

namespace Store

def selected (s : Store) (ids : List String) : List BankRecord :=
  s.bank.filter fun r => decide (r.id ∈ ids)

def posted (s : Store) (keys : List String) : List Posting :=
  s.ledger.filter fun p => decide (keyOf p ∈ keys)

variable {s : Store}

theorem mem_selected {ids : List String} {r : BankRecord} : r ∈ s.selected ids ↔ r ∈ s.bank ∧ r.id ∈ ids := by
  rw [selected, List.mem_filter, decide_eq_true_iff]

theorem selected_distinct (s : Store) (ids : List String) : s.selected (Assoc.distinct ids) = s.selected ids :=
  List.filter_congr fun _ _ => decide_eq_decide.mpr Assoc.mem_distinct

theorem posted_distinct (s : Store) (keys : List String) : s.posted (Assoc.distinct keys) = s.posted keys :=
  List.filter_congr fun _ _ => decide_eq_decide.mpr Assoc.mem_distinct

theorem bankById_perm (hs : (s.bank.map BankRecord.id).Nodup) (ids : List String) :
    (s.bankById ids).Perm (s.selected ids) := by
  refine (List.perm_ext_iff_of_nodup (s.nodup_bankById ids).of_map (hs.of_map.filter _)).mpr fun r => ?_
  rw [mem_bankById_iff hs]
  exact mem_selected.symm

theorem postingsByKey_perm (keys : List String) : (s.postingsByKey keys).Perm (s.posted keys) := by
  refine (Sorting.newestFirst_perm _ _ _).trans (List.Perm.of_eq (List.filter_congr fun p _ => ?_))
  rw [Bool.eq_iff_iff, List.contains_iff_mem, decide_eq_true_iff]

end Store

namespace ManualMatch

variable {t : Tolerance}

/-! ## Totals that agree -/

/-- The distance of the totals is at most the allowance around the bank total, both of them rounded. -/
def Agrees (t : Tolerance) (bank postings : ℚ) : Prop :=
  ∃ distance share, Rounds (bank - postings) distance ∧ Rounds (|bank| * t.manualShare.value) share ∧
    |distance.value| ≤ max share.value t.manualFloor.value

/-- Where nothing is rounded, totals agree if their exact distance is at most the exact allowance. -/
theorem agrees_iff_of_fits {bank postings : ℚ} (hdistance : Fits (bank - postings))
    (hshare : Fits (|bank| * t.manualShare.value)) :
    Agrees t bank postings ↔ |bank - postings| ≤ max (|bank| * t.manualShare.value) t.manualFloor.value := by
  obtain ⟨d, hd, hdvalue⟩ := Decimal.rounds_of_fits hdistance
  obtain ⟨e, he, hevalue⟩ := Decimal.rounds_of_fits hshare
  constructor
  · rintro ⟨d', e', hd', he', hle⟩
    rwa [hd'.value_eq hd, he'.value_eq he, hdvalue.2, hevalue.2] at hle
  · intro hle
    exact ⟨d, e, hd, he, by rwa [hdvalue.2, hevalue.2]⟩

variable {records : List BankRecord} {postings : List Posting}

/-- The totals pass their check just if they agree. -/
theorem checkTotals_iff (hshare : t.manualShare.isFinite = true) (hfloor : t.manualFloor.isFinite = true)
    (hrecords : ExactSums (records.map BankRecord.amount)) (hpostings : ExactSums (postings.map Posting.amount)) :
    (∃ totals, checkTotals t records postings = .ok totals) ↔
      Agrees t (total (records.map BankRecord.amount)) (total (postings.map Posting.amount)) := by
  obtain ⟨bank, hbank, hbankWorth⟩ := Decimal.sum_exact hrecords
  obtain ⟨ledger, hledger, hledgerWorth⟩ := Decimal.sum_exact hpostings
  have hfits := hrecords.fits _ (List.Sublist.refl _)
  have hshareWorth := Decimal.worth_value hshare
  have hfloorWorth := Decimal.worth_value hfloor
  unfold checkTotals
  constructor
  · rintro ⟨totals, h⟩
    obtain ⟨bank', hbank', h⟩ := bind_eq_ok.mp h
    obtain rfl := Except.ok.inj (hbank.symm.trans (Failure.lift_fault_ok.mp hbank'))
    obtain ⟨ledger', hledger', h⟩ := bind_eq_ok.mp h
    obtain rfl := Except.ok.inj (hledger.symm.trans (Failure.lift_fault_ok.mp hledger'))
    obtain ⟨distance, hdistance, h⟩ := bind_eq_ok.mp h
    obtain ⟨allowance, hallowance, h⟩ := bind_eq_ok.mp h
    obtain ⟨beyond, hbeyond, h⟩ := bind_eq_ok.mp h
    obtain ⟨d, hd, hdistanceWorth⟩ :=
      Tolerance.distance_ok hbankWorth hledgerWorth (Failure.lift_fault_ok.mp hdistance)
    obtain ⟨e, he, hallowanceWorth⟩ :=
      Tolerance.allowanceOf_ok hbankWorth hfits hshareWorth hfloorWorth (Failure.lift_fault_ok.mp hallowance)
    have hlt := Failure.lift_fault_ok.mp hbeyond
    rw [Decimal.lt_of_worth hallowanceWorth hdistanceWorth, Except.ok.injEq] at hlt
    cases beyond with
    | true => cases h
    | false => exact ⟨d, e, hd, he, not_lt.mp (of_decide_eq_false hlt)⟩
  · rintro ⟨d, e, hd, he, hle⟩
    obtain ⟨distance, hdistance, hdistanceWorth⟩ := Tolerance.distance_of_rounds hbankWorth hledgerWorth hd
    obtain ⟨allowance, hallowance, hallowanceWorth⟩ :=
      Tolerance.allowanceOf_of_rounds hbankWorth hfits hshareWorth hfloorWorth he
    have hbeyond := Decimal.lt_of_worth hallowanceWorth hdistanceWorth
    rw [decide_eq_false (not_lt.mpr hle)] at hbeyond
    refine exists_bind_ok (Failure.lift_fault_ok.mpr hbank) (exists_bind_ok (Failure.lift_fault_ok.mpr hledger)
      (exists_bind_ok (Failure.lift_fault_ok.mpr hdistance) (exists_bind_ok (Failure.lift_fault_ok.mpr hallowance)
        (exists_bind_ok (Failure.lift_fault_ok.mpr hbeyond) ⟨_, rfl⟩))))

/-! ## What a selection needs -/

theorem oneGoal_iff {goal : String} (hsome : records ≠ []) :
    oneGoal records postings = .ok goal ↔
      (∀ r ∈ records, r.goalId = goal) ∧ ∀ p ∈ postings, p.goalId = goal := by
  have hdistinct : oneGoal records postings = .ok goal ↔
      Assoc.distinct (records.map BankRecord.goalId ++ postings.map Posting.goalId) = [goal] := by
    unfold oneGoal
    split
    · rename_i single hsingle
      rw [hsingle, Except.ok.injEq, List.cons.injEq, and_iff_left rfl]
    · rename_i hseveral
      exact ⟨fun h => (nomatch h), fun h => absurd h (hseveral goal)⟩
  rw [hdistinct, Assoc.distinct_eq_singleton]
  simp [hsome, or_imp, forall_and]

/-- A selection is one that can be matched: its records and postings have one goal, no operator has matched the records,
and the totals agree. -/
theorem checkSelection_iff (hshare : t.manualShare.isFinite = true) (hfloor : t.manualFloor.isFinite = true)
    (hsome : records ≠ []) (hrecords : ExactSums (records.map BankRecord.amount))
    (hpostings : ExactSums (postings.map Posting.amount)) (now : Timestamp) (actor : String)
    (bankIds groupKeys : List String) :
    (∃ m, checkSelection t now actor bankIds groupKeys records postings = .ok m) ↔
      (∃ goal, (∀ r ∈ records, r.goalId = goal) ∧ ∀ p ∈ postings, p.goalId = goal) ∧
        (∀ r ∈ records, r.hasManualMatch = false) ∧
          Agrees t (total (records.map BankRecord.amount)) (total (postings.map Posting.amount)) := by
  constructor
  · rintro ⟨m, h⟩
    obtain ⟨goal, totals, hgoal, hfree, htotals, -⟩ := checkSelection_eq_ok.mp h
    exact ⟨⟨goal, (oneGoal_iff hsome).mp hgoal⟩, hfree,
      (checkTotals_iff hshare hfloor hrecords hpostings).mp ⟨totals, htotals⟩⟩
  · rintro ⟨⟨goal, hgoal⟩, hfree, hagrees⟩
    obtain ⟨totals, htotals⟩ := (checkTotals_iff hshare hfloor hrecords hpostings).mpr hagrees
    exact ⟨_, checkSelection_eq_ok.mpr ⟨goal, totals, (oneGoal_iff hsome).mpr hgoal, hfree, htotals, rfl⟩⟩

/-- All that a selection needs to be matched. -/
structure Matchable (t : Tolerance) (s : Store) (bankIds groupKeys : List String) : Prop where
  records : bankIds ≠ []
  groups : groupKeys ≠ []
  known : ∀ id ∈ bankIds, ∃ r ∈ s.bank, r.id = id
  posted : ∀ key ∈ groupKeys, ∃ p ∈ s.ledger, keyOf p = key
  oneGoal : ∃ goal, (∀ r ∈ s.selected bankIds, r.goalId = goal) ∧ ∀ p ∈ s.posted groupKeys, p.goalId = goal
  free : ∀ r ∈ s.selected bankIds, r.hasManualMatch = false
  agrees : Agrees t (total ((s.selected bankIds).map BankRecord.amount))
    (total ((s.posted groupKeys).map Posting.amount))

end ManualMatch

/-! ## What is named -/

section Named

open Memory (under)

variable {m : Memory}

theorem firstMissing?_eq_none {names found : List String} : firstMissing? names found = none ↔ names ⊆ found := by
  simp [firstMissing?, List.find?_eq_none, List.subset_def]

theorem effect_needRecords_cases {faults : Option Faults} (hs : (m.store.bank.map BankRecord.id).Nodup)
    (ids : List String) :
    (∀ id ∈ ids, ∃ r ∈ m.store.bank, r.id = id) ∧
        (under faults).effect (needRecords ids) m = (.ok (m.store.bankById ids), m) ∨
      (¬∀ id ∈ ids, ∃ r ∈ m.store.bank, r.id = id) ∧
        ∃ failure, (under faults).effect (needRecords ids) m = (.error failure, m) := by
  have hquery : (under faults).effect (Procedure.bankById ids) m = (.ok (m.store.bankById ids), m) :=
    Memory.effect_query (fun _ _ => rfl) m
  have hfound : ids ⊆ (m.store.bankById ids).map BankRecord.id ↔ ∀ id ∈ ids, ∃ r ∈ m.store.bank, r.id = id := by
    refine forall₂_congr fun id hid => ?_
    rw [List.mem_map]
    refine exists_congr fun r => ⟨fun h => ⟨?_, h.2⟩, fun h => ⟨?_, h.2⟩⟩
    · exact ((Store.mem_bankById_iff hs).mp h.1).1
    · exact (Store.mem_bankById_iff hs).mpr ⟨h.1, h.2 ▸ hid⟩
  unfold needRecords
  rw [Repository.effect_bind hquery, ← hfound, ← firstMissing?_eq_none]
  cases firstMissing? ids ((m.store.bankById ids).map BankRecord.id) with
  | none => exact .inl ⟨rfl, rfl⟩
  | some id => exact .inr ⟨fun h => (nomatch h), _, rfl⟩

theorem effect_needPostings_cases (hs : m.store.Sound) (keys : List String) :
    (∀ key ∈ keys, ∃ p ∈ m.store.ledger, keyOf p = key) ∧
        (under none).effect (needPostings keys) m = (.ok (m.store.postingsByKey keys), m) ∨
      (¬∀ key ∈ keys, ∃ p ∈ m.store.ledger, keyOf p = key) ∧
        ∃ failure, (under none).effect (needPostings keys) m = (.error failure, m) := by
  have hquery : (under none).effect (Procedure.postingsByKey keys) m = (.ok (m.store.postingsByKey keys), m) :=
    Memory.effect_query (fun _ _ => rfl) m
  have hfound : keys ⊆ (m.store.postingsByKey keys).filterMap Posting.groupKey ↔
      ∀ key ∈ keys, ∃ p ∈ m.store.ledger, keyOf p = key := by
    refine forall₂_congr fun key hkey => ?_
    rw [List.mem_filterMap]
    refine exists_congr fun p => ⟨fun h => ?_, fun h => ?_⟩
    · obtain ⟨hmem, -⟩ := Store.mem_postingsByKeys.mp h.1
      have hstored := (hs.keyed p hmem).2.symm.trans h.2
      exact ⟨hmem, Option.some.inj hstored⟩
    · exact ⟨Store.mem_postingsByKeys.mpr ⟨h.1, h.2 ▸ hkey⟩, h.2 ▸ (hs.keyed p h.1).2⟩
  unfold needPostings
  rw [Repository.effect_bind hquery, ← hfound, ← firstMissing?_eq_none]
  cases firstMissing? keys ((m.store.postingsByKey keys).filterMap Posting.groupKey) with
  | none => exact .inl ⟨rfl, rfl⟩
  | some key => exact .inr ⟨fun h => (nomatch h), _, rfl⟩

end Named

namespace ManualMatch

open Memory (under)

variable {t : Tolerance} {m : Memory}

theorem store_markAll {s : Store} (hs : (s.bank.map BankRecord.id).Nodup) {made : ManualMatch} {ids : List String}
    (hids : made.bankIds = Assoc.distinct ids) (hknown : ∀ id ∈ ids, ∃ r ∈ s.bank, r.id = id) (now : Timestamp) :
    (made.markAll now (s.bankById (Assoc.distinct ids))).foldl Store.putBank s =
      { s with bank := s.bank.map fun r => if r.id ∈ ids then r.mark made.reference 100 .matched now else r } := by
  have hmem : ∀ id, id ∈ made.bankIds ↔ id ∈ ids := fun id => by rw [hids, Assoc.mem_distinct]
  have hfind : ∀ r ∈ s.bank, r.id ∈ ids →
      (s.bankById (Assoc.distinct ids)).find? (fun x => decide (x.id = r.id)) = some r := fun r hr hid =>
    (Lookup.find?_eq_some_iff (s.nodup_bankById _)).mpr
      ⟨(Store.mem_bankById_iff hs).mpr ⟨hr, Assoc.mem_distinct.mpr hid⟩, rfl⟩
  have hnames : (made.markAll now (s.bankById (Assoc.distinct ids))).map BankRecord.id = made.bankIds := by
    refine markAll_ids fun id hid => ?_
    obtain ⟨r, hr, rfl⟩ := hknown id ((hmem id).mp hid)
    exact List.mem_map_of_mem (List.mem_of_find?_eq_some (hfind r hr ((hmem r.id).mp hid)))
  have hwritten : ∀ w ∈ made.markAll now (s.bankById (Assoc.distinct ids)), w.id ∈ ids := fun w hw =>
    (hmem w.id).mp (hnames ▸ List.mem_map_of_mem hw)
  have honce : ((made.markAll now (s.bankById (Assoc.distinct ids))).map BankRecord.id).Nodup := by
    rw [hnames, hids]
    exact Assoc.nodup_distinct ids
  have hbank : ((made.markAll now (s.bankById (Assoc.distinct ids))).foldl Store.putBank s).bank =
      s.bank.map fun r => if r.id ∈ ids then r.mark made.reference 100 .matched now else r := by
    rw [Store.bank_foldl_putBank hs honce fun w hw => by
      obtain ⟨r, hr, hid⟩ := hknown w.id (hwritten w hw)
      exact hid ▸ List.mem_map_of_mem hr]
    refine List.map_congr_left fun r hr => ?_
    split
    · rename_i hid
      have hmarked : r.mark made.reference 100 .matched now ∈ made.markAll now (s.bankById (Assoc.distinct ids)) :=
        List.mem_filterMap.mpr ⟨r.id, (hmem r.id).mpr hid, by rw [hfind r hr hid]; rfl⟩
      have hfound : (made.markAll now (s.bankById (Assoc.distinct ids))).find? (fun w => decide (w.id = r.id)) =
          some (r.mark made.reference 100 .matched now) := (Lookup.find?_eq_some_iff honce).mpr ⟨hmarked, rfl⟩
      rw [hfound]
      rfl
    · rename_i hid
      rw [List.find?_eq_none.mpr fun w hw => by
        simpa using fun hsame : w.id = r.id => hid (hsame ▸ hwritten w hw)]
      rfl
  calc (made.markAll now (s.bankById (Assoc.distinct ids))).foldl Store.putBank s
      = ⟨((made.markAll now (s.bankById (Assoc.distinct ids))).foldl Store.putBank s).bank,
          ((made.markAll now (s.bankById (Assoc.distinct ids))).foldl Store.putBank s).ledger⟩ := rfl
    _ = _ := by rw [hbank, Store.ledger_foldl_putBank]

/-- What is found of a selection can be matched just if the selection can. -/
theorem checkSelection_found (hs : m.store.Sound) {bankIds groupKeys : List String} (hids : bankIds ≠ [])
    (hkeys : groupKeys ≠ []) (hknown : ∀ id ∈ bankIds, ∃ r ∈ m.store.bank, r.id = id)
    (hposted : ∀ key ∈ groupKeys, ∃ p ∈ m.store.ledger, keyOf p = key)
    (hrecords : ExactSums ((m.store.selected bankIds).map BankRecord.amount))
    (hpostings : ExactSums ((m.store.posted groupKeys).map Posting.amount))
    (hshare : t.manualShare.isFinite = true) (hfloor : t.manualFloor.isFinite = true) (now : Timestamp)
    (actor : String) :
    (∃ made, checkSelection t now actor (Assoc.distinct bankIds) (Assoc.distinct groupKeys)
        (m.store.bankById (Assoc.distinct bankIds)) (m.store.postingsByKey (Assoc.distinct groupKeys)) = .ok made) ↔
      Matchable t m.store bankIds groupKeys := by
  have hbank := Store.selected_distinct m.store bankIds ▸ Store.bankById_perm hs.bank_once (Assoc.distinct bankIds)
  have hledger := Store.posted_distinct m.store groupKeys ▸ m.store.postingsByKey_perm (Assoc.distinct groupKeys)
  have hsome : m.store.bankById (Assoc.distinct bankIds) ≠ [] := by
    obtain ⟨id, hid⟩ := List.exists_mem_of_ne_nil bankIds hids
    obtain ⟨r, hr, rfl⟩ := hknown id hid
    exact List.ne_nil_of_mem (hbank.symm.subset (Store.mem_selected.mpr ⟨hr, hid⟩))
  rw [checkSelection_iff hshare hfloor hsome (hrecords.subperm (hbank.map _).subperm)
    (hpostings.subperm (hledger.map _).subperm), Decimal.total_perm (hbank.map _), Decimal.total_perm (hledger.map _)]
  constructor
  · rintro ⟨⟨goal, hgoal, hgoal'⟩, hfree, hagrees⟩
    exact ⟨hids, hkeys, hknown, hposted, ⟨goal, fun r hr => hgoal r (hbank.symm.subset hr),
      fun p hp => hgoal' p (hledger.symm.subset hp)⟩, fun r hr => hfree r (hbank.symm.subset hr), hagrees⟩
  · intro h
    obtain ⟨goal, hgoal, hgoal'⟩ := h.oneGoal
    exact ⟨⟨goal, fun r hr => hgoal r (hbank.subset hr), fun p hp => hgoal' p (hledger.subset hp)⟩,
      fun r hr => h.free r (hbank.subset hr), h.agrees⟩

/-- A selection that can be matched is, and one that cannot be is refused. -/
theorem create_cases (hs : m.store.Sound) {bankIds groupKeys : List String}
    (hrecords : ExactSums ((m.store.selected bankIds).map BankRecord.amount))
    (hpostings : ExactSums ((m.store.posted groupKeys).map Posting.amount))
    (hshare : t.manualShare.isFinite = true) (hfloor : t.manualFloor.isFinite = true) (now : Timestamp)
    (actor : String) :
    (Matchable t m.store bankIds groupKeys ∧
        ∃ made m', (under none).effect (create t now bankIds groupKeys actor) m = (.ok made, m') ∧
          m'.store = { m.store with bank := m.store.bank.map fun r =>
            if r.id ∈ bankIds then r.mark ⟨.manual, Assoc.distinct groupKeys, actor, some now⟩ 100 .matched now
            else r }) ∨
      ¬Matchable t m.store bankIds groupKeys ∧
        ∃ failure m', (under none).effect (create t now bankIds groupKeys actor) m = (.error failure, m') := by
  have hempty : ∀ xs : List String, (Assoc.distinct xs).isEmpty = true ↔ xs = [] := fun xs => by
    rw [List.isEmpty_iff, List.eq_nil_iff_forall_not_mem, List.eq_nil_iff_forall_not_mem]
    exact forall_congr' fun x => not_congr Assoc.mem_distinct
  unfold create
  simp only []
  split
  · rename_i hnone
    rw [Bool.or_eq_true, hempty, hempty] at hnone
    exact .inr ⟨fun h => hnone.elim h.records h.groups, _, _, rfl⟩
  rename_i hsome
  rw [Bool.or_eq_true, hempty, hempty, not_or] at hsome
  obtain ⟨hknown, hnamed⟩ | ⟨hunknown, failure, hfailed⟩ :=
    effect_needRecords_cases hs.bank_once (Assoc.distinct bankIds)
  swap
  · rw [Repository.effect_bind_error hfailed]
    exact .inr ⟨fun h => hunknown fun id hid => h.known id (Assoc.mem_distinct.mp hid), _, _, rfl⟩
  obtain ⟨hposted, hnamedPostings⟩ | ⟨hunknown, failure, hfailed⟩ :=
    effect_needPostings_cases hs (Assoc.distinct groupKeys)
  swap
  · rw [Repository.effect_bind hnamed, Repository.effect_bind_error hfailed]
    exact .inr ⟨fun h => hunknown fun key hkey => h.posted key (Assoc.mem_distinct.mp hkey), _, _, rfl⟩
  have hknown : ∀ id ∈ bankIds, ∃ r ∈ m.store.bank, r.id = id := fun id hid => hknown id (Assoc.mem_distinct.mpr hid)
  have hposted : ∀ key ∈ groupKeys, ∃ p ∈ m.store.ledger, keyOf p = key := fun key hkey =>
    hposted key (Assoc.mem_distinct.mpr hkey)
  have hcheck := checkSelection_found hs hsome.1 hsome.2 hknown hposted hrecords hpostings hshare hfloor now actor
  rw [Repository.effect_bind hnamed, Repository.effect_bind hnamedPostings, ← hcheck]
  cases hm : checkSelection t now actor (Assoc.distinct bankIds) (Assoc.distinct groupKeys)
    (m.store.bankById (Assoc.distinct bankIds)) (m.store.postingsByKey (Assoc.distinct groupKeys)) with
  | error failure => exact .inr ⟨fun ⟨_, h⟩ => (nomatch h), failure, m, rfl⟩
  | ok made =>
      let written := made.markAll now (m.store.bankById (Assoc.distinct bankIds))
      obtain ⟨hsaved, hstore⟩ := Memory.saveAll_bank_fine written m
      have heffect : (under none).effect (Procedure.saveAll [.bank written]) m =
          (.ok (), ((under none).answer (.saveAll [.bank written]) m).2) := Prod.ext hsaved rfl
      refine .inl ⟨⟨made, rfl⟩, made, _, Repository.effect_bind heffect, hstore.trans ?_⟩
      obtain ⟨goal, totals, -, -, -, rfl⟩ := checkSelection_eq_ok.mp hm
      exact store_markAll hs.bank_once rfl hknown now

/-- **A match is made just of a selection that can be matched.** In a store in which nothing fails, an operator's match
succeeds if and only if ids and groups are named, all of them are known, the records and postings belong to one goal, no
operator has matched one of the records, and the totals agree, each record and each posting counted once however often
it is named. What then differs in the store is that each of these records has the operator's link to the groups, each
group in the place where it is named first. -/
theorem create_iff_matchable {t : Tolerance} (hshare : t.manualShare.isFinite = true)
    (hfloor : t.manualFloor.isFinite = true) {m : Memory} (hs : m.store.Sound) {bankIds groupKeys : List String}
    (hrecords : ExactSums ((m.store.selected bankIds).map BankRecord.amount))
    (hpostings : ExactSums ((m.store.posted groupKeys).map Posting.amount)) (now : Timestamp) (actor : String) :
    ((∃ made, (Memory.repository.run (create t now bankIds groupKeys actor) m).outcome = .ok made) ↔
        Matchable t m.store bankIds groupKeys) ∧
      ∀ made, (Memory.repository.run (create t now bankIds groupKeys actor) m).outcome = .ok made →
        (Memory.repository.run (create t now bankIds groupKeys actor) m).state.store =
          { m.store with bank := m.store.bank.map fun r =>
              if r.id ∈ bankIds then
                { r with
                  reference := some ⟨.manual, Assoc.distinct groupKeys, actor, some now⟩
                  matchedAt := some now
                  score := some 100
                  status := .matched }
              else r } := by
  obtain ⟨hmatchable, made, m', heffect, hstore⟩ | ⟨hnot, failure, m', heffect⟩ :=
    create_cases hs hrecords hpostings hshare hfloor now actor
  · obtain ⟨houtcome, rfl⟩ := Prod.mk.inj heffect
    exact ⟨⟨fun _ => hmatchable, fun _ => ⟨made, houtcome⟩⟩, fun _ _ => hstore⟩
  · obtain ⟨houtcome, rfl⟩ := Prod.mk.inj heffect
    have hfailed : ∀ made, (Memory.repository.run (create t now bankIds groupKeys actor) m).outcome ≠ .ok made :=
      fun made h => nomatch houtcome.symm.trans h
    exact ⟨⟨fun ⟨made, h⟩ => absurd h (hfailed made), fun h => absurd h hnot⟩, fun made h => absurd h (hfailed made)⟩

end ManualMatch

namespace Sample

/-- A record, and a posting whose amount differs from the record's just by the allowance. -/
def atLimit : Store :=
  { bank := [record "paired" "s1" 100], ledger := [posting "p1" "a" "s1" 99] }

/-- A record, and a posting whose amount differs by more than the exact allowance, but not by more than the rounded
one. -/
def pastLimit : Store :=
  { bank := [record "paired" "s1" 111]
    ledger := [{ posting "p1" "a" "s1" 0 with amount := .finite false 1098899999999999999999999999 (-25) }] }

def longShare : Tolerance :=
  { manualShare := .finite false 100000000000000000000000009 (-28) }

def matchedAt : Timestamp :=
  ⟨day, 12, 0, 0, 0, some 0⟩

theorem atLimit_matchable : ManualMatch.Matchable {} atLimit ["paired", "paired"] ["a", "a"] where
  records := by decide
  groups := by decide
  known := by decide +kernel
  posted := by decide +kernel
  oneGoal := ⟨"goal", by decide +kernel, by decide +kernel⟩
  free := by decide +kernel
  agrees := by
    have hbank : atLimit.selected ["paired", "paired"] = [record "paired" "s1" 100] := by decide +kernel
    have hledger : atLimit.posted ["a", "a"] = [posting "p1" "a" "s1" 99] := by decide +kernel
    have hone : Fits 1 := ⟨1, 0, by decide, by decide, by decide, by simp⟩
    rw [hbank, hledger, ManualMatch.agrees_iff_of_fits]
    all_goals norm_num [record, posting, Decimal.value, Decimal.signed, hone]

end Sample

/-- A selection whose totals differ just by the allowance is matched, also if its id and its group are named twice. -/
theorem create_iff_matchable_sample :
    Sample.atLimit.Sound ∧
      ExactSums ((Sample.atLimit.selected ["paired", "paired"]).map BankRecord.amount) ∧
      ExactSums ((Sample.atLimit.posted ["a", "a"]).map Posting.amount) ∧
      ∃ made, (Memory.repository.run (ManualMatch.create {} Sample.matchedAt ["paired", "paired"] ["a", "a"] "operator")
          (.ofStore Sample.atLimit)).outcome = .ok made ∧
        (Memory.repository.run (ManualMatch.create {} Sample.matchedAt ["paired", "paired"] ["a", "a"] "operator")
          (.ofStore Sample.atLimit)).state.store.bank.map BankRecord.reference =
            [some ⟨.manual, ["a"], "operator", some Sample.matchedAt⟩] := by
  have hsound : Sample.atLimit.Sound := ⟨by decide, by decide, by decide +kernel⟩
  have hbank : ExactSums ((Sample.atLimit.selected ["paired", "paired"]).map BankRecord.amount) :=
    Decimal.exactSums_of_units (by decide : Decimal.minExponent ≤ 0) (by decide) (by decide +kernel) (by decide +kernel)
  have hledger : ExactSums ((Sample.atLimit.posted ["a", "a"]).map Posting.amount) :=
    Decimal.exactSums_of_units (by decide : Decimal.minExponent ≤ 0) (by decide) (by decide +kernel) (by decide +kernel)
  obtain ⟨hiff, hstore⟩ := ManualMatch.create_iff_matchable (t := {}) rfl rfl
    (m := .ofStore Sample.atLimit) hsound hbank hledger Sample.matchedAt "operator"
  obtain ⟨made, hmade⟩ := hiff.mpr Sample.atLimit_matchable
  refine ⟨hsound, hbank, hledger, made, hmade, ?_⟩
  rw [hstore made hmade]
  decide +kernel

/-- Totals that differ by more than the exact allowance are matched where the allowance is rounded up. -/
theorem create_beyond_exact :
    Sample.pastLimit.Sound ∧
      ExactSums ((Sample.pastLimit.selected ["paired"]).map BankRecord.amount) ∧
      ExactSums ((Sample.pastLimit.posted ["a"]).map Posting.amount) ∧
      (Memory.repository.run (ManualMatch.create Sample.longShare Sample.matchedAt ["paired"] ["a"] "operator")
        (.ofStore Sample.pastLimit)).outcome.toBool = true ∧
      max (|total ((Sample.pastLimit.selected ["paired"]).map BankRecord.amount)| * Sample.longShare.manualShare.value)
          Sample.longShare.manualFloor.value <
        |total ((Sample.pastLimit.selected ["paired"]).map BankRecord.amount) -
          total ((Sample.pastLimit.posted ["a"]).map Posting.amount)| := by
  have hbank : Sample.pastLimit.selected ["paired"] = [Sample.record "paired" "s1" 111] := by decide +kernel
  have hledger : Sample.pastLimit.posted ["a"] = Sample.pastLimit.ledger := by decide +kernel
  refine ⟨⟨by decide, by decide, by decide +kernel⟩,
    Decimal.exactSums_of_units (by decide : Decimal.minExponent ≤ 0) (by decide) (by decide +kernel) (by decide +kernel),
    Decimal.exactSums_of_units (by decide : Decimal.minExponent ≤ -25) (by decide) (by decide +kernel)
      (by decide +kernel), by decide +kernel, ?_⟩
  rw [hbank, hledger]
  norm_num [Sample.pastLimit, Sample.longShare, Sample.record, Decimal.value, Decimal.signed]

end GoalReconciliation

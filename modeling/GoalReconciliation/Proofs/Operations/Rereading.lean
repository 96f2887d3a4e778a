import GoalReconciliation.ManualMatch
import GoalReconciliation.Proofs.Operations.Writes
import GoalReconciliation.Proofs.Run.Rereading
import GoalReconciliation.Reversal

/-!
# Operators' operations on records that are read again

* `Reordered` : selected records as a database gives them, possibly in another order;
* `needRecords_parallels`, `needPostings_parallels` : what an operation names is found on both sides, or missing on
  both;
* `Steady` : selected records whose amounts add up to one sum in the order of the selection and in the order of the ids;
* `Tagging.apply_parallels`, `ManualMatch.create_parallels`, `ManualMatch.remove_parallels`, `Reversal.link_parallels`,
  `Reversal.unlink_parallels`, `Reversal.candidates_parallels`, `Reversal.partner_parallels` : **the operators'
  operations do the same on a store and on a database**.
-/

namespace GoalReconciliation

set_option autoImplicit false

open Fallible (Alike)
open Procedure (Parallels parallels_pure parallels_throw parallels_lift parallels_query parallels_saveAll
  parallels_report)

variable {prices : List (String × Decimal)}

/-! ## What an operation names -/

theorem Sorting.ascending_perm {xs ys : List String} (h : xs.Perm ys) : ascending xs = ascending ys := by
  have hsame : (ascending xs).Perm (ascending ys) := (byText_perm id xs).trans (h.trans (byText_perm id ys).symm)
  exact hsame.eq_of_pairwise (fun _ _ _ _ => String.le_antisymm) (byText_sorted xs) (byText_sorted ys)

/-- Records as they are read again, possibly in another order. -/
structure Reordered (prices : List (String × Decimal)) (records others : List BankRecord) : Prop where
  once : (records.map BankRecord.id).Nodup
  fits : ∀ r ∈ records, r.FitsRow ∧ r.price ∈ prices
  perm : ∃ same : List BankRecord, same.Perm records ∧ others = same.map BankRecord.reread

namespace Reordered

variable {records others : List BankRecord} (h : Reordered prices records others)

include h

theorem map_perm {α : Type} {f : BankRecord → α} (hf : ∀ r, f r.reread = f r) :
    (others.map f).Perm (records.map f) := by
  obtain ⟨same, hperm, rfl⟩ := h.perm
  have hsame : (same.map BankRecord.reread).map f = same.map f :=
    List.map_map.trans (List.map_congr_left fun r _ => hf r)
  rw [hsame]
  exact hperm.map f

theorem filter {keep : BankRecord → Bool} (hkeep : ∀ r, keep r.reread = keep r) :
    Reordered prices (records.filter keep) (others.filter keep) := by
  obtain ⟨same, hperm, rfl⟩ := h.perm
  refine ⟨h.once.sublist (List.filter_sublist.map _), fun r hr => h.fits r (List.mem_filter.mp hr).1,
    same.filter keep, hperm.filter keep, ?_⟩
  rw [List.filter_map]
  exact congrArg _ (List.filter_congr fun r _ => hkeep r)

theorem find?_eq (id : String) : others.find? (fun r => decide (r.id = id)) =
    (records.find? fun r => decide (r.id = id)).map BankRecord.reread := by
  obtain ⟨same, hperm, rfl⟩ := h.perm
  have hsame : (same.map BankRecord.id).Nodup := (hperm.map _).nodup_iff.mpr h.once
  have hfind : same.find? (fun r => decide (r.id = id)) = records.find? fun r => decide (r.id = id) :=
    Option.ext fun r => by
      rw [Lookup.find?_eq_some_iff hsame, Lookup.find?_eq_some_iff h.once, hperm.mem_iff]
  rw [List.find?_map, ← hfind]
  rfl

theorem twin {f : BankRecord → BankRecord} (hid : ∀ r, (f r).id = r.id)
    (hfits : ∀ r ∈ records, r.FitsRow → (f r).FitsRow ∧ (f r).price = r.price)
    (hreread : ∀ r, f r.reread = (f r).reread) :
    Write.Twin prices (.bank (records.map f)) (.bank (others.map f)) := by
  obtain ⟨same, hperm, rfl⟩ := h.perm
  have hwritten : (same.map BankRecord.reread).map f = (same.map f).map BankRecord.reread := by
    rw [List.map_map, List.map_map]
    exact List.map_congr_left fun r _ => hreread r
  have honce : ((records.map f).map BankRecord.id).Nodup := by
    have hids : (records.map f).map BankRecord.id = records.map BankRecord.id :=
      List.map_map.trans (List.map_congr_left fun r _ => hid r)
    rw [hids]
    exact h.once
  rw [hwritten]
  refine .bank (.inr ⟨honce, hperm.map f⟩) fun w hw => ?_
  obtain ⟨r, hr, rfl⟩ := List.mem_map.mp hw
  obtain ⟨hfit, hprice⟩ := h.fits r hr
  obtain ⟨hfit', hprice'⟩ := hfits r hr hfit
  exact ⟨hfit', hprice' ▸ hprice⟩

end Reordered

theorem Store.Fits.reordered {s : Store} (hs : s.Fits prices) (ids : List String) :
    Reordered prices (s.bankById ids) ((Sorting.byText BankRecord.id (s.bankById ids)).map BankRecord.reread) where
  once := s.nodup_bankById ids
  fits _ hr := hs.of_mem (Store.mem_bankById hr)
  perm := ⟨_, Sorting.byText_perm _ _, rfl⟩

theorem firstMissing?_congr {names found others : List String} (h : ∀ name, name ∈ others ↔ name ∈ found) :
    firstMissing? names others = firstMissing? names found := by
  have hsame : (fun name => !others.contains name) = fun name => !found.contains name := by
    funext name
    rw [Bool.eq_iff_iff]
    simp [h]
  rw [firstMissing?, firstMissing?, hsame]

theorem needRecords_parallels (ids : List String) :
    Parallels prices (fun records others => Reordered prices records others ∧
        ∃ s : Store, s.Fits prices ∧ records = s.bankById ids ∧
          others = (Sorting.byText BankRecord.id records).map BankRecord.reread)
      (needRecords ids) (needRecords ids) := by
  refine parallels_query (by exact trivial) fun s hs => ?_
  have hreordered := hs.reordered ids
  have hmissing : firstMissing? ids
      (((Sorting.byText BankRecord.id (s.bankById ids)).map BankRecord.reread).map BankRecord.id) =
        firstMissing? ids ((s.bankById ids).map BankRecord.id) :=
    firstMissing?_congr fun name => (hreordered.map_perm fun _ => rfl).mem_iff
  simp only [Store.answer, Query.reread, hmissing]
  cases firstMissing? ids ((s.bankById ids).map BankRecord.id) with
  | some id => exact parallels_throw _
  | none => exact parallels_pure ⟨hreordered, s, hs, rfl, rfl⟩

theorem needPostings_parallels (keys : List String) :
    Parallels prices (fun postings others => (∀ p ∈ postings, p.FitsRow) ∧ others = postings.map Posting.reread)
      (needPostings keys) (needPostings keys) := by
  refine parallels_query (by exact trivial) fun s hs => ?_
  have hmissing : firstMissing? keys (((s.postingsByKey keys).map Posting.reread).filterMap Posting.groupKey) =
      firstMissing? keys ((s.postingsByKey keys).filterMap Posting.groupKey) := by
    rw [List.filterMap_map]
    rfl
  simp only [Store.answer, Query.reread, hmissing]
  cases firstMissing? keys ((s.postingsByKey keys).filterMap Posting.groupKey) with
  | some key => exact parallels_throw _
  | none =>
      refine parallels_pure ⟨fun p hp => hs.ledger p ?_, rfl⟩
      exact (List.mem_filter.mp ((Sorting.newestFirst_perm _ _ _).subset hp)).1

/-! ## Tags -/

theorem Tagging.apply_parallels (tagging : Tagging) (now : Timestamp) :
    Parallels prices Eq (tagging.apply now) (tagging.apply now) := by
  refine (needRecords_parallels _).bind fun records others ⟨hrecords, _⟩ => ?_
  refine (needPostings_parallels _).bind fun postings postings' ⟨hpostings, hreread⟩ => ?_
  subst hreread
  let retag (review : Review) : Review := review.retag tagging.tag tagging.notes tagging.actor now
  have hwritten : ((postings.map Posting.reread).map fun p => { p with review := retag p.review }) =
      (postings.map fun p => { p with review := retag p.review }).map Posting.reread := by
    rw [List.map_map, List.map_map]
    rfl
  have hlength : others.length = records.length := by
    obtain ⟨same, hperm, rfl⟩ := hrecords.perm
    rw [List.length_map]
    exact hperm.length_eq
  have hkeys : (postings.map Posting.reread).filterMap Posting.groupKey = postings.filterMap Posting.groupKey := by
    rw [List.filterMap_map]
    rfl
  refine (parallels_saveAll (.cons ?_ (.cons ?_ .nil))).bind fun _ _ _ => ?_
  · refine hrecords.twin (f := fun r => { r with review := retag r.review }) (fun _ => rfl) (fun r hr hfit => ?_)
      fun _ => rfl
    exact ⟨⟨hfit.givenType, hfit.instruments, hfit.creator, hfit.partner⟩, rfl⟩
  · rw [hwritten]
    refine .postings fun w hw => ?_
    obtain ⟨p, hp, rfl⟩ := List.mem_map.mp hw
    exact ⟨(hpostings p hp).givenInstrument, (hpostings p hp).givenType, (hpostings p hp).keyed⟩
  · refine (parallels_report _ _ _).bind fun _ _ _ => parallels_pure ?_
    rw [hlength, hkeys, List.length_map]

/-! ## Operators' matches -/

/-- The amounts of the records with these ids add up to one sum in the order of the ids given and in their own order. -/
def Steady (prices : List (String × Decimal)) (ids : List String) : Prop :=
  let picked := (Assoc.distinct ids).filterMap fun id => prices.find? (·.1 = id)
  Decimal.sum ((Sorting.byText Prod.fst picked).map Prod.snd) = Decimal.sum (picked.map Prod.snd)

instance (prices : List (String × Decimal)) (ids : List String) : Decidable (Steady prices ids) :=
  inferInstanceAs (Decidable (Decimal.sum _ = Decimal.sum _))

theorem Steady.sum_eq {ids : List String} (h : Steady prices ids) {s : Store} (hs : s.Fits prices) :
    Decimal.sum (((Sorting.byText BankRecord.id (s.bankById ids)).map BankRecord.reread).map BankRecord.amount) =
      Decimal.sum ((s.bankById ids).map BankRecord.amount) := by
  have hpicked : (Assoc.distinct ids).filterMap (fun id => prices.find? (·.1 = id)) =
      (s.bankById ids).map BankRecord.price := by
    rw [Store.bankById, List.map_filterMap, ← hs.prices]
    refine List.filterMap_congr fun id _ => ?_
    rw [List.find?_map]
    rfl
  have hordered : Sorting.byText Prod.fst ((s.bankById ids).map BankRecord.price) =
      (Sorting.byText BankRecord.id (s.bankById ids)).map BankRecord.price := by
    refine (List.map_mergeSort (f := BankRecord.price) fun _ _ _ _ => ?_).symm
    rfl
  simp only [Steady, hpicked, hordered, List.map_map] at h
  rw [List.map_map]
  exact h

namespace ManualMatch

variable {records others : List BankRecord} (h : Reordered prices records others)

include h

theorem oneGoal_reordered (postings : List Posting) :
    oneGoal others (postings.map Posting.reread) = oneGoal records postings := by
  have hgoals : (postings.map Posting.reread).map Posting.goalId = postings.map Posting.goalId := List.map_map
  have hperm : (Assoc.distinct (others.map BankRecord.goalId ++ postings.map Posting.goalId)).Perm
      (Assoc.distinct (records.map BankRecord.goalId ++ postings.map Posting.goalId)) := by
    refine (List.perm_ext_iff_of_nodup (Assoc.nodup_distinct _) (Assoc.nodup_distinct _)).mpr fun goal => ?_
    rw [Assoc.mem_distinct, Assoc.mem_distinct]
    exact ((h.map_perm fun _ => rfl).append_right _).mem_iff
  unfold oneGoal
  rw [hgoals]
  generalize Assoc.distinct (others.map BankRecord.goalId ++ postings.map Posting.goalId) = goals at hperm
  generalize Assoc.distinct (records.map BankRecord.goalId ++ postings.map Posting.goalId) = goals' at hperm
  have hlength := hperm.length_eq
  match goals, goals', hperm with
  | [], [], _ => rfl
  | [goal], [goal'], hperm => rw [List.singleton_perm_singleton.mp hperm]
  | goal :: more :: rest, goal' :: more' :: rest', hperm => simp only [Sorting.ascending_perm hperm]
  | [], _ :: _, _ => simp at hlength
  | _ :: _, [], _ => simp at hlength
  | [_], _ :: _ :: _, _ => simp at hlength
  | _ :: _ :: _, [_], _ => simp at hlength

theorem checkSelection_reordered
    (hsum : Decimal.sum (others.map BankRecord.amount) = Decimal.sum (records.map BankRecord.amount)) (t : Tolerance)
    (now : Timestamp) (actor : String) (ids keys : List String) (postings : List Posting) :
    checkSelection t now actor ids keys others (postings.map Posting.reread) =
      checkSelection t now actor ids keys records postings := by
  have hheld : ((others.filter BankRecord.hasManualMatch).map BankRecord.id).Perm
      ((records.filter BankRecord.hasManualMatch).map BankRecord.id) :=
    (h.filter fun _ => rfl).map_perm fun _ => rfl
  have hempty : ((others.filter BankRecord.hasManualMatch).map BankRecord.id).isEmpty =
      ((records.filter BankRecord.hasManualMatch).map BankRecord.id).isEmpty := by
    rw [Bool.eq_iff_iff, List.isEmpty_iff, List.isEmpty_iff]
    exact ⟨fun hnil => (hnil ▸ hheld).nil_eq.symm, fun hnil => (hnil ▸ hheld).eq_nil⟩
  have htotals : checkTotals t others (postings.map Posting.reread) = checkTotals t records postings := by
    have hamounts : (postings.map Posting.reread).map Posting.amount = postings.map Posting.amount := List.map_map
    simp only [checkTotals, hsum, hamounts]
  unfold checkSelection
  simp only [oneGoal_reordered h, hempty, Sorting.ascending_perm hheld, htotals]

theorem markAll_reordered (m : ManualMatch) (now : Timestamp) :
    m.markAll now others = (m.markAll now records).map BankRecord.reread := by
  rw [markAll, markAll, List.map_filterMap]
  refine List.filterMap_congr fun id _ => ?_
  rw [h.find?_eq, Option.map_map, Option.map_map]
  rfl

omit h in
theorem create_parallels {bankIds : List String} {actor : String} (hactor : actor ≠ "")
    (hsteady : Steady prices bankIds) (t : Tolerance) (now : Timestamp) (groupKeys : List String) :
    Parallels prices Eq (create t now bankIds groupKeys actor) (create t now bankIds groupKeys actor) := by
  unfold create
  simp only []
  split
  · exact parallels_throw _
  · refine (needRecords_parallels _).bind fun records others ⟨hrecords, s, hs, hof, hothers⟩ => ?_
    refine (needPostings_parallels _).bind fun postings postings' ⟨_, hreread⟩ => ?_
    subst hreread
    have hsum : Decimal.sum (others.map BankRecord.amount) = Decimal.sum (records.map BankRecord.amount) := by
      rw [hothers, hof]
      exact Steady.sum_eq (by simpa [Steady, Assoc.distinct_of_nodup (Assoc.nodup_distinct bankIds)] using hsteady) hs
    have hchecked := checkSelection_reordered hrecords hsum t now actor (Assoc.distinct bankIds)
      (Assoc.distinct groupKeys) postings
    refine parallels_lift (Alike.of_eq hchecked) ?_
    rintro m _ ⟨hm, rfl⟩
    refine (parallels_saveAll (.cons ?_ .nil)).bind fun _ _ _ => ?_
    · rw [markAll_reordered hrecords]
      refine .bank (.inl rfl) fun w hw => ?_
      obtain ⟨id, -, hw⟩ := List.mem_filterMap.mp hw
      obtain ⟨r, hfind, rfl⟩ := Option.map_eq_some_iff.mp hw
      obtain ⟨hfit, hprice⟩ := hrecords.fits r (List.mem_of_find?_eq_some hfind)
      refine ⟨hfit.mark ?_ _ _ _, hprice⟩
      obtain ⟨goal, totals, -, -, -, rfl⟩ := checkSelection_eq_ok.mp hm
      exact hactor
    · exact (parallels_report _ _ _).bind fun _ _ _ => parallels_pure rfl

theorem concat_reordered {r : BankRecord} (hr : r.FitsRow ∧ r.price ∈ prices)
    (hnew : r.id ∉ records.map BankRecord.id) : Reordered prices (records ++ [r]) (others ++ [r.reread]) where
  once := by
    rw [List.map_append, List.map_singleton, ← List.concat_eq_append]
    exact h.once.concat hnew
  fits := List.forall_mem_append.mpr ⟨h.fits, List.forall_mem_singleton.mpr hr⟩
  perm := by
    obtain ⟨same, hperm, rfl⟩ := h.perm
    exact ⟨same ++ [r], hperm.append_right _, by rw [List.map_append]; rfl⟩

theorem addNew_reordered {more : List BankRecord} (hmore : ∀ r ∈ more, r.FitsRow ∧ r.price ∈ prices) :
    Reordered prices (addNew records more) (addNew others (more.map BankRecord.reread)) := by
  induction more generalizing records others with
  | nil => exact h
  | cons r rest ih =>
      obtain ⟨hr, hrest⟩ := List.forall_mem_cons.mp hmore
      have hcontains : (others.map BankRecord.id).contains r.reread.id = (records.map BankRecord.id).contains r.id := by
        rw [Bool.eq_iff_iff, List.contains_iff_mem, List.contains_iff_mem]
        exact (h.map_perm fun _ => rfl).mem_iff
      change Reordered prices
        (addNew (if (records.map BankRecord.id).contains r.id then records else records ++ [r]) rest)
        (addNew (if (others.map BankRecord.id).contains r.reread.id then others else others ++ [r.reread])
          (rest.map BankRecord.reread))
      rw [hcontains]
      split
      · exact ih h hrest
      · rename_i hnew
        exact ih (concat_reordered h hr fun hmem => hnew (List.contains_iff_mem.mpr hmem)) hrest

omit h in
theorem holding_parallels (key : String) :
    Parallels prices (fun held held' => held' = held.map BankRecord.reread ∧ ∀ r ∈ held, r.FitsRow ∧ r.price ∈ prices)
      (holding key) (holding key) := by
  refine parallels_query (by exact trivial) fun s hs => parallels_pure ⟨List.filter_map, fun r hr => ?_⟩
  exact hs.of_mem (Store.mem_manualMatches (List.mem_filter.mp hr).1)

theorem addHolding_parallels (keys : List String) :
    Parallels prices (Reordered prices) (addHolding keys records) (addHolding keys others) := by
  induction keys generalizing records others with
  | nil => exact parallels_pure h
  | cons key rest ih =>
      refine (holding_parallels key).bind fun held held' ⟨hreread, hfits⟩ => ih ?_
      subst hreread
      exact addNew_reordered h hfits

omit h in
theorem remove_parallels (bankIds groupKeys : List String) (actor : String) :
    Parallels prices Eq (remove bankIds groupKeys actor) (remove bankIds groupKeys actor) := by
  unfold remove
  extract_lets clear
  have hclear : ∀ named named', Reordered prices named named' → Parallels prices Eq (clear named) (clear named') := by
    refine fun named named' hnamed => (addHolding_parallels hnamed _).bind fun selected others hselected => ?_
    have hmatched : Reordered prices (selected.filter BankRecord.isMatched) (others.filter BankRecord.isMatched) :=
      hselected.filter fun _ => rfl
    have hcleared := Sorting.ascending_perm (hmatched.map_perm (f := BankRecord.id) fun _ => rfl)
    have hempty : (others.filter BankRecord.isMatched).isEmpty = (selected.filter BankRecord.isMatched).isEmpty := by
      have hlength := (hmatched.map_perm (f := BankRecord.id) fun _ => rfl).length_eq
      rw [List.length_map, List.length_map] at hlength
      rw [Bool.eq_iff_iff, List.isEmpty_iff_length_eq_zero, List.isEmpty_iff_length_eq_zero, hlength]
    have hreported : Parallels prices Eq
        (Procedure.report (.manualMatchRemoved bankIds groupKeys
          (Sorting.ascending ((selected.filter BankRecord.isMatched).map BankRecord.id))) none actor >>= fun _ =>
            pure (Sorting.ascending ((selected.filter BankRecord.isMatched).map BankRecord.id)))
        (Procedure.report (.manualMatchRemoved bankIds groupKeys
          (Sorting.ascending ((selected.filter BankRecord.isMatched).map BankRecord.id))) none actor >>= fun _ =>
            pure (Sorting.ascending ((selected.filter BankRecord.isMatched).map BankRecord.id))) :=
      (parallels_report _ _ _).bind fun _ _ _ => parallels_pure rfl
    simp only [hempty, hcleared]
    split
    · refine (parallels_saveAll (.cons ?_ .nil)).bind fun _ _ _ => hreported
      exact hmatched.twin (fun _ => rfl) (fun r _ hfit => ⟨hfit.clearMatch .pending, rfl⟩) fun _ => rfl
    · exact hreported
  split
  · exact hclear [] [] ⟨List.nodup_nil, by simp, [], .nil, rfl⟩
  · exact (needRecords_parallels _).bind fun named named' ⟨hnamed, _⟩ => hclear named named' hnamed

end ManualMatch

/-! ## Reversal pairs -/

namespace Reversal

theorem lookup_parallels (id : String) :
    Parallels prices (fun found found' => found' = found.map BankRecord.reread ∧
      ∀ r ∈ found, r.FitsRow ∧ r.price ∈ prices) (lookup id) (lookup id) := by
  refine parallels_query (by exact trivial) fun s hs => parallels_pure ⟨?_, fun r hr => ?_⟩
  · change ((Sorting.byText BankRecord.id (s.bankById [id])).map BankRecord.reread).head? =
      (s.bankById [id]).head?.map BankRecord.reread
    rw [List.head?_map]
    refine congrArg (fun records : List BankRecord => records.head?.map BankRecord.reread) ?_
    -- there is at most one record to put in order
    change Sorting.byText BankRecord.id ([id].filterMap s.bankRecord?) = [id].filterMap s.bankRecord?
    cases hfind : s.bankRecord? id <;> simp [Sorting.byText, hfind]
  · exact hs.of_mem (Store.mem_bankById (List.mem_of_mem_head? hr))

theorem need_parallels (id : String) :
    Parallels prices (fun r r' => r' = r.reread ∧ r.FitsRow ∧ r.price ∈ prices) (need id) (need id) := by
  refine (lookup_parallels id).bind fun found found' ⟨hreread, hfits⟩ => ?_
  subst hreread
  cases found with
  | some r => exact parallels_pure ⟨rfl, hfits r rfl⟩
  | none => exact parallels_throw _

theorem candidates_parallels (id : String) (range : Option DateRange) :
    Parallels prices (fun found found' => found' = found.map BankRecord.reread) (candidates id range)
      (candidates id range) := by
  refine (need_parallels id).bind fun source source' ⟨hreread, _⟩ => ?_
  subst hreread
  refine parallels_query (by exact trivial) fun s hs => ?_
  have hfound : ((s.bankRecords (some source.goalId) range).map BankRecord.reread).filterM (undoes source.reread) =
      ((s.bankRecords (some source.goalId) range).filterM (undoes source)).map (List.map BankRecord.reread) :=
    Fallible.filterM_map (fun _ => rfl) _
  exact .done ((Alike.of_map hfound).mono fun _ _ hof => hof.2)

theorem link_parallels (hnamed : ∀ price ∈ prices, price.1 ≠ "") {actor : String} (hactor : actor ≠ "") (t : Tolerance)
    (now : Timestamp) (idA idB : String) :
    Parallels prices Eq (link t now idA idB actor) (link t now idA idB actor) := by
  unfold link
  simp only []
  split
  · exact parallels_throw _
  · refine (need_parallels idA).bind fun a a' ⟨ha, hfitsA, hpriceA⟩ => ?_
    refine (need_parallels idB).bind fun b b' ⟨hb, hfitsB, hpriceB⟩ => ?_
    subst ha hb
    refine parallels_lift (x := check t a b) (R := Eq) (.refl (fun _ => rfl) _) fun net net' hnet => ?_
    subst hnet
    let records : List BankRecord := [pairWith a b actor now, pairWith b a actor now]
    have hsaved : ∀ r ∈ records, r.FitsRow ∧ r.price ∈ prices := by
      have hpaired : ∀ {r partner : BankRecord}, r.FitsRow ∧ r.price ∈ prices → partner.price ∈ prices →
          (pairWith r partner actor now).FitsRow ∧ (pairWith r partner actor now).price ∈ prices := by
        refine fun {r partner} hr hpartner => ⟨⟨hr.1.givenType, hr.1.instruments, hr.1.creator, ?_⟩, hr.2⟩
        rintro _ ⟨⟩
        exact ⟨hnamed _ hpartner, hactor⟩
      exact List.forall_mem_cons.mpr ⟨hpaired ⟨hfitsA, hpriceA⟩ hpriceB,
        List.forall_mem_singleton.mpr (hpaired ⟨hfitsB, hpriceB⟩ hpriceA)⟩
    have hwrites : List.Forall₂ (Write.Twin prices) [.bank records] [.bank (records.map BankRecord.reread)] :=
      .cons (.bank (.inl rfl) hsaved) .nil
    refine (parallels_saveAll hwrites).bind fun _ _ _ => ?_
    exact (parallels_report _ _ _).bind fun _ _ _ => parallels_pure rfl

theorem pointingBack_reread (r : BankRecord) (found : Option BankRecord) :
    pointingBack r.reread (found.map BankRecord.reread) = (pointingBack r found).map BankRecord.reread := by
  cases found with
  | none => rfl
  | some p =>
      change (if p.reversal.any (·.partnerId = r.id) then some p.reread else none).toList =
        (if p.reversal.any (·.partnerId = r.id) then some p else none).toList.map BankRecord.reread
      split <;> rfl

theorem unlink_parallels (id actor : String) :
    Parallels prices Eq (unlink id actor) (unlink id actor) := by
  refine (need_parallels id).bind fun r r' ⟨hreread, hr⟩ => ?_
  subst hreread
  have hreversals : r.reread.reversal = r.reversal := rfl
  simp only [hreversals]
  cases hreversal : r.reversal with
  | none => exact parallels_throw _
  | some held =>
      refine (lookup_parallels held.partnerId).bind fun found found' ⟨hfound, hfits⟩ => ?_
      subst hfound
      have hreleased : ∀ p ∈ r :: pointingBack r found, p.FitsRow ∧ p.price ∈ prices := by
        refine List.forall_mem_cons.mpr ⟨hr, fun p hp => ?_⟩
        have hp := Option.mem_toList.mp hp
        exact hfits p (Option.filter_eq_some_iff.mp hp).1
      have hwritten : (r.reread :: pointingBack r.reread (found.map BankRecord.reread)).map release =
          ((r :: pointingBack r found).map release).map BankRecord.reread := by
        rw [pointingBack_reread, ← List.map_cons, List.map_map, List.map_map]
        rfl
      have hids : (r.reread :: pointingBack r.reread (found.map BankRecord.reread)).map BankRecord.id =
          (r :: pointingBack r found).map BankRecord.id := by
        rw [pointingBack_reread, ← List.map_cons, List.map_map]
        rfl
      simp only [hwritten, hids]
      refine (parallels_saveAll (.cons (.bank (.inl rfl) fun w hw => ?_) .nil)).bind fun _ _ _ => ?_
      · obtain ⟨p, hp, rfl⟩ := List.mem_map.mp hw
        obtain ⟨hfit, hprice⟩ := hreleased p hp
        refine ⟨⟨hfit.givenType, hfit.instruments, hfit.creator, ?_⟩, hprice⟩
        rintro _ ⟨⟩
      · exact (parallels_report _ _ _).bind fun _ _ _ => parallels_pure rfl

theorem partner_parallels (id : String) :
    Parallels prices (fun found found' => found' = found.map BankRecord.reread) (partner id) (partner id) := by
  refine (need_parallels id).bind fun r r' ⟨hreread, _⟩ => ?_
  subst hreread
  have hreversals : r.reread.reversal = r.reversal := rfl
  simp only [hreversals]
  cases hreversal : r.reversal with
  | none => exact parallels_pure rfl
  | some held => exact (lookup_parallels held.partnerId).mono fun _ _ h => h.1

end Reversal

end GoalReconciliation

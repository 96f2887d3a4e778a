import GoalReconciliation.Proofs.Calendar.Instants
import GoalReconciliation.Proofs.Run.Building
import GoalReconciliation.Proofs.Store.Arrangement
import GoalReconciliation.Proofs.Store.Lapses
import GoalReconciliation.Resolution.Report

/-!
# The report on what is resolved

* `Review.IsResolvedUnder`, `Store.Timed`, `Store.Summed` : what a report is about, and what it needs of a store;
* `DescribesGroup`, `Precedes`, `Reported` : a group's row, the order of the rows, and a whole report;
* `ofKey_cases`, `mapM_ofKey_cases` : the row of a listed key, and the rows of all of them;
* `effect_report` : a report from the two listings;
* `reported_of_listings` : the rows of the listings are a report;
* `resolvedRows_eq_total` : listings by one tag at a time have together the rows of the listing by all of them;
* `summed_of_moderate` : moderate amounts have sums, as a report needs them;
* `report_resolved` : **a report has a row for each resolved record and group, the latest first, and as many as the
  counts say; it fails if a group's amounts have no sum.**
-/

namespace GoalReconciliation

set_option autoImplicit false

open Store (keyOf)

/-! ## What is reported -/

namespace Review

def IsResolvedUnder (tags : List ReviewTag) (r : Review) : Prop :=
  r.resolved = true ∧ ∃ tag ∈ tags, r.tag = some tag

instance (tags : List ReviewTag) (r : Review) : Decidable (r.IsResolvedUnder tags) :=
  inferInstanceAs (Decidable (_ ∧ _))

def IsTimed (offset : Option Int) (r : Review) : Prop :=
  ∃ t, r.resolvedAt = some t ∧ t.IsTime ∧ t.offset = offset

end Review

/-- The tags of a report: one that is asked for, or all that a sweep can clear. -/
def ReviewTag.asked (tag : Option ReviewTag) : List ReviewTag :=
  (tag.map ([·])).getD autoResolvable

namespace Store

/-- Whatever is resolved has an instant of resolution, all of them with one offset. -/
structure Timed (offset : Option Int) (s : Store) : Prop where
  bank : ∀ r ∈ s.bank, r.review.resolved = true → r.review.IsTimed offset
  ledger : ∀ p ∈ s.ledger, p.review.resolved = true → p.review.IsTimed offset

/-- The key has a posting in a range that is resolved under one of some tags. -/
def HasResolved (s : Store) (tags : List ReviewTag) (range : Option DateRange) (key : String) : Prop :=
  ∃ p ∈ s.ledger, p.review.IsResolvedUnder tags ∧ DateRange.admits range p.date = true ∧ keyOf p = key

/-- The amounts of every such key have a sum. -/
def Summed (s : Store) (tags : List ReviewTag) (range : Option DateRange) : Prop :=
  ∀ key, s.HasResolved tags range key →
    ∃ amount, Decimal.sum ((s.postingsByKey [key]).map Posting.amount) = .ok amount

/-- No key has postings resolved under two of the tags that a sweep can clear. -/
def OneTagEach (s : Store) : Prop :=
  ∀ p ∈ s.ledger, ∀ q ∈ s.ledger, keyOf p = keyOf q → p.review.IsResolvedUnder ReviewTag.autoResolvable →
    q.review.IsResolvedUnder ReviewTag.autoResolvable → p.review.tag = q.review.tag

/-- The posting that stands for a key: the newest of those that are resolved under one of some tags. -/
structure StandsFor (s : Store) (tags : List ReviewTag) (key : String) (first : Posting) : Prop where
  stored : first ∈ s.ledger
  named : keyOf first = key
  resolved : first.review.IsResolvedUnder tags
  newest : ∀ p ∈ s.ledger, keyOf p = key → p.review.IsResolvedUnder tags →
    p.date.ordinal < first.date.ordinal ∨ first.date = p.date ∧ first.id ≤ p.id

end Store

namespace ResolvedRow

/-- The row of a key: what stands for it, with the amount of all its postings. -/
structure DescribesGroup (s : Store) (tags : List ReviewTag) (key : String) (row : ResolvedRow) : Prop where
  name : row.recordId = key
  side : row.side = .ledger
  first : ∃ first, s.StandsFor tags key first ∧ row.goal = first.goalId ∧ row.sourceId = first.sourceId ∧
    row.date = first.date ∧ row.review = first.review
  amount : Decimal.sum ((s.postingsByKey [key]).map Posting.amount) = .ok row.amount

/-- Records stand before groups, and each of them by their names. -/
def IsBefore (a b : ResolvedRow) : Prop :=
  a.side = .bank ∧ b.side = .ledger ∨ a.side = b.side ∧ a.recordId < b.recordId

/-- The row that was resolved later stands first; of one instant, the one that is named first. -/
def Precedes (a b : ResolvedRow) : Prop :=
  ∃ t u, a.review.resolvedAt = some t ∧ b.review.resolvedAt = some u ∧
    (u.instant < t.instant ∨ u.instant = t.instant ∧ a.IsBefore b)

/-- A whole report: one row for each resolved record and one for each key with a resolved posting, in order. -/
structure Reported (s : Store) (tags : List ReviewTag) (range : Option DateRange) (rows : List ResolvedRow) :
    Prop where
  once : (rows.map fun row => (row.side, row.recordId)).Nodup
  records : ∀ row, row ∈ rows ∧ row.side = .bank ↔
    ∃ r ∈ s.bank, r.review.IsResolvedUnder tags ∧ DateRange.admits range r.date = true ∧ row = ofRecord r
  keys : ∀ key, (∃ row ∈ rows, row.side = .ledger ∧ row.recordId = key) ↔ s.HasResolved tags range key
  groups : ∀ row ∈ rows, row.side = .ledger → DescribesGroup s tags row.recordId row
  ordered : rows.Pairwise Precedes

end ResolvedRow

/-! ## The listings -/

namespace Store

variable {s : Store} {tags : List ReviewTag} {range : Option DateRange}

def resolvedBank (s : Store) (tags : List ReviewTag) (range : Option DateRange) : List BankRecord :=
  s.taggedBank ⟨tags, true, range, none⟩

def resolvedKeys (s : Store) (tags : List ReviewTag) (range : Option DateRange) : List String :=
  s.taggedKeys ⟨tags, true, range, none⟩

theorem selects_resolved_iff {review : Review} {date : Date} :
    TagFilter.selects ⟨tags, true, range, none⟩ review date = true ↔
      review.IsResolvedUnder tags ∧ DateRange.admits range date = true := by
  rw [TagFilter.selects_iff, Review.IsResolvedUnder, and_assoc]

theorem mem_resolvedBank {r : BankRecord} :
    r ∈ s.resolvedBank tags range ↔
      r ∈ s.bank ∧ r.review.IsResolvedUnder tags ∧ DateRange.admits range r.date = true := by
  rw [resolvedBank, mem_taggedBank, selects_resolved_iff]
  exact and_iff_left rfl

theorem mem_resolvedKeys {key : String} : key ∈ s.resolvedKeys tags range ↔ s.HasResolved tags range key := by
  rw [resolvedKeys, mem_taggedKeys]
  simp only [selects_resolved_iff, and_assoc]
  exact and_iff_left rfl

theorem filter_postingsByKey (hs : s.Sound) {keys : List String} {key : String} (hkey : key ∈ keys) :
    (s.postingsByKey keys).filter (fun p => decide (keyOf p = key)) = s.postingsByKey [key] := by
  have honce : ∀ keys : List String, ((s.ledger.filter fun p => keys.contains (keyOf p)).map Posting.id).Nodup :=
    fun _ => hs.ledger_once.sublist (List.filter_sublist.map _)
  have hall : (s.postingsByKey [key]).filter (fun p => decide (keyOf p = key)) = s.postingsByKey [key] :=
    List.filter_eq_self.mpr fun p hp => decide_eq_true (mem_postingsByKey.mp hp).2
  refine (Sorting.filter_newestFirst (honce [key]) (honce keys) fun p hp => ?_).trans hall
  rw [List.mem_filter, List.mem_filter, of_decide_eq_true hp, List.contains_iff_mem, List.contains_iff_mem]
  exact and_congr_right fun _ => iff_of_true hkey List.mem_cons_self

theorem gather_postingsByKey (hs : s.Sound) (keys : List String) :
    ∃ groups, Group.gather (s.postingsByKey keys) = .ok groups ∧
      ∀ key ∈ keys, (Assoc.get? key groups).getD [] = s.postingsByKey [key] := by
  refine ⟨_, Group.gather_keyed fun p hp => (hs.keyed p (mem_postingsByKeys.mp hp).1).1, fun key hkey => ?_⟩
  rw [Assoc.gather_eq, Assoc.get?_tagged, ← filter_postingsByKey hs hkey]
  split
  · rfl
  · rename_i hnone
    refine (List.filter_eq_nil_iff.mpr fun p hp hp' => ?_).symm
    exact hnone (Assoc.mem_distinct.mpr (List.mem_map.mpr ⟨p, hp, of_decide_eq_true hp'⟩))

end Store

/-! ## The rows -/

namespace ResolvedRow

variable {s : Store} {tags : List ReviewTag} {range : Option DateRange}

def ofKey (s : Store) (tags : List ReviewTag) (key : String) : Except Failure (Option ResolvedRow) :=
  ofGroup tags none key (s.postingsByKey [key])

/-- The row of a listed key describes its group, or its amounts have no sum. -/
theorem ofKey_cases {key : String} (h : s.HasResolved tags range key) :
    (∃ row, ofKey s tags key = .ok (some row) ∧ DescribesGroup s tags key row) ∨
      ∃ fault, Decimal.sum ((s.postingsByKey [key]).map Posting.amount) = .error fault ∧
        ofKey s tags key = .error (.arithmetic fault) := by
  have hpicks : ∀ p : Posting, (p.review.resolved && p.review.tag.any (tags.contains ·)) = true ↔
      p.review.IsResolvedUnder tags := by
    intro p
    unfold Review.IsResolvedUnder
    cases p.review.tag <;> simp
  obtain ⟨p, hp, hresolved, -, hkey⟩ := h
  unfold ofKey ofGroup
  cases hfind : (s.postingsByKey [key]).find? fun p => p.review.resolved && p.review.tag.any (tags.contains ·) with
  | none =>
      have hnot := List.find?_eq_none.mp hfind p (Store.mem_postingsByKey.mpr ⟨hp, hkey⟩)
      exact absurd ((hpicks p).mpr hresolved) hnot
  | some first =>
      cases hsum : Decimal.sum ((s.postingsByKey [key]).map Posting.amount) with
      | error fault => exact .inr ⟨fault, rfl, rfl⟩
      | ok amount =>
          refine .inl ⟨_, rfl, rfl, rfl, ⟨first, ?_, rfl, rfl, rfl, rfl⟩, hsum⟩
          obtain ⟨hpicked, before, after, hsplit, hbefore⟩ := List.find?_eq_some_iff_append.mp hfind
          have hmem : first ∈ s.postingsByKey [key] := hsplit ▸ List.mem_append_right _ List.mem_cons_self
          obtain ⟨hstored, hfirst⟩ := Store.mem_postingsByKey.mp hmem
          refine ⟨hstored, hfirst, (hpicks first).mp hpicked, fun q hq hqkey hqresolved => ?_⟩
          -- The newest posting is listed first, so the others of the kind are listed behind the one that is found.
          have hsorted : (s.postingsByKey [key]).Pairwise fun a b =>
              b.date.ordinal < a.date.ordinal ∨ a.date = b.date ∧ a.id ≤ b.id := Sorting.newestFirst_sorted _
          have hqmem := Store.mem_postingsByKey.mpr ⟨hq, hqkey⟩
          rw [hsplit] at hsorted hqmem
          rcases List.mem_append.mp hqmem with hq' | hq'
          · have hnot := hbefore q hq'
            rw [(hpicks q).mpr hqresolved] at hnot
            cases hnot
          · rcases List.mem_cons.mp hq' with rfl | hq'
            · exact .inr ⟨rfl, String.le_refl _⟩
            · exact List.rel_of_pairwise_cons (List.pairwise_append.mp hsorted).2.1 hq'

theorem mapM_ofKey_cases (s : Store) (tags : List ReviewTag) (range : Option DateRange) :
    (s.Summed tags range ∧ ∃ rows, (s.resolvedKeys tags range).mapM (ofKey s tags) = .ok (rows.map some) ∧
        List.Forall₂ (DescribesGroup s tags) (s.resolvedKeys tags range) rows) ∨
      ¬s.Summed tags range ∧
        ∃ fault, (s.resolvedKeys tags range).mapM (ofKey s tags) = .error (.arithmetic fault) := by
  cases hall : (s.resolvedKeys tags range).mapM (ofKey s tags) with
  | error failure =>
      obtain ⟨key, hkey, hfails⟩ := Fallible.mapM_error hall
      obtain ⟨row, hrow, -⟩ | ⟨fault, hsum, hfault⟩ := ofKey_cases (Store.mem_resolvedKeys.mp hkey)
      · rw [hfails] at hrow
        cases hrow
      · obtain rfl := Except.error.inj (hfails.symm.trans hfault)
        refine .inr ⟨fun hsummed => ?_, fault, rfl⟩
        obtain ⟨amount, hamount⟩ := hsummed key (Store.mem_resolvedKeys.mp hkey)
        rw [hsum] at hamount
        cases hamount
  | ok results =>
      have hresults := Fallible.mapM_eq_ok.mp hall
      have hrow : ∀ key ∈ s.resolvedKeys tags range, ∃ row, ofKey s tags key = .ok (some row) ∧
          DescribesGroup s tags key row := by
        intro key hkey
        refine (ofKey_cases (Store.mem_resolvedKeys.mp hkey)).resolve_right fun ⟨fault, _, hfault⟩ => ?_
        obtain ⟨result, -, hresult⟩ := Fallible.mapM_item hall hkey
        rw [hresult] at hfault
        cases hfault
      refine .inl ⟨fun key hkey => ?_, ?_⟩
      · obtain ⟨row, -, hdescribes⟩ := hrow key (Store.mem_resolvedKeys.mpr hkey)
        exact ⟨row.amount, hdescribes.amount⟩
      · generalize s.resolvedKeys tags range = keys at hresults hrow
        clear hall
        induction hresults with
        | nil => exact ⟨[], rfl, .nil⟩
        | cons hkey _ ih =>
            obtain ⟨⟨row, hsome, hdescribes⟩, hrest⟩ := List.forall_mem_cons.mp hrow
            obtain ⟨rows, hrows, hall⟩ := ih hrest
            obtain rfl := Except.ok.inj (hkey.symm.trans hsome)
            exact ⟨row :: rows, by rw [List.map_cons, Except.ok.inj hrows], .cons hdescribes hall⟩

/-- A report puts the rows of the two listings in order. -/
theorem effect_report {σ : Type} {repo : Repository σ} {content : σ → Store} (hanswers : repo.AnswersFrom content)
    {state : σ} (hs : (content state).Sound) (range : Option DateRange) (tag : Option ReviewTag) :
    repo.effect (report range none tag) state =
      ((((content state).resolvedKeys (ReviewTag.asked tag) range).mapM
          (ofKey (content state) (ReviewTag.asked tag))).map fun rows =>
        latestFirst (((content state).resolvedBank (ReviewTag.asked tag) range).map ofRecord ++ rows.filterMap id),
        state) := by
  obtain ⟨groups, hgroups, hget⟩ :=
    Store.gather_postingsByKey hs ((content state).resolvedKeys (ReviewTag.asked tag) range)
  have hstart : repo.effect (report range none tag) state = repo.effect (Procedure.query _ >>= _) state := rfl
  refine hstart.trans ((hanswers.effect_query _ _ state).trans ((hanswers.effect_query _ _ state).trans
    ((hanswers.effect_query _ _ state).trans ?_)))
  have hlifted : repo.effect (liftM (Group.gather ((content state).postingsByKey
      ((content state).resolvedKeys (ReviewTag.asked tag) range))) : Procedure _) state = (.ok groups, state) := by
    rw [hgroups]
    rfl
  refine (Repository.effect_bind hlifted).trans ?_
  have hrows : ((content state).resolvedKeys (ReviewTag.asked tag) range).filterMapM
        (fun key => ofGroup (ReviewTag.asked tag) none key ((Assoc.get? key groups).getD [])) =
      (((content state).resolvedKeys (ReviewTag.asked tag) range).mapM
        (ofKey (content state) (ReviewTag.asked tag))).map (List.filterMap id) := by
    rw [Fallible.filterMapM_eq]
    exact congrArg _ (Fallible.mapM_congr fun key hkey => by rw [hget key hkey, ofKey])
  cases hall : ((content state).resolvedKeys (ReviewTag.asked tag) range).mapM
      (ofKey (content state) (ReviewTag.asked tag)) with
  | error failure => exact Repository.effect_bind_error (congrArg (·, state) (hrows.trans (by rw [hall]; rfl)))
  | ok rows =>
      refine (Repository.effect_bind (congrArg (·, state) (hrows.trans (by rw [hall]; rfl)))).trans ?_
      have hwanted : ((content state).resolvedBank (ReviewTag.asked tag) range).filter
          (fun r => isWanted none r.goalId) = (content state).resolvedBank (ReviewTag.asked tag) range :=
        List.filter_eq_self.mpr fun _ _ => rfl
      exact congrArg (fun records => (Except.ok (latestFirst (records.map ofRecord ++ rows.filterMap id)), state))
        hwanted

/-! ## The order -/

theorem DescribesGroup.forall₂_names {keys : List String} {rows : List ResolvedRow}
    (h : List.Forall₂ (DescribesGroup s tags) keys rows) :
    rows.map recordId = keys ∧ ∀ row ∈ rows, DescribesGroup s tags row.recordId row := by
  induction h with
  | nil => exact ⟨rfl, fun _ hrow => absurd hrow List.not_mem_nil⟩
  | cons hrow _ ih =>
      obtain rfl := hrow.name
      exact ⟨congrArg _ ih.1, List.forall_mem_cons.mpr ⟨hrow, ih.2⟩⟩

/-- Rows with instants of one offset are put in order: the later one first, and of one instant the one that stood
first. -/
theorem latestFirst_sorted {offset : Option Int} {rows : List ResolvedRow}
    (htimed : ∀ row ∈ rows, row.review.IsTimed offset) (hbefore : rows.Pairwise IsBefore) :
    (latestFirst rows).Pairwise Precedes := by
  have hle : ∀ {a b : ResolvedRow}, (!decide (a.resolvedText < b.resolvedText)) = true ↔
      b.resolvedText ≤ a.resolvedText := by
    intro a b
    rw [Bool.not_eq_true', decide_eq_false_iff_not]
    exact String.not_lt
  have hstable : (latestFirst rows).Pairwise fun a b => (!decide (a.resolvedText < b.resolvedText)) = true ∧
      ((!decide (b.resolvedText < a.resolvedText)) = true → a.IsBefore b) := by
    refine Sorting.mergeSort_stable (fun a b c hab hbc => ?_) (fun a b => ?_) hbefore
    · exact hle.mpr (String.le_trans (hle.mp hbc) (hle.mp hab))
    · rw [Bool.or_eq_true, hle, hle]
      exact String.le_total _ _
  refine hstable.imp_of_mem fun {a b} ha hb ⟨hab, htie⟩ => ?_
  obtain ⟨t, ht, htime, htoffset⟩ := htimed a (List.mem_mergeSort.mp ha)
  obtain ⟨u, hu, hutime, huoffset⟩ := htimed b (List.mem_mergeSort.mp hb)
  have hta : a.resolvedText = t.toText := by rw [resolvedText, ht]; rfl
  have hub : b.resolvedText = u.toText := by rw [resolvedText, hu]; rfl
  rw [hta, hub, Bool.not_eq_true', decide_eq_false_iff_not,
    Timestamp.toText_lt_iff htime hutime (htoffset.trans huoffset.symm)] at hab
  rw [hta, hub, Bool.not_eq_true', decide_eq_false_iff_not,
    Timestamp.toText_lt_iff hutime htime (huoffset.trans htoffset.symm)] at htie
  refine ⟨t, u, ht, hu, ?_⟩
  rcases lt_or_eq_of_le (not_lt.mp hab) with hlt | heq
  · exact .inl hlt
  · exact .inr ⟨heq, htie heq.not_lt⟩

theorem reported_of_listings (hs : s.Sound) {offset : Option Int} (ht : s.Timed offset) {rows : List ResolvedRow}
    (hrows : List.Forall₂ (DescribesGroup s tags) (s.resolvedKeys tags range) rows) :
    Reported s tags range (latestFirst ((s.resolvedBank tags range).map ofRecord ++ rows)) := by
  obtain ⟨hnames, hgroups⟩ := DescribesGroup.forall₂_names hrows
  have hmem : ∀ row, row ∈ latestFirst ((s.resolvedBank tags range).map ofRecord ++ rows) ↔
      (∃ r ∈ s.resolvedBank tags range, ofRecord r = row) ∨ row ∈ rows := by
    intro row
    rw [latestFirst, List.mem_mergeSort, List.mem_append, List.mem_map]
  have hbefore : ((s.resolvedBank tags range).map ofRecord ++ rows).Pairwise IsBefore := by
    refine List.pairwise_append.mpr ⟨?_, ?_, ?_⟩
    · exact List.pairwise_map.mpr ((Store.ascending_taggedBank hs _).imp fun h => .inr ⟨rfl, h⟩)
    · have hasc : Ascending id (rows.map recordId) := hnames ▸ Store.ascending_taggedKeys s _
      refine (List.pairwise_map.mp hasc).imp_of_mem fun ha hb h => .inr ⟨?_, h⟩
      exact (hgroups _ ha).side.trans (hgroups _ hb).side.symm
    · intro a ha b hb
      obtain ⟨r, -, rfl⟩ := List.mem_map.mp ha
      exact .inl ⟨rfl, (hgroups b hb).side⟩
  have htimed : ∀ row ∈ (s.resolvedBank tags range).map ofRecord ++ rows, row.review.IsTimed offset := by
    intro row hrow
    rcases List.mem_append.mp hrow with hrow | hrow
    · obtain ⟨r, hr, rfl⟩ := List.mem_map.mp hrow
      obtain ⟨hstored, hresolved, -⟩ := Store.mem_resolvedBank.mp hr
      exact ht.bank r hstored hresolved.1
    · obtain ⟨first, hfirst, -, -, -, hreview⟩ := (hgroups row hrow).first
      exact hreview ▸ ht.ledger first hfirst.stored hfirst.resolved.1
  refine { once := ?_, records := fun row => ?_, keys := fun key => ?_, groups := fun row hrow hside => ?_,
           ordered := latestFirst_sorted htimed hbefore }
  · refine ((List.mergeSort_perm _ _).map _).nodup_iff.mpr (List.pairwise_map.mpr (hbefore.imp fun h heq => ?_))
    obtain ⟨hside, hname⟩ := Prod.mk.inj heq
    rcases h with ⟨ha, hb⟩ | ⟨-, hlt⟩
    · rw [ha, hb] at hside
      cases hside
    · exact String.ne_of_lt hlt hname
  · rw [hmem]
    constructor
    · rintro ⟨⟨r, hr, rfl⟩ | hrow, hside⟩
      · obtain ⟨hstored, hresolved, hrange⟩ := Store.mem_resolvedBank.mp hr
        exact ⟨r, hstored, hresolved, hrange, rfl⟩
      · rw [(hgroups row hrow).side] at hside
        cases hside
    · rintro ⟨r, hstored, hresolved, hrange, rfl⟩
      exact ⟨.inl ⟨r, Store.mem_resolvedBank.mpr ⟨hstored, hresolved, hrange⟩, rfl⟩, rfl⟩
  · rw [← Store.mem_resolvedKeys, ← hnames, List.mem_map]
    constructor
    · rintro ⟨row, hrow, hside, hkey⟩
      rcases (hmem row).mp hrow with ⟨r, -, rfl⟩ | hrow
      · cases hside
      · exact ⟨row, hrow, hkey⟩
    · rintro ⟨row, hrow, hkey⟩
      exact ⟨row, (hmem row).mpr (.inr hrow), (hgroups row hrow).side, hkey⟩
  · rcases (hmem row).mp hrow with ⟨r, -, rfl⟩ | hrow
    · cases hside
    · exact hgroups row hrow

end ResolvedRow

/-! ## The counts -/

theorem Natural.total_eq_sum (ns : List Nat) : Natural.total ns = ns.sum := by
  induction ns with
  | nil => rfl
  | cons n ns ih => rw [Natural.total, List.sum_cons, ih]

/-- Items that are listed part by part, none of them in two parts, are as many as the parts have together. -/
theorem length_eq_total {α ι : Type} {all : List α} {parts : List ι} {part : ι → List α} (hall : all.Nodup)
    (hpart : ∀ i ∈ parts, (part i).Nodup) (hapart : parts.Pairwise fun i j => ∀ a ∈ part i, a ∉ part j)
    (hmem : ∀ a, a ∈ all ↔ ∃ i ∈ parts, a ∈ part i) :
    all.length = Natural.total (parts.map fun i => (part i).length) := by
  have honce : (parts.flatMap part).Nodup :=
    List.nodup_flatMap.mpr ⟨hpart, hapart.imp fun h => List.disjoint_left.mpr fun a => h a⟩
  have hperm : all.Perm (parts.flatMap part) :=
    (List.perm_ext_iff_of_nodup hall honce).mpr fun a => (hmem a).trans List.mem_flatMap.symm
  rw [hperm.length_eq, List.length_flatMap, Natural.total_eq_sum]

theorem Review.isResolvedUnder_iff {tags : List ReviewTag} {r : Review} :
    r.IsResolvedUnder tags ↔ ∃ tag ∈ tags, r.IsResolvedUnder [tag] := by
  simp only [IsResolvedUnder, List.mem_singleton, exists_eq_left]
  constructor
  · rintro ⟨hresolved, tag, hmem, htag⟩
    exact ⟨tag, hmem, hresolved, htag⟩
  · rintro ⟨tag, hmem, hresolved, htag⟩
    exact ⟨hresolved, tag, hmem, htag⟩

theorem Review.tag_of_resolved {tag : ReviewTag} {r : Review} (h : r.IsResolvedUnder [tag]) : r.tag = some tag := by
  obtain ⟨-, only, hmem, htag⟩ := h
  exact List.mem_singleton.mp hmem ▸ htag

namespace Store

variable {s : Store} {range : Option DateRange}

def taggedCount (s : Store) (range : Option DateRange) (tag : ReviewTag) (resolved : Bool) : Nat :=
  (s.taggedBank ⟨[tag], resolved, range, none⟩).length + (s.taggedKeys ⟨[tag], resolved, range, none⟩).length

/-- The resolved records are listed tag by tag, each under its own. -/
theorem length_resolvedBank (hs : s.Sound) (range : Option DateRange) {tags : List ReviewTag} (htags : tags.Nodup) :
    (s.resolvedBank tags range).length = Natural.total (tags.map fun tag => (s.resolvedBank [tag] range).length) := by
  have honce : ∀ tags, (s.resolvedBank tags range).Nodup := fun tags => (ascending_taggedBank hs _).nodup_names.of_map
  refine length_eq_total (honce tags) (fun tag _ => honce [tag]) (htags.imp fun {a b} hne r ha hb => ?_) fun r => ?_
  · have htag := Review.tag_of_resolved (mem_resolvedBank.mp ha).2.1
    have htag' := Review.tag_of_resolved (mem_resolvedBank.mp hb).2.1
    exact hne (Option.some.inj (htag.symm.trans htag'))
  · simp only [mem_resolvedBank]
    rw [Review.isResolvedUnder_iff]
    constructor
    · rintro ⟨hr, ⟨tag, hmem, hresolved⟩, hrange⟩
      exact ⟨tag, hmem, hr, hresolved, hrange⟩
    · rintro ⟨tag, hmem, hr, hresolved, hrange⟩
      exact ⟨hr, ⟨tag, hmem, hresolved⟩, hrange⟩

/-- The keys with resolved postings are listed tag by tag, each under one of them. -/
theorem length_resolvedKeys (hone : s.OneTagEach) (range : Option DateRange) :
    (s.resolvedKeys ReviewTag.autoResolvable range).length =
      Natural.total (ReviewTag.autoResolvable.map fun tag => (s.resolvedKeys [tag] range).length) := by
  have honce : ∀ tags, (s.resolvedKeys tags range).Nodup := fun tags =>
    (ascending_taggedKeys s _).nodup_names.of_map
  have htags : ReviewTag.autoResolvable.Nodup := by decide
  refine length_eq_total (honce _) (fun tag _ => honce [tag])
    (htags.imp_of_mem fun {a b} ha hb hne key hkey hkey' => ?_) fun key => ?_
  · obtain ⟨p, hp, hresolved, -, hpkey⟩ := mem_resolvedKeys.mp hkey
    obtain ⟨q, hq, hresolved', -, hqkey⟩ := mem_resolvedKeys.mp hkey'
    have hsame := hone p hp q hq (hpkey.trans hqkey.symm) (Review.isResolvedUnder_iff.mpr ⟨a, ha, hresolved⟩)
      (Review.isResolvedUnder_iff.mpr ⟨b, hb, hresolved'⟩)
    rw [Review.tag_of_resolved hresolved, Review.tag_of_resolved hresolved'] at hsame
    exact hne (Option.some.inj hsame)
  · simp only [mem_resolvedKeys, HasResolved]
    constructor
    · rintro ⟨p, hp, hresolved, hrest⟩
      obtain ⟨tag, hmem, hresolved⟩ := Review.isResolvedUnder_iff.mp hresolved
      exact ⟨tag, hmem, p, hp, hresolved, hrest⟩
    · rintro ⟨tag, hmem, p, hp, hresolved, hrest⟩
      exact ⟨p, hp, Review.isResolvedUnder_iff.mpr ⟨tag, hmem, hresolved⟩, hrest⟩

end Store

theorem effect_resolutionStats {σ : Type} {repo : Repository σ} {content : σ → Store}
    (hanswers : repo.AnswersFrom content) (range : Option DateRange) (state : σ) :
    repo.effect (resolutionStats range) state = (.ok (ReviewTag.autoResolvable.map fun tag =>
      ⟨tag, (content state).taggedCount range tag true, (content state).taggedCount range tag false⟩), state) := by
  have hcount : ∀ tag resolved, repo.effect (TagStats.count tag resolved range) state =
      (.ok ((content state).taggedCount range tag resolved), state) := fun tag resolved =>
    (hanswers.effect_query _ _ state).trans (hanswers.effect_query _ _ state)
  refine Repository.effect_inOrder fun tag _ => ?_
  exact (Repository.effect_bind (hcount tag true)).trans (Repository.effect_bind (hcount tag false))

/-- Where each key has one tag, a report has as many rows as are counted. -/
theorem resolvedRows_eq_total {s : Store} (hs : s.Sound) (hone : s.OneTagEach) (range : Option DateRange) :
    (s.resolvedBank ReviewTag.autoResolvable range).length + (s.resolvedKeys ReviewTag.autoResolvable range).length =
      Natural.total (ReviewTag.autoResolvable.map fun tag => s.taggedCount range tag true) := by
  rw [Store.length_resolvedBank hs range (by decide), Store.length_resolvedKeys hone range, Natural.total_eq_sum,
    Natural.total_eq_sum, Natural.total_eq_sum, ← List.sum_map_add]
  rfl

/-! ## The report -/

theorem Store.summed_of_moderate {s : Store} (h : ∀ p ∈ s.ledger, p.amount.Moderate) (tags : List ReviewTag)
    (range : Option DateRange) : s.Summed tags range := by
  intro key _
  have hamounts : ∀ d ∈ (s.postingsByKey [key]).map Posting.amount, d.Moderate := by
    intro d hd
    obtain ⟨p, hp, rfl⟩ := List.mem_map.mp hd
    exact h p (mem_postingsByKey.mp hp).1
  obtain ⟨amount, hamount, -⟩ := Decimal.sum_bounded hamounts
  exact ⟨amount, hamount⟩

/-- **A report has one row for each resolved record and each key with a resolved posting, the latest first.** Where the
amounts of each key have a sum, there are as many rows as are counted if no key has two tags; where those of one have
none, there is no report. -/
theorem report_resolved {m : Memory} (hs : m.store.Sound) {offset : Option Int} (ht : m.store.Timed offset)
    (range : Option DateRange) (tag : Option ReviewTag) :
    (m.store.Summed (ReviewTag.asked tag) range →
      ∃ rows stats, Memory.repository.effect (ResolvedRow.report range none tag) m = (.ok rows, m) ∧
        Memory.repository.effect (resolutionStats range) m = (.ok stats, m) ∧
        ResolvedRow.Reported m.store (ReviewTag.asked tag) range rows ∧
        (tag = none → m.store.OneTagEach → rows.length = Natural.total (stats.map TagStats.resolved))) ∧
      (¬m.store.Summed (ReviewTag.asked tag) range →
        ∃ fault, Memory.repository.effect (ResolvedRow.report range none tag) m =
          (.error (.arithmetic fault), m)) := by
  rw [ResolvedRow.effect_report Memory.repository_answersFrom hs]
  obtain ⟨hsummed, rows, hrows, hdescribed⟩ | ⟨hnot, fault, hfault⟩ :=
    ResolvedRow.mapM_ofKey_cases m.store (ReviewTag.asked tag) range
  · refine ⟨fun _ => ⟨_, _, ?_, effect_resolutionStats Memory.repository_answersFrom range m,
      ResolvedRow.reported_of_listings hs ht hdescribed, fun htag hone => ?_⟩, fun hnot => absurd hsummed hnot⟩
    · have hkept : (rows.map some).filterMap id = rows := List.filterMap_map.trans List.filterMap_some
      rw [hrows, Except.map, hkept]
    · subst htag
      rw [ResolvedRow.latestFirst, List.length_mergeSort, List.length_append, List.length_map,
        ← hdescribed.length_eq, List.map_map]
      exact resolvedRows_eq_total hs hone range
  · refine ⟨fun hsummed => absurd hsummed hnot, fun _ => ⟨fault, ?_⟩⟩
    rw [hfault]
    rfl

namespace ResolvedRow.Sample

def monday : Date :=
  ⟨2024, 5, 6, by decide⟩

/-- Resolved at noon, or so many microseconds later. -/
def resolved (tag : ReviewTag) (microsecond : Nat) : Review :=
  { tag := some tag, resolved := true, resolvedAt := some ⟨monday, 12, 0, 0, microsecond, some 0⟩ }

def record : BankRecord :=
  { id := "record", goalId := "goal", accountId := "account", sourceId := "s1", givenType := .word .deposit,
    date := monday, amount := .finite false 100 0, givenInstruments := [], review := resolved .missingInLedger 0 }

def posting (id key : String) (amount : Decimal) (microsecond : Nat) : Posting :=
  { id := id, goalId := "goal", accountId := "account", sourceId := "s2", channel := "app",
    givenInstrument := .word .moneyMarket, givenType := .word .deposit, date := monday, amount := amount,
    groupKey := some key, review := resolved .missingInBank microsecond }

def store : Store :=
  { bank := [record], ledger := [posting "p1" "group" (.finite false 100 0) 500000] }

def overflowing : Store :=
  { ledger := [posting "p1" "large" (.finite false 9 999999) 0, posting "p2" "large" (.finite false 9 999999) 0] }

theorem isTimed_resolved (tag : ReviewTag) {microsecond : Nat} (h : microsecond < 10 ^ 6) :
    (resolved tag microsecond).IsTimed (some 0) :=
  ⟨_, rfl, ⟨by norm_num, by norm_num, by norm_num, h⟩, rfl⟩

end ResolvedRow.Sample

open ResolvedRow.Sample in
theorem report_resolved_sample :
    ∃ rows stats, Memory.repository.effect (ResolvedRow.report none none none) (.ofStore store) =
        (.ok rows, .ofStore store) ∧
      Memory.repository.effect (resolutionStats none) (.ofStore store) = (.ok stats, .ofStore store) ∧
      ResolvedRow.Reported store ReviewTag.autoResolvable none rows ∧
      rows.length = Natural.total (stats.map TagStats.resolved) ∧ rows.length = 2 := by
  have hsound : store.Sound := ⟨by decide, by decide, by decide +kernel⟩
  have htimed : store.Timed (some 0) :=
    ⟨List.forall_mem_singleton.mpr fun _ => isTimed_resolved _ (by decide),
      List.forall_mem_singleton.mpr fun _ => isTimed_resolved _ (by decide)⟩
  have hmoderate : ∀ p ∈ store.ledger, p.amount.Moderate :=
    List.forall_mem_singleton.mpr ⟨rfl, by norm_num [posting, Decimal.value, Decimal.signed]⟩
  have hone : store.OneTagEach := by
    unfold Store.OneTagEach
    decide
  obtain ⟨rows, stats, hrows, hstats, hreported, htotal⟩ :=
    (report_resolved (m := .ofStore store) hsound htimed none none).1 (Store.summed_of_moderate hmoderate _ _)
  have hcounted : (Memory.repository.effect (resolutionStats none) (.ofStore store)).1.toOption.map
      (fun stats => Natural.total (stats.map TagStats.resolved)) = some 2 := by decide +kernel
  rw [hstats] at hcounted
  have hlength := htotal rfl hone
  exact ⟨rows, stats, hrows, hstats, hreported, hlength, hlength.trans (Option.some.inj hcounted)⟩

open ResolvedRow.Sample in
/-- The amounts of a group may have no sum, although they are finite. -/
theorem report_overflows :
    overflowing.Sound ∧ overflowing.Timed (some 0) ∧ (∀ p ∈ overflowing.ledger, p.amount.isFinite = true) ∧
      overflowing.HasResolved ReviewTag.autoResolvable none "large" ∧
      Memory.repository.effect (ResolvedRow.report none none none) (.ofStore overflowing) =
        (.error (.arithmetic .overflow), .ofStore overflowing) := by
  have hsound : overflowing.Sound := ⟨by decide, by decide, by decide +kernel⟩
  have htimed : overflowing.Timed (some 0) :=
    ⟨fun _ hr => absurd hr List.not_mem_nil, List.forall_mem_cons.mpr ⟨fun _ => isTimed_resolved _ (by decide),
      List.forall_mem_singleton.mpr fun _ => isTimed_resolved _ (by decide)⟩⟩
  have hresolved : overflowing.HasResolved ReviewTag.autoResolvable none "large" :=
    ⟨_, List.mem_cons_self, by decide, rfl, rfl⟩
  refine ⟨hsound, htimed, by decide, hresolved, ?_⟩
  have hkeys : overflowing.resolvedKeys ReviewTag.autoResolvable none = ["large"] := by decide +kernel
  have hamounts : (overflowing.postingsByKey ["large"]).map Posting.amount =
      List.replicate 2 (.finite false 9 999999) :=
    List.perm_replicate.mp ((List.mergeSort_perm _ _).map Posting.amount)
  have hsum : Decimal.sum (List.replicate 2 (.finite false 9 999999)) = .error .overflow := by decide +kernel
  obtain ⟨row, -, hrow⟩ | ⟨fault, hfault, hfails⟩ := ResolvedRow.ofKey_cases hresolved
  · have hamount := hrow.amount
    rw [hamounts, hsum] at hamount
    cases hamount
  · rw [hamounts, hsum] at hfault
    obtain rfl := Except.error.inj hfault
    rw [ResolvedRow.effect_report Memory.repository_answersFrom hsound]
    change (Except.map _ (List.mapM _ (overflowing.resolvedKeys ReviewTag.autoResolvable none)), _) = _
    rw [hkeys, List.mapM_cons]
    change (Except.map _ (ResolvedRow.ofKey overflowing ReviewTag.autoResolvable "large" >>= _), _) = _
    rw [hfails]
    rfl

end GoalReconciliation

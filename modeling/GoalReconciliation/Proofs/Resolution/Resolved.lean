import GoalReconciliation.Proofs.Resolution.Breaking
import GoalReconciliation.Proofs.Store.Together

/-!
# What visits leave

* `performAll_visits` : whatever steps fail, each visit of a chunk stores the resolution that it returns, or nothing;
* `told` : the resolution of a record or key among those of a chunk;
* `resolvedStore` : a store as these resolutions leave it; `resolvedStore_cons` : one after the other;
* `Visits.stored` : **what visits leave are the reviews of the records and keys that they have resolved**.
-/

namespace GoalReconciliation.Sweep

set_option autoImplicit false

open Store (keyOf)

/-! ## Visits under faults -/

/-- Whatever steps fail, a visit stores the resolution that it returns, or changes nothing. -/
theorem perform_visited (faults : Option Faults) (t : Tolerance) (now : Timestamp) (batchId : String) (task : Task)
    {m : Memory} (hm : m.depth = 0) :
    (task.perform faults t now batchId m).2.depth = 0 ∧
      Visited now batchId m.store (task, (task.perform faults t now batchId m).1)
        (task.perform faults t now batchId m).2.store := by
  obtain hidle | ⟨p, v, hresolution, hperform⟩ := perform_cases faults t now batchId task m
  · rw [hidle.left]
    exact ⟨hm, .idle hidle.nothing⟩
  · rw [hperform]
    cases hresolution with
    | record hfresh hreason htag =>
        obtain hsave | ⟨failure, hsave⟩ := Memory.saveRecord_stores faults _ m
        · rw [Repository.effect_bind hsave]
          exact ⟨hm, .record rfl rfl⟩
        · rw [Repository.effect_bind_error hsave]
          exact ⟨hm, .idle fun v h => by cases h⟩
    | group htagged hfresh hreason =>
        obtain ⟨m', hdepth, ⟨hsave, hstored⟩ | ⟨⟨failure, hsave⟩, hkept⟩⟩ := Memory.saveAll_stores faults _ hm
        · rw [Repository.effect_bind hsave]
          exact ⟨hdepth, .group rfl (taggedGroup_key htagged) hstored.one⟩
        · rw [Repository.effect_bind_error hsave, hkept]
          exact ⟨hdepth, .idle fun v h => by cases h⟩

theorem performAll_visits (faults : Option Faults) (t : Tolerance) (now : Timestamp) (batchId : String)
    (tasks : List Task) {m : Memory} (hm : m.depth = 0) :
    Visits now batchId m.store (performAll faults t now batchId tasks m).1
      (performAll faults t now batchId tasks m).2.store := by
  induction tasks generalizing m with
  | nil => exact .nil _
  | cons task rest ih =>
      obtain ⟨hdepth, hvisited⟩ := perform_visited faults t now batchId task hm
      exact .cons hvisited (ih hdepth)

/-! ## Resolutions -/

/-- The resolution of a record or key, among those of a chunk. -/
def told (details : List ResolvedVariance) (side : Side) (name : String) : Option ResolvedVariance :=
  details.find? fun v => decide ((v.side, v.recordId) = (side, name))

def isPending (p : Posting) : Bool :=
  p.review.tag.any (ReviewTag.sweptOnLedger.contains ·) && !p.review.resolved

section Told

variable {details : List ResolvedVariance} {side : Side} {name : String} {v : ResolvedVariance}

theorem told_eq_some (h : told details side name = some v) : v ∈ details ∧ (v.side, v.recordId) = (side, name) := by
  unfold told at h
  exact ⟨List.mem_of_find?_eq_some h, by simpa using List.find?_some h⟩

theorem told_eq_none :
    told details side name = none ↔ (side, name) ∉ details.map fun v => (v.side, v.recordId) := by
  simp only [told, List.find?_eq_none, decide_eq_true_eq, List.mem_map, not_exists, not_and]

theorem told_cons_of_eq (h : (v.side, v.recordId) = (side, name)) : told (v :: details) side name = some v :=
  List.find?_cons_of_pos (decide_eq_true h)

theorem told_cons_of_ne (h : (v.side, v.recordId) ≠ (side, name)) :
    told (v :: details) side name = told details side name :=
  List.find?_cons_of_neg (by simpa using h)

end Told

section Left

variable (now : Timestamp) (batchId : String)

def resolvedReview (found : Option ResolvedVariance) (review : Review) : Review :=
  match found with
  | some v => review.resolve v.reason batchId now
  | none => review

def resolvedRecord (details : List ResolvedVariance) (r : BankRecord) : BankRecord :=
  { r with review := resolvedReview now batchId (told details .bank r.id) r.review }

/-- A posting as the resolutions of a chunk leave it: that of its key is for the pending ones. -/
def resolvedPosting (details : List ResolvedVariance) (p : Posting) : Posting :=
  if isPending p then { p with review := resolvedReview now batchId (told details .ledger (keyOf p)) p.review } else p

def resolvedStore (details : List ResolvedVariance) (s : Store) : Store :=
  ⟨s.bank.map (resolvedRecord now batchId details), s.ledger.map (resolvedPosting now batchId details)⟩

section Apart

variable {now batchId} {details : List ResolvedVariance} {v : ResolvedVariance}

theorem resolvedRecord_of_none {r : BankRecord} (h : told details .bank r.id = none) :
    resolvedRecord now batchId details r = r := by
  rw [resolvedRecord, h]
  rfl

theorem resolvedPosting_of_none {p : Posting} (h : told details .ledger (keyOf p) = none) :
    resolvedPosting now batchId details p = p := by
  rw [resolvedPosting, h]
  split <;> rfl

theorem resolvedPosting_key (details : List ResolvedVariance) (p : Posting) :
    keyOf (resolvedPosting now batchId details p) = keyOf p := by
  unfold resolvedPosting
  split <;> rfl

theorem resolvedPosting_id (details : List ResolvedVariance) (p : Posting) :
    (resolvedPosting now batchId details p).id = p.id := by
  unfold resolvedPosting
  split <;> rfl

theorem resolvedStore_nil (s : Store) : resolvedStore now batchId [] s = s := by
  have hbank : s.bank.map (resolvedRecord now batchId []) = s.bank.map id :=
    List.map_congr_left fun r _ => resolvedRecord_of_none rfl
  have hledger : s.ledger.map (resolvedPosting now batchId []) = s.ledger.map id :=
    List.map_congr_left fun p _ => resolvedPosting_of_none rfl
  rw [resolvedStore, hbank, hledger, List.map_id, List.map_id]

/-- Resolutions of different records and keys are written one after the other. -/
theorem resolvedStore_cons (hnew : (v.side, v.recordId) ∉ details.map fun v => (v.side, v.recordId)) (s : Store) :
    resolvedStore now batchId (v :: details) s =
      resolvedStore now batchId details (resolvedStore now batchId [v] s) := by
  have hrecord : ∀ r, resolvedRecord now batchId (v :: details) r =
      resolvedRecord now batchId details (resolvedRecord now batchId [v] r) := by
    intro r
    by_cases h : (v.side, v.recordId) = (.bank, r.id)
    · have hnone : told details .bank (resolvedRecord now batchId [v] r).id = none := told_eq_none.mpr (h ▸ hnew)
      rw [resolvedRecord_of_none hnone, resolvedRecord, resolvedRecord, told_cons_of_eq h, told_cons_of_eq h]
    · have hnone : told [v] .bank r.id = none := told_cons_of_ne h
      rw [resolvedRecord_of_none hnone, resolvedRecord, told_cons_of_ne h]
      rfl
  have hposting : ∀ p, resolvedPosting now batchId (v :: details) p =
      resolvedPosting now batchId details (resolvedPosting now batchId [v] p) := by
    intro p
    by_cases h : (v.side, v.recordId) = (.ledger, keyOf p)
    · have hnone : told details .ledger (keyOf (resolvedPosting now batchId [v] p)) = none := by
        rw [resolvedPosting_key]
        exact told_eq_none.mpr (h ▸ hnew)
      rw [resolvedPosting_of_none hnone, resolvedPosting, resolvedPosting, told_cons_of_eq h, told_cons_of_eq h]
    · have hnone : told [v] .ledger (keyOf p) = none := told_cons_of_ne h
      rw [resolvedPosting_of_none hnone, resolvedPosting, told_cons_of_ne h]
      rfl
  unfold resolvedStore
  rw [List.map_map, List.map_map, funext hrecord, funext hposting]
  rfl

theorem resolvedStore_plain (details : List ResolvedVariance) (s : Store) :
    (resolvedStore now batchId details s).plain = s.plain := by
  have hposting : ∀ p, (resolvedPosting now batchId details p).plain = p.plain := by
    intro p
    unfold resolvedPosting
    split <;> rfl
  unfold resolvedStore Store.plain
  simp only [List.map_map, Function.comp_def, hposting]
  rfl

end Apart

/-! ## Visits -/

variable {now batchId} {s s' : Store}

theorem putBank_resolved (hs : s.Sound) {r : BankRecord} (hr : r ∈ s.bank) {v : ResolvedVariance}
    (hname : (v.side, v.recordId) = (.bank, r.id)) :
    s.putBank { r with review := r.review.resolve v.reason batchId now } = resolvedStore now batchId [v] s := by
  have hbank : (s.putBank { r with review := r.review.resolve v.reason batchId now }).bank =
      s.bank.map (resolvedRecord now batchId [v]) := by
    have hstored : r.id ∈ s.bank.map BankRecord.id := List.mem_map_of_mem hr
    have hput : (s.putBank { r with review := r.review.resolve v.reason batchId now }).bank =
        s.bank.map fun x => if x.id = r.id then { r with review := r.review.resolve v.reason batchId now } else x :=
      replaceOrAdd_eq_map hs.bank_once hstored
    refine hput.trans (List.map_congr_left fun x hx => ?_)
    by_cases hid : x.id = r.id
    · obtain rfl := Lookup.eq_of_name hs.bank_once hx hr hid
      rw [if_pos rfl, resolvedRecord, told_cons_of_eq hname]
      rfl
    · have hne : (v.side, v.recordId) ≠ (.bank, x.id) := fun h => hid (congrArg Prod.snd (h.symm.trans hname))
      rw [if_neg hid, resolvedRecord_of_none (told_cons_of_ne hne)]
  have hledger : s.ledger.map (resolvedPosting now batchId [v]) = s.ledger.map id := by
    refine List.map_congr_left fun p _ => resolvedPosting_of_none (told_cons_of_ne fun h => ?_)
    cases hname.symm.trans h
  rw [resolvedStore, ← hbank, hledger, List.map_id]
  rfl

theorem mem_pending {key : String} {p : Posting} :
    p ∈ pending (s.postingsByKey [key]) ↔ p ∈ s.ledger ∧ keyOf p = key ∧ isPending p = true := by
  have hpending : pending (s.postingsByKey [key]) = (s.postingsByKey [key]).filter isPending := rfl
  rw [hpending, List.mem_filter, Store.mem_postingsByKey, and_assoc]

theorem nodup_pending (hs : s.Sound) (key : String) :
    ((pending (s.postingsByKey [key])).map Posting.id).Nodup :=
  (Store.nodup_postingsByKey hs [key]).sublist (List.filter_sublist.map _)

theorem putPostings_resolved (hs : s.Sound) {v : ResolvedVariance} {key : String}
    (hname : (v.side, v.recordId) = (.ledger, key)) :
    s.putPostings ((pending (s.postingsByKey [key])).map fun p =>
        { p with review := p.review.resolve v.reason batchId now }) =
      (.ok (), resolvedStore now batchId [v] s) := by
  have hchosen : ∀ p, p ∈ pending (s.postingsByKey [key]) ↔
      p ∈ s.ledger ∧ (decide (keyOf p = key) && isPending p) = true := fun p => by
    rw [mem_pending, Bool.and_eq_true, decide_eq_true_eq]
  have hbank : s.bank.map (resolvedRecord now batchId [v]) = s.bank.map id := by
    refine List.map_congr_left fun r _ => resolvedRecord_of_none (told_cons_of_ne fun h => ?_)
    cases hname.symm.trans h
  refine (Store.putPostings_chosen hs (nodup_pending hs key) hchosen
    fun review => review.resolve v.reason batchId now).trans ?_
  rw [resolvedStore, hbank, List.map_id]
  refine Prod.ext rfl (congrArg (fun ledger => { s with ledger := ledger }) (List.map_congr_left fun p _ => ?_))
  by_cases hkey : keyOf p = key
  · rw [decide_eq_true hkey, Bool.true_and, resolvedPosting, told_cons_of_eq (hkey ▸ hname)]
    rfl
  · have hne : (v.side, v.recordId) ≠ (.ledger, keyOf p) := fun h => hkey (congrArg Prod.snd (h.symm.trans hname))
    rw [decide_eq_false hkey, Bool.false_and, resolvedPosting_of_none (told_cons_of_ne hne)]
    rfl

/-- What a visit leaves is the review of what it has resolved. -/
theorem Visited.stored {entry : Entry} (h : Visited now batchId s entry s') (hs : s.Sound)
    (hmem : ∀ r, entry.1 = .record r → r ∈ s.bank) :
    s' = resolvedStore now batchId entry.resolved?.toList s := by
  cases h with
  | @idle task outcome hnone =>
      have hresolved : Entry.resolved? (task, outcome) = none :=
        Option.eq_none_iff_forall_ne_some.mpr fun v hv => hnone v (Entry.outcome_of_resolved hv)
      rw [hresolved]
      exact (resolvedStore_nil s).symm
  | record hside hname => exact putBank_resolved hs (hmem _ rfl) (Prod.ext hside hname)
  | group hside hname hstored =>
      rw [putPostings_resolved hs (Prod.ext hside hname)] at hstored
      exact (congrArg Prod.snd hstored).symm

/-- What visits of different records and keys leave are the reviews of those that they have resolved. -/
theorem Visits.stored {entries : List Entry} (h : Visits now batchId s entries s') (hs : s.Sound)
    (honce : (entries.map fun entry => entry.1.name).Nodup)
    (hmem : ∀ entry ∈ entries, ∀ r, entry.1 = .record r → r ∈ s.bank) :
    s' = resolvedStore now batchId (entries.filterMap Entry.resolved?) s := by
  induction h with
  | nil s => exact (resolvedStore_nil s).symm
  | @cons s s₁ s' entry entries hfirst hrest ih =>
      obtain ⟨hnew, honce⟩ := List.nodup_cons.mp honce
      obtain ⟨hmem, hothers⟩ := List.forall_mem_cons.mp hmem
      have hstored := hfirst.stored hs hmem
      have hsound : s₁.Sound := hs.of_plain (hstored ▸ resolvedStore_plain _ s)
      -- A record that is yet to be visited is not among what the first visit has resolved.
      have hothers' : ∀ entry ∈ entries, ∀ r, entry.1 = .record r → r ∈ s₁.bank := by
        intro other hother r hr
        have hunresolved : resolvedRecord now batchId entry.resolved?.toList r = r := by
          refine resolvedRecord_of_none (told_eq_none.mpr fun hin => ?_)
          obtain ⟨v, hv, hname⟩ := List.mem_map.mp hin
          have hfirstName := hfirst.named (Option.mem_toList.mp hv)
          have hsame : entry.1.name = other.1.name := by
            rw [← hfirstName, hname, hr]
            rfl
          exact hnew (List.mem_map.mpr ⟨other, hother, hsame.symm⟩)
        rw [hstored]
        exact hunresolved ▸ List.mem_map_of_mem (hothers other hother r hr)
      rw [ih hsound honce hothers']
      cases hresolved : entry.resolved? with
      | none =>
          rw [List.filterMap_cons_none hresolved, hstored, hresolved]
          exact congrArg _ (resolvedStore_nil s)
      | some v =>
          have hfirstName := hfirst.named hresolved
          have hnames : ∀ entry ∈ entries, ∀ v, entry.resolved? = some v → (v.side, v.recordId) = entry.1.name :=
            hrest.named
          rw [List.filterMap_cons_some hresolved, hstored, hresolved]
          refine (resolvedStore_cons (fun hin => hnew ?_) s).symm
          rw [hfirstName] at hin
          exact (map_filterMap_sublist hnames).subset hin

end Left

end GoalReconciliation.Sweep

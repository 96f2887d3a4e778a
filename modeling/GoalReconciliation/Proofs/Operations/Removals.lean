import GoalReconciliation.Proofs.Operations.Selections
import GoalReconciliation.Proofs.Store.Listing
import GoalReconciliation.Proofs.Store.Locality

/-!
# Matches that are removed

* `Store.foldl_putBank_changed` : stored records changed one by one; `Memory.saveAll_bank_spared` : records saved by
  steps that do not fail; `Memory.run_commits` : what a procedure that saves once leaves where it succeeds;
* `ManualMatch.Removes` : the records that a removal concerns; `mem_removed`, `nodup_removed` : it selects each of them
  once;
* `ManualMatch.Removal` : what it leaves and tells; `effect_saveCleared` : its save; `effect_remove`,
  `effect_remove_twice` : a removal, and the same one again;
* `create_links` : a match that is made leaves its link on each of its records;
* `remove_clears` : **a removal clears just the records that it concerns and tells their ids; a second one finds nothing;
  and a match can be removed by any one of its groups**.
-/

namespace GoalReconciliation

set_option autoImplicit false

/-! ## Records saved -/

theorem Store.foldl_putBank_changed {s : Store} (hs : (s.bank.map BankRecord.id).Nodup) {f : BankRecord → BankRecord}
    (hf : ∀ r, (f r).id = r.id) {chosen : List BankRecord} (hchosen : chosen ⊆ s.bank)
    (honce : (chosen.map BankRecord.id).Nodup) :
    (chosen.map f).foldl Store.putBank s =
      { s with bank := s.bank.map fun r => if r ∈ chosen then f r else r } := by
  have hids : (chosen.map f).map BankRecord.id = chosen.map BankRecord.id := by
    rw [List.map_map]
    exact List.map_congr_left fun r _ => hf r
  have hbank : ((chosen.map f).foldl Store.putBank s).bank = s.bank.map fun r => if r ∈ chosen then f r else r := by
    rw [bank_foldl_putBank hs (hids ▸ honce)]
    · refine List.map_congr_left fun r hr => ?_
      rw [List.find?_map]
      split
      · rename_i hmem
        have hfind : chosen.find? ((fun w => decide (w.id = r.id)) ∘ f) = some r := by
          have hname : ((fun w : BankRecord => decide (w.id = r.id)) ∘ f) = fun w => decide (w.id = r.id) := by
            funext w
            simp [hf]
          rw [hname]
          exact (Lookup.find?_eq_some_iff honce).mpr ⟨hmem, rfl⟩
        rw [hfind]
        rfl
      · rename_i hmem
        have hnone : chosen.find? ((fun w => decide (w.id = r.id)) ∘ f) = none := by
          refine List.find?_eq_none.mpr fun w hw => ?_
          simp only [Function.comp_apply, hf, decide_eq_true_eq]
          intro hid
          exact hmem (Lookup.eq_of_name hs (hchosen hw) hr hid ▸ hw)
        rw [hnone]
        rfl
    · intro w hw
      obtain ⟨r, hr, rfl⟩ := List.mem_map.mp hw
      rw [hf]
      exact List.mem_map_of_mem (hchosen hr)
  calc (chosen.map f).foldl Store.putBank s
      = ⟨((chosen.map f).foldl Store.putBank s).bank, ((chosen.map f).foldl Store.putBank s).ledger⟩ := rfl
    _ = _ := by rw [hbank, Store.ledger_foldl_putBank]

namespace Memory

variable {faults : Option Faults}

theorem saveAll_bank_spared {records : List BankRecord} (h : saveOutcome faults records = .ok ()) (m : Memory) :
    ((under faults).answer (.saveAll [.bank records]) m).1 = .ok () ∧
      ((under faults).answer (.saveAll [.bank records]) m).2.store = records.foldl Store.putBank m.store := by
  have hfine : ((under faults).answer (.saveAll [.bank records]) m).1 = .ok () := by
    have hsaved := (save_outcome faults records m.enter).trans h
    change ((under faults).inScope ((under faults).saveEach [.bank records]) m).1 = .ok ()
    unfold Repository.inScope Repository.saveEach Repository.close
    rw [under_enter, under_leave]
    generalize (under faults).save (.bank records) m.enter = saved at hsaved
    obtain ⟨outcome, next⟩ := saved
    obtain rfl : outcome = .ok () := hsaved
    by_cases hdepth : 1 < next.depth <;> simp [Repository.saveEach, leave, hdepth]
  exact ⟨hfine, saveAll_bank_ok hfine⟩

theorem saveOutcome_spared {records : List BankRecord}
    (h : ∀ f ∈ faults, ∀ r ∈ records, r.id ∉ f.bank) : saveOutcome faults records = .ok () := by
  cases faults with
  | none => rfl
  | some f =>
      have hnone : records.any (fun r => f.bank.contains r.id) = false := by simpa using h f rfl
      rw [saveOutcome, hnone]
      rfl

theorem run_reports {β : Type} {b : β} {p : Procedure β} (hp : p.Reports b) (m : Memory) :
    ((under faults).run p m).outcome = .ok b ∧ ((under faults).run p m).state = m := by
  induction p with
  | done outcome => exact ⟨hp, rfl⟩
  | ask request next => cases hp
  | record event rest ih => exact ih hp

/-- A procedure that saves once and succeeds leaves what it has saved. -/
theorem run_commits {β : Type} {Q : List BankRecord → β → Prop} {p : Procedure β} (hp : p.Commits Q) {m : Memory}
    {b : β} (h : ((under faults).run p m).outcome = .ok b) :
    ∃ records, Q records b ∧ ((under faults).run p m).state.store = records.foldl Store.putBank m.store := by
  induction p generalizing m with
  | done outcome =>
      obtain ⟨failure, rfl⟩ := hp
      cases h
  | ask request next ih =>
      cases request with
      | query question =>
          have hasked : ((under faults).answer (.query question) m).2 = m := under_query_state faults question m
          obtain ⟨records, hQ, hstore⟩ := ih _ (hp _) h
          exact ⟨records, hQ, hstore.trans (congrArg (fun m => records.foldl Store.putBank (store m)) hasked)⟩
      | save w => cases hp
      | saveAll writes =>
          obtain ⟨⟨records, b', rfl, hQ, hreports⟩, hfails⟩ := hp
          cases hanswer : (under faults).answer (.saveAll [.bank records]) m with
          | mk answer next' =>
              rw [Repository.run_asked _ hanswer] at h ⊢
              cases answer with
              | error failure =>
                  obtain ⟨failure', hnext⟩ := hfails failure
                  rw [hnext] at h
                  cases h
              | ok _ =>
                  have hstored := saveAll_bank_ok (congrArg Prod.fst hanswer)
                  rw [hanswer] at hstored
                  obtain ⟨houtcome, hstate⟩ := run_reports hreports next'
                  obtain rfl := Except.ok.inj (houtcome.symm.trans h)
                  exact ⟨records, hQ, (congrArg store hstate).trans hstored⟩
  | record event rest ih => cases hp

end Memory

namespace ManualMatch

/-! ## What a removal selects -/

/-- A removal by ids and by groups concerns a record: it has a match and its id is named, or it has an operator's link
that names one of the groups. -/
def Removes (ids keys : List String) (r : BankRecord) : Prop :=
  ∃ link ∈ r.reference, r.id ∈ ids ∨ link.matchType = .manual ∧ ∃ key ∈ keys, key ∈ link.groupKeys

instance (ids keys : List String) : DecidablePred (Removes ids keys) := fun r =>
  inferInstanceAs (Decidable (∃ link ∈ r.reference, _))

end ManualMatch

namespace Store

variable {s : Store}

def holders (s : Store) (key : String) : List BankRecord :=
  (s.manualMatches none).filter fun r => r.reference.any (·.references key)

theorem mem_holders {key : String} {r : BankRecord} :
    r ∈ s.holders key ↔ r ∈ s.bank ∧ ∃ link ∈ r.reference, link.matchType = .manual ∧ key ∈ link.groupKeys := by
  rw [holders, List.mem_filter, manualMatches, (Sorting.byText_perm _ _).mem_iff, List.mem_filter, and_assoc]
  refine and_congr_right fun _ => ?_
  cases hlink : r.reference with
  | none => simp
  | some link =>
      simp [BankRecord.hasManualMatch, hlink, isGoal, MatchReference.isManual, MatchReference.references]

def named (s : Store) (ids keys : List String) : List BankRecord :=
  keys.foldl (fun all key => ManualMatch.addNew all (s.holders key)) (s.bankById ids)

def removed (s : Store) (ids keys : List String) : List BankRecord :=
  (s.named ids keys).filter BankRecord.isMatched

end Store

namespace ManualMatch

open Memory (under)

structure Picks (s : Store) (picked : List BankRecord) : Prop where
  stored : picked ⊆ s.bank
  once : (picked.map BankRecord.id).Nodup

section Picks

variable {s : Store}

theorem Picks.addOne (hs : (s.bank.map BankRecord.id).Nodup) {picked : List BankRecord} (h : Picks s picked)
    {r : BankRecord} (hr : r ∈ s.bank) :
    Picks s (addNew picked [r]) ∧ ∀ x, x ∈ addNew picked [r] ↔ x ∈ picked ∨ x = r := by
  show Picks s (if (picked.map BankRecord.id).contains r.id then picked else picked ++ [r]) ∧
    ∀ x, x ∈ (if (picked.map BankRecord.id).contains r.id then picked else picked ++ [r]) ↔ x ∈ picked ∨ x = r
  split
  · rename_i hthere
    obtain ⟨old, hold, hid⟩ := List.mem_map.mp (List.contains_iff_mem.mp hthere)
    obtain rfl := Lookup.eq_of_name hs (h.stored hold) hr hid
    refine ⟨h, fun x => ⟨Or.inl, ?_⟩⟩
    rintro (hx | rfl)
    · exact hx
    · exact hold
  · rename_i hnew
    refine ⟨⟨?_, ?_⟩, fun x => by simp⟩
    · intro x hx
      rcases List.mem_append.mp hx with hx | hx
      · exact h.stored hx
      · exact List.mem_singleton.mp hx ▸ hr
    · rw [List.map_append, List.map_singleton, ← List.concat_eq_append]
      exact h.once.concat fun hmem => hnew (List.contains_iff_mem.mpr hmem)

theorem addNew_cons (picked : List BankRecord) (r : BankRecord) (more : List BankRecord) :
    addNew picked (r :: more) = addNew (addNew picked [r]) more := rfl

theorem Picks.addNew (hs : (s.bank.map BankRecord.id).Nodup) {picked more : List BankRecord} (h : Picks s picked)
    (hmore : more ⊆ s.bank) :
    Picks s (addNew picked more) ∧ ∀ x, x ∈ ManualMatch.addNew picked more ↔ x ∈ picked ∨ x ∈ more := by
  induction more generalizing picked with
  | nil => exact ⟨h, fun x => by simp [ManualMatch.addNew]⟩
  | cons r more ih =>
      obtain ⟨hr, hrest⟩ := List.cons_subset.mp hmore
      obtain ⟨hone, hmem⟩ := h.addOne hs hr
      obtain ⟨hpicks, hall⟩ := ih hone hrest
      rw [addNew_cons]
      refine ⟨hpicks, fun x => ?_⟩
      rw [hall, hmem, List.mem_cons, or_assoc]

theorem Picks.addHolders (hs : (s.bank.map BankRecord.id).Nodup) (keys : List String) {picked : List BankRecord}
    (h : Picks s picked) :
    Picks s (keys.foldl (fun all key => ManualMatch.addNew all (s.holders key)) picked) ∧
      ∀ r, r ∈ keys.foldl (fun all key => ManualMatch.addNew all (s.holders key)) picked ↔
        r ∈ picked ∨ ∃ key ∈ keys, r ∈ s.holders key := by
  induction keys generalizing picked with
  | nil => exact ⟨h, fun r => by simp⟩
  | cons key keys ih =>
      have hstored : s.holders key ⊆ s.bank := fun r hr => (Store.mem_holders.mp hr).1
      obtain ⟨hnext, hmem⟩ := h.addNew hs hstored
      obtain ⟨hpicks, hall⟩ := ih hnext
      refine ⟨hpicks, fun r => ?_⟩
      rw [List.foldl_cons, hall, hmem, List.exists_mem_cons_iff, or_assoc]

theorem picks_bankById (hs : (s.bank.map BankRecord.id).Nodup) (ids : List String) : Picks s (s.bankById ids) :=
  ⟨fun _ hr => ((Store.mem_bankById_iff hs).mp hr).1, s.nodup_bankById ids⟩

theorem mem_removed (hs : (s.bank.map BankRecord.id).Nodup) {ids keys : List String} {r : BankRecord} :
    r ∈ s.removed ids keys ↔ r ∈ s.bank ∧ Removes ids keys r := by
  have hnamed : r ∈ s.named ids keys ↔ r ∈ s.bankById ids ∨ ∃ key ∈ keys, r ∈ s.holders key :=
    ((picks_bankById hs ids).addHolders hs keys).2 r
  rw [Store.removed, List.mem_filter, hnamed, Store.mem_bankById_iff hs]
  simp only [Store.mem_holders]
  cases hlink : r.reference with
  | none => simp [Removes, BankRecord.isMatched, hlink]
  | some link =>
      simp only [Removes, BankRecord.isMatched, hlink, Option.mem_def, Option.some.injEq, exists_eq_left']
      constructor
      · rintro ⟨⟨hr, hid⟩ | ⟨key, hkey, hr, hmanual, hnames⟩, -⟩
        · exact ⟨hr, .inl hid⟩
        · exact ⟨hr, .inr ⟨hmanual, key, hkey, hnames⟩⟩
      · rintro ⟨hr, hid | ⟨hmanual, key, hkey, hnames⟩⟩
        · exact ⟨.inl ⟨hr, hid⟩, rfl⟩
        · exact ⟨.inr ⟨key, hkey, hr, hmanual, hnames⟩, rfl⟩

theorem nodup_removed (hs : (s.bank.map BankRecord.id).Nodup) (ids keys : List String) :
    ((s.removed ids keys).map BankRecord.id).Nodup :=
  ((picks_bankById hs ids).addHolders hs keys).1.once.sublist (List.filter_sublist.map _)

end Picks

/-! ## What a removal does -/

variable {faults : Option Faults} {m : Memory}

theorem effect_holding (key : String) : (under faults).effect (holding key) m = (.ok (m.store.holders key), m) := by
  have hmanual : (under faults).effect (Procedure.manualMatches none) m = (.ok (m.store.manualMatches none), m) :=
    Memory.effect_query (fun _ _ => rfl) m
  exact Repository.effect_bind hmanual

theorem effect_addHolding (keys : List String) (picked : List BankRecord) :
    (under faults).effect (addHolding keys picked) m =
      (.ok (keys.foldl (fun all key => addNew all (m.store.holders key)) picked), m) := by
  induction keys generalizing picked with
  | nil => rfl
  | cons key keys ih => exact (Repository.effect_bind (effect_holding key)).trans (ih _)

def clearing (ids keys : List String) (r : BankRecord) : BankRecord :=
  if Removes ids keys r then
    { r with
      reference := none
      matchedAt := none
      score := none
      status := .pending }
  else r

@[simp] theorem clearing_id (ids keys : List String) (r : BankRecord) : (clearing ids keys r).id = r.id := by
  unfold clearing
  split <;> rfl

theorem clearing_ids (ids keys : List String) (records : List BankRecord) :
    (records.map (clearing ids keys)).map BankRecord.id = records.map BankRecord.id := by
  rw [List.map_map]
  exact List.map_congr_left fun r _ => clearing_id ids keys r

theorem clearing_removes (ids keys : List String) (r : BankRecord) : ¬Removes ids keys (clearing ids keys r) := by
  unfold clearing
  split
  · rintro ⟨link, hlink, -⟩
    cases hlink
  · assumption

/-- What a removal leaves and tells: the records that it concerns have no match, all else is as before, and the ids of
these records are told in ascending order, each once. -/
structure Removal (ids keys : List String) (before after : Store) (told : List String) : Prop where
  store : after = { before with bank := before.bank.map (clearing ids keys) }
  ascending : Ascending id told
  told_iff : ∀ id, id ∈ told ↔ ∃ r ∈ before.bank, Removes ids keys r ∧ r.id = id

/-- No step of the removal fails: the records that it clears can be stored. -/
def Spared (faults : Option Faults) (ids keys : List String) (s : Store) : Prop :=
  ∀ f ∈ faults, ∀ r ∈ s.bank, Removes ids keys r → r.id ∉ f.bank

theorem removal_of_removed {s : Store} (hs : (s.bank.map BankRecord.id).Nodup) (ids keys : List String) :
    Removal ids keys s (((s.removed ids keys).map BankRecord.clearMatch).foldl Store.putBank s)
      (Sorting.ascending ((s.removed ids keys).map BankRecord.id)) where
  store := by
    have hstored : s.removed ids keys ⊆ s.bank := fun r hr => ((mem_removed hs).mp hr).1
    rw [Store.foldl_putBank_changed hs (f := BankRecord.clearMatch) (fun _ => rfl) hstored (nodup_removed hs ids keys)]
    congr 1
    refine List.map_congr_left fun r hr => ?_
    unfold clearing
    by_cases hremoves : Removes ids keys r
    · rw [if_pos ((mem_removed hs).mpr ⟨hr, hremoves⟩), if_pos hremoves]
      rfl
    · rw [if_neg fun hmem => hremoves ((mem_removed hs).mp hmem).2, if_neg hremoves]
  ascending := by
    refine Ascending.of_byText ?_
    rw [List.map_id]
    exact nodup_removed hs ids keys
  told_iff id := by
    show id ∈ Sorting.byText _ _ ↔ _
    rw [(Sorting.byText_perm _ _).mem_iff, List.mem_map]
    refine exists_congr fun r => ?_
    rw [mem_removed hs, and_assoc]

theorem effect_saveCleared {records : List BankRecord}
    (hspared : Memory.saveOutcome faults (records.map BankRecord.clearMatch) = .ok ()) {α : Type} {a : α}
    {rest : Unit → Procedure α} (hrest : ∀ m', (under faults).effect (rest ()) m' = (.ok a, m')) (m : Memory) :
    ∃ m', (under faults).effect (if (!records.isEmpty) = true then
        Procedure.saveAll [.bank (records.map BankRecord.clearMatch)] >>= rest else rest ()) m = (.ok a, m') ∧
      m'.store = (records.map BankRecord.clearMatch).foldl Store.putBank m.store ∧ (records = [] → m' = m) := by
  obtain ⟨hsaved, hstored⟩ := Memory.saveAll_bank_spared hspared m
  split
  · rename_i hsome
    have heffect : (under faults).effect (Procedure.saveAll [.bank (records.map BankRecord.clearMatch)]) m =
        (.ok (), ((under faults).answer (.saveAll [.bank (records.map BankRecord.clearMatch)]) m).2) :=
      Prod.ext hsaved rfl
    refine ⟨_, (Repository.effect_bind heffect).trans (hrest _), hstored, fun hnone => ?_⟩
    rw [hnone] at hsome
    cases hsome
  · rename_i hempty
    have hnone : records = [] := by simpa using hempty
    exact ⟨m, hrest m, by rw [hnone]; rfl, fun _ => rfl⟩

/-- A removal whose ids are known and whose save does not fail. -/
theorem effect_remove (hs : (m.store.bank.map BankRecord.id).Nodup) {ids keys : List String}
    (hknown : ∀ id ∈ ids, ∃ r ∈ m.store.bank, r.id = id) (hspared : Spared faults ids keys m.store) (actor : String) :
    ∃ m', (under faults).effect (remove ids keys actor) m =
        (.ok (Sorting.ascending ((m.store.removed ids keys).map BankRecord.id)), m') ∧
      m'.store = ((m.store.removed ids keys).map BankRecord.clearMatch).foldl Store.putBank m.store ∧
        (m.store.removed ids keys = [] → m' = m) := by
  have hspare : Memory.saveOutcome faults ((m.store.removed ids keys).map BankRecord.clearMatch) = .ok () := by
    refine Memory.saveOutcome_spared fun f hf w hw => ?_
    obtain ⟨r, hr, rfl⟩ := List.mem_map.mp hw
    obtain ⟨hstored, hremoves⟩ := (mem_removed hs).mp hr
    exact hspared f hf r hstored hremoves
  unfold remove
  extract_lets clear
  have hclear : ∃ m', (under faults).effect (clear (m.store.bankById ids)) m =
      (.ok (Sorting.ascending ((m.store.removed ids keys).map BankRecord.id)), m') ∧
        m'.store = ((m.store.removed ids keys).map BankRecord.clearMatch).foldl Store.putBank m.store ∧
          (m.store.removed ids keys = [] → m' = m) := by
    show ∃ m', (under faults).effect (addHolding keys (m.store.bankById ids) >>= _) m = _ ∧ _
    rw [Repository.effect_bind (effect_addHolding keys _)]
    exact effect_saveCleared hspare (fun _ => rfl) m
  split
  · rename_i hempty
    obtain rfl := List.isEmpty_iff.mp hempty
    exact hclear
  · have hcases := @effect_needRecords_cases m faults hs ids
    obtain ⟨-, hnamed⟩ | ⟨hunknown, -⟩ := hcases
    · rw [Repository.effect_bind hnamed]
      exact hclear
    · exact absurd hknown hunknown

/-- A removal clears the records that it concerns, and made again it finds none. -/
theorem effect_remove_twice (hs : (m.store.bank.map BankRecord.id).Nodup) {ids keys : List String}
    (hknown : ∀ id ∈ ids, ∃ r ∈ m.store.bank, r.id = id) (hspared : Spared faults ids keys m.store) (actor : String) :
    ∃ told m', (under faults).effect (remove ids keys actor) m = (.ok told, m') ∧
      Removal ids keys m.store m'.store told ∧
        ∀ again, (under faults).effect (remove ids keys again) m' = (.ok [], m') := by
  obtain ⟨m', heffect, hstore, -⟩ := effect_remove hs hknown hspared actor
  have hremoval := removal_of_removed hs ids keys
  rw [← hstore] at hremoval
  refine ⟨_, m', heffect, hremoval, fun again => ?_⟩
  have hbank : m'.store.bank = m.store.bank.map (clearing ids keys) := congrArg Store.bank hremoval.store
  have hs' : (m'.store.bank.map BankRecord.id).Nodup := by
    rw [hbank, clearing_ids]
    exact hs
  have hcleared : ∀ r ∈ m'.store.bank, ¬Removes ids keys r := by
    intro r hr
    rw [hbank] at hr
    obtain ⟨old, -, rfl⟩ := List.mem_map.mp hr
    exact clearing_removes ids keys old
  have hnone : m'.store.removed ids keys = [] := by
    refine List.eq_nil_iff_forall_not_mem.mpr fun r hr => ?_
    obtain ⟨hmem, hremoves⟩ := (mem_removed hs').mp hr
    exact hcleared r hmem hremoves
  have hknown' : ∀ id ∈ ids, ∃ r ∈ m'.store.bank, r.id = id := by
    intro id hid
    obtain ⟨r, hr, rfl⟩ := hknown id hid
    exact ⟨_, hbank ▸ List.mem_map_of_mem hr, clearing_id ids keys r⟩
  obtain ⟨m'', hagain, -, hsame⟩ :=
    effect_remove hs' hknown' (fun _ _ r hr hremoves => absurd hremoves (hcleared r hr)) again
  rw [hagain, hsame hnone, hnone, List.map_nil, Sorting.ascending, Sorting.byText, List.mergeSort_nil]

/-- A match that is made leaves its link on each of its records. -/
theorem create_links {t : Tolerance} {now : Timestamp} {ids keys : List String} {actor : String} {made : ManualMatch}
    (h : ((under faults).run (create t now ids keys actor) m).outcome = .ok made) {id : String} (hid : id ∈ ids) :
    ∃ r, ((under faults).run (create t now ids keys actor) m).state.store.bankRecord? id = some r ∧
      r.reference = some ⟨.manual, Assoc.distinct keys, actor, some now⟩ := by
  have hreference : made.reference = ⟨.manual, Assoc.distinct keys, actor, some now⟩ := by
    unfold create at h
    simp only [] at h
    split at h
    · cases h
    · obtain ⟨records, -, h, -⟩ := Repository.run_bind_ok _ h
      obtain ⟨postings, -, h, -⟩ := Repository.run_bind_ok _ h
      obtain ⟨selected, hselected, h, -⟩ := Repository.run_bind_ok _ h
      obtain ⟨_, -, h, -⟩ := Repository.run_bind_ok _ h
      obtain rfl := Except.ok.inj h
      obtain ⟨goal, totals, -, -, -, rfl⟩ := checkSelection_eq_ok.mp hselected
      rfl
  obtain ⟨records, ⟨hnames, -, hlinks⟩, hstore⟩ :=
    Memory.run_commits (create_commits t now ids keys actor) h
  have hmem : id ∈ records.map BankRecord.id := by
    rw [hnames]
    exact Assoc.mem_distinct.mpr hid
  obtain ⟨r, hr, hstored⟩ := Store.bankRecord?_foldl_putBank_of_mem m.store hmem
  exact ⟨r, hstore ▸ hstored, (hlinks r hr).trans (congrArg some hreference)⟩

/-- **A removal clears just the records that it concerns.** Where its ids are known and its save does not fail, it takes
the match from each record that has one and is named, whatever its kind, and from each record with an operator's link
to one of the groups; it leaves all else, and tells the ids of these records in ascending order, each once. The same
removal made again finds nothing and changes nothing. So a match that an operator has made can be taken from all of its
records by any one of its groups. -/
theorem remove_clears {faults : Option Faults} {m : Memory} (hs : (m.store.bank.map BankRecord.id).Nodup) :
    (∀ ids keys actor, (∀ id ∈ ids, ∃ r ∈ m.store.bank, r.id = id) → Spared faults ids keys m.store →
      ∃ told m', (under faults).effect (remove ids keys actor) m = (.ok told, m') ∧
        Removal ids keys m.store m'.store told ∧
          ∀ again, (under faults).effect (remove ids keys again) m' = (.ok [], m')) ∧
      ∀ t now ids keys actor made m', (under faults).effect (create t now ids keys actor) m = (.ok made, m') →
        ∀ key ∈ keys, ∀ faults' actor', Spared faults' [] [key] m'.store →
          ∃ told m'', (under faults').effect (remove [] [key] actor') m' = (.ok told, m'') ∧ ids ⊆ told ∧
            ∀ id ∈ ids, ∃ r, m''.store.bankRecord? id = some r ∧ r.reference = none ∧ r.matchedAt = none ∧
              r.score = none ∧ r.status = .pending := by
  refine ⟨fun ids keys actor hknown hspared => effect_remove_twice hs hknown hspared actor, ?_⟩
  intro t now ids keys actor made m' hmade key hkey faults' actor' hspared
  obtain ⟨houtcome, rfl⟩ := Prod.mk.inj hmade
  have hs' := Memory.run_distinct faults (create t now ids keys actor) hs
  obtain ⟨told, m'', heffect, hremoval, -⟩ := effect_remove_twice hs' (by simp) hspared actor'
  -- each record of the match holds its link, which names the group
  have hheld : ∀ id ∈ ids, ∃ r ∈ ((under faults).run (create t now ids keys actor) m).state.store.bank,
      r.id = id ∧ Removes [] [key] r := by
    intro id hid
    obtain ⟨r, hr, hlink⟩ := create_links houtcome hid
    obtain ⟨hmem, hname⟩ := (Store.bankRecord?_iff hs').mp hr
    exact ⟨r, hmem, hname, _, hlink, .inr ⟨rfl, key, List.mem_singleton_self key, Assoc.mem_distinct.mpr hkey⟩⟩
  refine ⟨told, m'', heffect, fun id hid => ?_, fun id hid => ?_⟩
  · obtain ⟨r, hr, hname, hremoves⟩ := hheld id hid
    exact (hremoval.told_iff id).mpr ⟨r, hr, hremoves, hname⟩
  · obtain ⟨r, hr, rfl, hremoves⟩ := hheld id hid
    have hbank := congrArg Store.bank hremoval.store
    refine ⟨clearing [] [key] r, ?_, ?_⟩
    · refine (Store.bankRecord?_iff ?_).mpr ⟨hbank ▸ List.mem_map_of_mem hr, clearing_id [] [key] r⟩
      rw [hbank, clearing_ids]
      exact hs'
    · unfold clearing
      rw [if_pos hremoves]
      exact ⟨rfl, rfl, rfl, rfl⟩

end ManualMatch

namespace Sample

/-- An operator's record for two groups, one for a group whose key only contains another one, a record that a run has
paired, and one without a match. -/
def overridden : Store :=
  { bank := [record "linked" "s1" 100 (some ⟨.manual, ["b", "a"], "operator", none⟩),
      record "longer" "s2" 30 (some ⟨.manual, ["ab"], "operator", none⟩),
      record "paired" "s3" 70 (some ⟨.exact, ["c"], "system", none⟩), record "bare" "s4" 100]
    ledger := [posting "p1" "d" "s4" 60, posting "p2" "e" "s4" 40] }

def longerFails : Faults :=
  { failure := .general "full", bank := ["longer"] }

end Sample

/-- A record is removed by its id and another one by a group, while a third one could not be stored; and a match with two
groups is removed by the second one. -/
theorem remove_clears_sample :
    (Sample.overridden.bank.map BankRecord.id).Nodup ∧
      (∀ id ∈ ["paired"], ∃ r ∈ Sample.overridden.bank, r.id = id) ∧
      ManualMatch.Spared (some Sample.longerFails) ["paired"] ["a"] Sample.overridden ∧
      ∃ m', (Memory.under (some Sample.longerFails)).effect (ManualMatch.remove ["paired"] ["a"] "operator")
          (.ofStore Sample.overridden) = (.ok ["linked", "paired"], m') ∧
        ManualMatch.Removal ["paired"] ["a"] Sample.overridden m'.store ["linked", "paired"] ∧
        m'.store.bank.map BankRecord.isMatched = [false, true, false, false] := by
  have hs : (Sample.overridden.bank.map BankRecord.id).Nodup := by decide
  have hknown : ∀ id ∈ ["paired"], ∃ r ∈ Sample.overridden.bank, r.id = id := by decide +kernel
  have hspared : ManualMatch.Spared (some Sample.longerFails) ["paired"] ["a"] Sample.overridden := by
    rintro f ⟨⟩
    decide +kernel
  obtain ⟨hremove, -⟩ :=
    @ManualMatch.remove_clears (some Sample.longerFails) (.ofStore Sample.overridden) hs
  obtain ⟨told, m', heffect, hremoval, -⟩ := hremove ["paired"] ["a"] "operator" hknown hspared
  have hconcerned : ∀ r ∈ Sample.overridden.bank, ManualMatch.Removes ["paired"] ["a"] r →
      r.id ∈ ["linked", "paired"] := by decide +kernel
  have hthere : ∀ id ∈ ["linked", "paired"], ∃ r ∈ Sample.overridden.bank,
      ManualMatch.Removes ["paired"] ["a"] r ∧ r.id = id := by decide +kernel
  have hascending : Ascending id ["linked", "paired"] := by
    unfold Ascending
    decide
  obtain rfl : told = ["linked", "paired"] := by
    refine hremoval.ascending.eq_of_mem_iff hascending fun id => ?_
    rw [hremoval.told_iff]
    refine ⟨?_, hthere id⟩
    rintro ⟨r, hr, hremoves, rfl⟩
    exact hconcerned r hr hremoves
  refine ⟨hs, hknown, hspared, m', heffect, hremoval, ?_⟩
  rw [hremoval.store]
  decide +kernel

end GoalReconciliation

import GoalReconciliation.Proofs.Store.Listing
import GoalReconciliation.Proofs.Store.Saved

/-!
# Stores that list their records in another order

* `newestFirst_eq_of_perm`, `byText_eq_of_perm`, `ascending_distinct` : a listing shows nothing of the order of what it lists;
* `filter_newestFirst` : nor does a part of it show what else is listed;
* `Repository.Respects` : states that no step of a repository tells apart; `Respects.run` : **nor does a procedure**;
* `Store.Rearranges` : the same records and postings in another order;
* `Rearranges.answer`, `Rearranges.write` : **all questions have the same answers, and each write ends alike and leaves
  such stores again**;
* `Memory.respects_rearranges` : no step in memory tells them apart, whatever fails and is undone;
* `ofRecords_rearranges` : a store can be filled in any order, or in none.
-/

namespace GoalReconciliation

set_option autoImplicit false

open Store (keyOf)

/-! ## Listings -/

namespace Sorting

variable {α : Type} {date : α → Date} {key : α → String} {xs ys : List α}

/-- Of items with distinct names, no two come before each other: there is one way to list them. -/
theorem eq_of_newest (hnames : (xs.map key).Nodup) (h : ys.Perm xs)
    (hxs : xs.Pairwise fun a b => (date b).ordinal < (date a).ordinal ∨ date a = date b ∧ key a ≤ key b)
    (hys : ys.Pairwise fun a b => (date b).ordinal < (date a).ordinal ∨ date a = date b ∧ key a ≤ key b) : ys = xs := by
  refine h.eq_of_pairwise (fun a b ha hb hab hba => ?_) hys hxs
  refine Lookup.eq_of_name hnames (h.subset ha) hb ?_
  rcases hab with hlt | ⟨hday, hle⟩
  · rcases hba with hgt | ⟨hday, -⟩
    · exact absurd hgt (Nat.lt_asymm hlt)
    · exact absurd hlt (hday ▸ Nat.lt_irrefl _)
  · rcases hba with hgt | ⟨-, hge⟩
    · exact absurd hgt (hday ▸ Nat.lt_irrefl _)
    · exact String.le_antisymm hle hge

theorem nodup_newestFirst (hnames : (xs.map key).Nodup) : ((newestFirst date key xs).map key).Nodup :=
  ((List.mergeSort_perm xs _).map key).nodup_iff.mpr hnames

theorem newestFirst_eq_of_perm (hnames : (xs.map key).Nodup) (h : xs.Perm ys) :
    newestFirst date key ys = newestFirst date key xs :=
  eq_of_newest (nodup_newestFirst hnames) ((List.mergeSort_perm ys _).trans (h.symm.trans (List.mergeSort_perm xs _).symm))
    (newestFirst_sorted xs) (newestFirst_sorted ys)

theorem newestFirst_eq_of_mem_iff (hxs : (xs.map key).Nodup) (hys : (ys.map key).Nodup) (h : ∀ a, a ∈ ys ↔ a ∈ xs) :
    newestFirst date key ys = newestFirst date key xs :=
  newestFirst_eq_of_perm hxs ((List.perm_ext_iff_of_nodup hxs.of_map hys.of_map).mpr fun a => (h a).symm)

/-- What is kept of two listings is the same where they list the same of it. -/
theorem filter_newestFirst (hxs : (xs.map key).Nodup) (hys : (ys.map key).Nodup) {keep : α → Bool}
    (h : ∀ a, keep a = true → (a ∈ ys ↔ a ∈ xs)) :
    (newestFirst date key ys).filter keep = (newestFirst date key xs).filter keep := by
  have hkept : ∀ {zs : List α}, (zs.map key).Nodup → (((newestFirst date key zs).filter keep).map key).Nodup :=
    fun hzs => (nodup_newestFirst hzs).sublist (List.filter_sublist.map _)
  refine eq_of_newest (hkept hxs) ((List.perm_ext_iff_of_nodup (hkept hys).of_map (hkept hxs).of_map).mpr fun a => ?_)
    ((newestFirst_sorted xs).filter _) ((newestFirst_sorted ys).filter _)
  rw [List.mem_filter, List.mem_filter, newestFirst, newestFirst, List.mem_mergeSort, List.mem_mergeSort]
  exact and_congr_left (h a)

theorem byText_eq_of_perm (hnames : (xs.map key).Nodup) (h : xs.Perm ys) : byText key ys = byText key xs := by
  have hnames' : (ys.map key).Nodup := (h.map key).nodup_iff.mp hnames
  refine (Ascending.of_byText hnames').eq_of_mem_iff (Ascending.of_byText hnames) fun a => ?_
  rw [byText, byText, List.mem_mergeSort, List.mem_mergeSort, h.mem_iff]

theorem ascending_distinct {texts others : List String} (h : ∀ text, text ∈ texts ↔ text ∈ others) :
    ascending (Assoc.distinct texts) = ascending (Assoc.distinct others) := by
  have hasc : ∀ texts : List String, Ascending id (ascending (Assoc.distinct texts)) := by
    intro texts
    refine Ascending.of_byText ?_
    rw [List.map_id]
    exact Assoc.nodup_distinct texts
  refine (hasc texts).eq_of_mem_iff (hasc others) fun text => ?_
  rw [ascending, ascending, byText, byText, List.mem_mergeSort, List.mem_mergeSort, Assoc.mem_distinct,
    Assoc.mem_distinct, h]

end Sorting

section Items

variable {α : Type} {name : α → String} {xs ys : List α}

theorem find?_perm (hnames : (xs.map name).Nodup) (h : xs.Perm ys) (n : String) :
    ys.find? (fun x => decide (name x = n)) = xs.find? fun x => decide (name x = n) := by
  have hnames' : (ys.map name).Nodup := (h.map name).nodup_iff.mp hnames
  refine Option.ext fun a => ?_
  rw [Lookup.find?_eq_some_iff hnames, Lookup.find?_eq_some_iff hnames', h.mem_iff]

/-- One more item makes no difference to what it is not. -/
theorem mem_cons_of_not {P : α → Prop} {x : α} (hx : ¬P x) (a : α) (ha : P a) : a ∈ x :: xs ↔ a ∈ xs :=
  List.mem_cons.trans (or_iff_right_of_imp fun e => absurd (e ▸ ha) hx)

theorem replaceOrAdd_of_new {item : α} (hnew : name item ∉ xs.map name) : replaceOrAdd name item xs = xs ++ [item] := by
  induction xs with
  | nil => rfl
  | cons x rest ih =>
      have hne : ¬name x = name item := fun e => hnew (e ▸ List.mem_cons_self)
      rw [replaceOrAdd, if_neg hne, ih fun hmem => hnew (List.mem_cons_of_mem _ hmem)]
      rfl

/-- An item takes the place of the one with its name, or a new one, in whatever order the others are listed. -/
theorem perm_replaceOrAdd (hnames : (xs.map name).Nodup) (h : xs.Perm ys) (item : α) :
    (replaceOrAdd name item xs).Perm (replaceOrAdd name item ys) := by
  have hnames' : (ys.map name).Nodup := (h.map name).nodup_iff.mp hnames
  by_cases hold : name item ∈ xs.map name
  · have hold' : name item ∈ ys.map name := (h.map name).subset hold
    rw [replaceOrAdd_eq_map hnames hold, replaceOrAdd_eq_map hnames' hold']
    exact h.map _
  · have hnew' : name item ∉ ys.map name := fun hmem => hold ((h.map name).symm.subset hmem)
    rw [replaceOrAdd_of_new hold, replaceOrAdd_of_new hnew']
    exact h.append_right [item]

end Items

/-! ## States that are not told apart -/

/-- Two steps that answer alike and lead to related states. -/
structure SameAnswer {σ α : Type} (R : σ → σ → Prop) (step step' : Except Failure α × σ) : Prop where
  answer : step'.1 = step.1
  state : R step.2 step'.2

namespace Repository

variable {σ α : Type}

/-- Related states: each step of the repository answers alike in both, and leads to related ones again. -/
structure Respects (repo : Repository σ) (R : σ → σ → Prop) : Prop where
  query : ∀ question {s s' : σ}, R s s' → SameAnswer R (repo.query question s) (repo.query question s')
  save : ∀ w {s s' : σ}, R s s' → SameAnswer R (repo.save w s) (repo.save w s')
  enter : ∀ {s s' : σ}, R s s' → R (repo.enter s) (repo.enter s')
  leave : ∀ failure {s s' : σ}, R s s' →
    (repo.leave failure s').1 = (repo.leave failure s).1 ∧ R (repo.leave failure s).2 (repo.leave failure s').2

namespace Respects

variable {repo : Repository σ} {R : σ → σ → Prop} {s s' : σ}

theorem saveEach (h : repo.Respects R) (writes : List Write) (hs : R s s') :
    SameAnswer R (repo.saveEach writes s) (repo.saveEach writes s') := by
  induction writes generalizing s s' with
  | nil => exact ⟨rfl, hs⟩
  | cons w rest ih =>
      obtain ⟨hanswer, hstate⟩ := h.save w hs
      unfold Repository.saveEach
      generalize repo.save w s = saved at hanswer hstate
      generalize repo.save w s' = saved' at hanswer hstate
      obtain ⟨outcome, next⟩ := saved
      obtain ⟨outcome', next'⟩ := saved'
      obtain rfl : outcome' = outcome := hanswer
      cases outcome' with
      | ok _ => exact ih hstate
      | error failure => exact ⟨rfl, hstate⟩

theorem close (h : repo.Respects R) (outcome : Except Failure α) (hs : R s s') :
    SameAnswer R (repo.close outcome s) (repo.close outcome s') := by
  cases outcome with
  | ok a =>
      obtain ⟨hfailure, hstate⟩ := h.leave none hs
      unfold Repository.close
      simp only []
      generalize repo.leave none s = left at hfailure hstate
      generalize repo.leave none s' = left' at hfailure hstate
      obtain ⟨failure, next⟩ := left
      obtain ⟨failure', next'⟩ := left'
      obtain rfl : failure' = failure := hfailure
      cases failure' <;> exact ⟨rfl, hstate⟩
  | error failure =>
      obtain ⟨hfailure, hstate⟩ := h.leave (some failure) hs
      unfold Repository.close
      simp only []
      generalize repo.leave (some failure) s = left at hfailure hstate
      generalize repo.leave (some failure) s' = left' at hfailure hstate
      obtain ⟨goesOn, next⟩ := left
      obtain ⟨goesOn', next'⟩ := left'
      obtain rfl : goesOn' = goesOn := hfailure
      cases goesOn' <;> exact ⟨rfl, hstate⟩

theorem answer (h : repo.Respects R) (request : Request) (hs : R s s') :
    SameAnswer R (repo.answer request s) (repo.answer request s') := by
  cases request with
  | query question => exact h.query question hs
  | save w => exact h.save w hs
  | saveAll writes =>
      obtain ⟨hanswer, hstate⟩ := h.saveEach writes (h.enter hs)
      change SameAnswer R (repo.inScope (repo.saveEach writes) s) (repo.inScope (repo.saveEach writes) s')
      unfold Repository.inScope
      generalize repo.saveEach writes (repo.enter s) = saved at hanswer hstate
      generalize repo.saveEach writes (repo.enter s') = saved' at hanswer hstate
      obtain ⟨outcome, next⟩ := saved
      obtain ⟨outcome', next'⟩ := saved'
      obtain rfl : outcome' = outcome := hanswer
      exact h.close outcome' hstate

/-- **A procedure comes to the same in both states**, and leaves related ones. -/
theorem run (h : repo.Respects R) (p : Procedure α) (hs : R s s') :
    (repo.run p s').outcome = (repo.run p s).outcome ∧ (repo.run p s').events = (repo.run p s).events ∧
      R (repo.run p s).state (repo.run p s').state := by
  induction p generalizing s s' with
  | done outcome => exact ⟨rfl, rfl, hs⟩
  | ask request next ih =>
      obtain ⟨hanswer, hstate⟩ := h.answer request hs
      rw [Repository.run, Repository.run]
      simp only []
      rw [hanswer]
      exact ih _ hstate
  | record event rest ih =>
      obtain ⟨houtcome, hevents, hstate⟩ := ih hs
      exact ⟨houtcome, congrArg (event :: ·) hevents, hstate⟩

theorem saveSingly (h : repo.Respects R) (f : Faults) {α : Type} (name : α → String) (failing : List String)
    (single : α → Write) (items : List α) (hs : R s s') :
    SameAnswer R (repo.saveSingly f name failing single items s) (repo.saveSingly f name failing single items s') := by
  induction items generalizing s s' with
  | nil => exact ⟨rfl, hs⟩
  | cons item rest ih =>
      unfold Repository.saveSingly
      split
      · exact ⟨rfl, hs⟩
      · obtain ⟨hanswer, hstate⟩ := h.save (single item) hs
        generalize repo.save (single item) s = saved at hanswer hstate
        generalize repo.save (single item) s' = saved' at hanswer hstate
        obtain ⟨outcome, next⟩ := saved
        obtain ⟨outcome', next'⟩ := saved'
        obtain rfl : outcome' = outcome := hanswer
        cases outcome' with
        | ok _ => exact ih hstate
        | error failure => exact ⟨rfl, hstate⟩

/-- Which steps fail does not depend on the state. -/
theorem withFaults (h : repo.Respects R) (f : Faults) : (repo.withFaults f).Respects R where
  query question s s' hs := by
    simp only [Repository.withFaults]
    split
    · exact ⟨rfl, hs⟩
    · exact h.query question hs
  save w s s' hs := by
    change SameAnswer R (repo.saveWithFaults f w s) (repo.saveWithFaults f w s')
    unfold Repository.saveWithFaults
    cases w with
    | bank records =>
        simp only []
        split
        · exact h.save _ hs
        · exact h.saveSingly f _ _ _ _ hs
    | postings postings =>
        simp only []
        split
        · exact h.save _ hs
        · exact h.saveSingly f _ _ _ _ hs
  enter hs := h.enter hs
  leave failure s s' hs := h.leave failure hs

end Respects

end Repository

/-! ## Another order -/

/-- The same records and postings, possibly in another order. -/
structure Store.Rearranges (s s' : Store) : Prop where
  sound : s.Sound
  bank : s.bank.Perm s'.bank
  ledger : s.ledger.Perm s'.ledger

def Store.posting? (s : Store) (id : String) : Option Posting :=
  s.ledger.find? (·.id = id)

namespace Store.Rearranges

variable {s s' : Store}

theorem bankRecord? (h : s.Rearranges s') (id : String) : s'.bankRecord? id = s.bankRecord? id :=
  find?_perm h.sound.bank_once h.bank id

theorem posting? (h : s.Rearranges s') (id : String) : s'.posting? id = s.posting? id :=
  find?_perm h.sound.ledger_once h.ledger id

theorem bank_filter (h : s.Rearranges s') (keep : BankRecord → Bool) :
    ((s.bank.filter keep).map BankRecord.id).Nodup ∧ (s.bank.filter keep).Perm (s'.bank.filter keep) :=
  ⟨h.sound.bank_once.sublist (List.filter_sublist.map _), h.bank.filter keep⟩

theorem ledger_filter (h : s.Rearranges s') (keep : Posting → Bool) :
    ((s.ledger.filter keep).map Posting.id).Nodup ∧ (s.ledger.filter keep).Perm (s'.ledger.filter keep) :=
  ⟨h.sound.ledger_once.sublist (List.filter_sublist.map _), h.ledger.filter keep⟩

theorem taggedBank (h : s.Rearranges s') (f : TagFilter) : s'.taggedBank f = s.taggedBank f :=
  Sorting.byText_eq_of_perm (h.bank_filter _).1 (h.bank_filter _).2

theorem taggedKeys (h : s.Rearranges s') (f : TagFilter) : s'.taggedKeys f = s.taggedKeys f := by
  refine (ascending_taggedKeys s' f).eq_of_mem_iff (ascending_taggedKeys s f) fun key => ?_
  rw [mem_taggedKeys, mem_taggedKeys]
  simp only [h.ledger.mem_iff]

theorem goalIds (h : s.Rearranges s') (range : Option DateRange) : s'.goalIds range = s.goalIds range := by
  refine Sorting.ascending_distinct fun goal => ?_
  simp only [List.mem_append, List.mem_map, List.mem_filter, h.bank.mem_iff, h.ledger.mem_iff]

/-- **Every question has the same answer.** -/
theorem answer (h : s.Rearranges s') (question : Query) : s'.answer question = s.answer question := by
  cases question with
  | bankRecords goal range => exact Sorting.newestFirst_eq_of_perm (h.bank_filter _).1 (h.bank_filter _).2
  | postings goal range => exact Sorting.newestFirst_eq_of_perm (h.ledger_filter _).1 (h.ledger_filter _).2
  | bankById ids => exact congrArg (fun find => (Assoc.distinct ids).filterMap find) (funext h.bankRecord?)
  | postingsByKey keys => exact Sorting.newestFirst_eq_of_perm (h.ledger_filter _).1 (h.ledger_filter _).2
  | manualMatches goal => exact Sorting.byText_eq_of_perm (h.bank_filter _).1 (h.bank_filter _).2
  | goalIds range => exact h.goalIds range
  | taggedBank filter limit => exact congrArg (limited limit) (h.taggedBank filter)
  | taggedBankCount filter => exact congrArg List.length (h.taggedBank filter)
  | taggedKeys filter limit => exact congrArg (limited limit) (h.taggedKeys filter)
  | taggedKeyCount filter => exact congrArg List.length (h.taggedKeys filter)

/-! ### Writing -/

theorem putBank (h : s.Rearranges s') (r : BankRecord) : (s.putBank r).Rearranges (s'.putBank r) :=
  ⟨h.sound.putBank r, perm_replaceOrAdd h.sound.bank_once h.bank r, h.ledger⟩

theorem foldl_putBank (h : s.Rearranges s') (records : List BankRecord) :
    (records.foldl Store.putBank s).Rearranges (records.foldl Store.putBank s') := by
  induction records generalizing s s' with
  | nil => exact h
  | cons r rest ih => exact ih (h.putBank r)

/-- Postings are stored up to the first that has no key, which does not depend on the store. -/
theorem putPostings (h : s.Rearranges s') (postings : List Posting) :
    (s'.putPostings postings).1 = (s.putPostings postings).1 ∧
      (s.putPostings postings).2.Rearranges (s'.putPostings postings).2 := by
  induction postings generalizing s s' with
  | nil => exact ⟨rfl, h⟩
  | cons p rest ih =>
      unfold Store.putPostings
      cases hkey : p.key with
      | error problem =>
          have hfails : ∀ s : Store, s.putPosting p = .error problem := fun s => by
            rw [putPosting, hkey]
            rfl
          rw [hfails, hfails]
          exact ⟨rfl, h⟩
      | ok key =>
          have hput : ∀ s : Store, s.putPosting p =
              .ok { s with ledger := replaceOrAdd Posting.id { p with groupKey := some key } s.ledger } := fun s => by
            rw [putPosting, hkey]
            rfl
          have hsound := h.sound.putPosting (hput s)
          rw [hput, hput]
          exact ih ⟨hsound, h.bank, perm_replaceOrAdd h.sound.ledger_once h.ledger _⟩

/-- **Every write ends alike**, and leaves the same records and postings. -/
theorem write (h : s.Rearranges s') (w : Write) :
    (s'.write w).1 = (s.write w).1 ∧ (s.write w).2.Rearranges (s'.write w).2 := by
  cases w with
  | bank records => exact ⟨rfl, h.foldl_putBank records⟩
  | postings postings => exact h.putPostings postings

end Store.Rearranges

/-! ## Filling a store -/

def Posting.keyed (p : Posting) : Posting :=
  { p with groupKey := p.key.toOption }

namespace Store

variable {s : Store} {records others : List BankRecord} {postings more : List Posting}

theorem foldl_putBank_of_new (h : ((s.bank ++ records).map BankRecord.id).Nodup) :
    records.foldl putBank s = { s with bank := s.bank ++ records } := by
  induction records generalizing s with
  | nil =>
      rw [List.append_nil]
      rfl
  | cons r rest ih =>
      have hnew : r.id ∉ s.bank.map BankRecord.id := fun hmem => by
        rw [List.map_append] at h
        exact (List.nodup_append.mp h).2.2 _ hmem _ List.mem_cons_self rfl
      have hput : s.putBank r = { s with bank := s.bank ++ [r] } := by
        rw [putBank, replaceOrAdd_of_new hnew]
      rw [List.foldl_cons, hput, ih (by simpa using h)]
      simp

theorem putPosting_of_new {p : Posting} {key : String} (hkey : p.key = .ok key)
    (hnew : p.id ∉ s.ledger.map Posting.id) : s.putPosting p = .ok { s with ledger := s.ledger ++ [p.keyed] } := by
  have hplaced : replaceOrAdd Posting.id p.keyed s.ledger = s.ledger ++ [p.keyed] := replaceOrAdd_of_new hnew
  rw [← hplaced, putPosting, Posting.keyed, hkey]
  rfl

theorem putPostings_of_new (h : ((s.ledger ++ postings).map Posting.id).Nodup)
    (hkeys : ∀ p ∈ postings, ∃ key, p.key = .ok key) :
    s.putPostings postings = (.ok (), { s with ledger := s.ledger ++ postings.map Posting.keyed }) := by
  induction postings generalizing s with
  | nil => rw [putPostings, List.map_nil, List.append_nil]
  | cons p rest ih =>
      obtain ⟨⟨key, hkey⟩, hrest⟩ := List.forall_mem_cons.mp hkeys
      have hnew : p.id ∉ s.ledger.map Posting.id := fun hmem => by
        rw [List.map_append] at h
        exact (List.nodup_append.mp h).2.2 _ hmem _ List.mem_cons_self rfl
      have hnames : (({ s with ledger := s.ledger ++ [p.keyed] } : Store).ledger ++ rest).map Posting.id =
          (s.ledger ++ p :: rest).map Posting.id := by
        simp [Posting.keyed]
      rw [putPostings, putPosting_of_new hkey hnew]
      simp only []
      rw [ih (hnames ▸ h) hrest]
      simp

theorem putPostings_unkeyed {p : Posting} (hp : p ∈ postings) {problem : Problem} (hkey : p.key = .error problem) :
    ∃ failure, (s.putPostings postings).1 = .error failure := by
  induction postings generalizing s with
  | nil => cases hp
  | cons q rest ih =>
      unfold putPostings
      cases hput : s.putPosting q with
      | error problem => exact ⟨_, rfl⟩
      | ok next =>
          refine ih ((List.mem_cons.mp hp).resolve_left ?_)
          rintro rfl
          rw [putPosting, hkey] at hput
          cases hput

theorem ofRecords_of_keys (hrecords : (records.map BankRecord.id).Nodup) (hpostings : (postings.map Posting.id).Nodup)
    (hkeys : ∀ p ∈ postings, ∃ key, p.key = .ok key) :
    ofRecords records postings = .ok ⟨records, postings.map Posting.keyed⟩ := by
  rw [ofRecords, foldl_putBank_of_new (by simpa using hrecords),
    putPostings_of_new (by simpa using hpostings) hkeys]
  simp [Except.map]

theorem ofRecords_unkeyed (records : List BankRecord) {p : Posting} (hp : p ∈ postings) {problem : Problem} (hkey : p.key = .error problem) :
    ∃ failure, ofRecords records postings = .error failure := by
  obtain ⟨failure, hfailure⟩ := putPostings_unkeyed (s := records.foldl putBank {}) hp hkey
  refine ⟨failure, ?_⟩
  change (((records.foldl putBank {}).putPostings postings).1).map _ = _
  rw [hfailure]
  rfl

/-- **Of the same records and postings in two orders, a store can be filled in both or in none**, and holds the same. -/
theorem ofRecords_rearranges (hbank : (records.map BankRecord.id).Nodup) (hledger : (postings.map Posting.id).Nodup)
    (hrecords : records.Perm others) (hpostings : postings.Perm more) :
    (∃ s s', ofRecords records postings = .ok s ∧ ofRecords others more = .ok s' ∧ s.Rearranges s') ∨
      ∃ failure failure', ofRecords records postings = .error failure ∧ ofRecords others more = .error failure' := by
  have hbank' : (others.map BankRecord.id).Nodup := (hrecords.map _).nodup_iff.mp hbank
  have hledger' : (more.map Posting.id).Nodup := (hpostings.map _).nodup_iff.mp hledger
  by_cases hkeys : ∀ p ∈ postings, ∃ key, p.key = .ok key
  · have hfilled := ofRecords_of_keys hbank hledger hkeys
    refine .inl ⟨_, _, hfilled, ofRecords_of_keys hbank' hledger' fun p hp => hkeys p (hpostings.symm.subset hp), ?_⟩
    exact ⟨ofRecords_sound hfilled, hrecords, hpostings.map _⟩
  · push Not at hkeys
    obtain ⟨p, hp, hnone⟩ := hkeys
    cases hkey : p.key with
    | ok key => exact absurd hkey (hnone key)
    | error problem =>
        obtain ⟨failure, hfailure⟩ := ofRecords_unkeyed records hp hkey
        obtain ⟨failure', hfailure'⟩ := ofRecords_unkeyed others (hpostings.subset hp) hkey
        exact .inr ⟨failure, failure', hfailure, hfailure'⟩

end Store

/-! ## In memory -/

namespace Memory

/-- The same records and postings in another order, and under as many scopes to go back to. -/
structure Rearranges (m m' : Memory) : Prop where
  store : m.store.Rearranges m'.store
  snapshot : m.snapshot.Rearranges m'.snapshot
  depth : m'.depth = m.depth

theorem rearranges_ofStore {s s' : Store} (h : s.Rearranges s') : (ofStore s).Rearranges (ofStore s') :=
  ⟨h, h, rfl⟩

/-- **No step tells them apart.** -/
theorem respects_rearranges : repository.Respects Rearranges where
  query question m m' h := ⟨congrArg Except.ok (h.store.answer question), h⟩
  save w m m' h := by
    obtain ⟨houtcome, hstore⟩ := h.store.write w
    exact ⟨houtcome, hstore, h.snapshot, h.depth⟩
  enter {m m'} h := by
    change Rearranges (enter m) (enter m')
    unfold enter
    rw [h.depth]
    split
    · exact ⟨h.store, h.store, rfl⟩
    · exact ⟨h.store, h.snapshot, rfl⟩
  leave failure m m' h := by
    change (leave failure m').1 = (leave failure m).1 ∧ Rearranges (leave failure m).2 (leave failure m').2
    unfold leave
    rw [h.depth]
    split
    · exact ⟨rfl, h.store, h.snapshot, rfl⟩
    · refine ⟨rfl, ?_, h.snapshot, rfl⟩
      cases failure with
      | some _ => exact h.snapshot
      | none => exact h.store

theorem under_respects_rearranges (faults : Option Faults) : (under faults).Respects Rearranges := by
  cases faults with
  | none => exact respects_rearranges
  | some f => exact respects_rearranges.withFaults f

end Memory

end GoalReconciliation

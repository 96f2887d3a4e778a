import GoalReconciliation.Proofs.Operations.Reversals
import GoalReconciliation.Proofs.Resolution.Settled

/-!
# Settled reviews, call after call

* `ReopensRecord`, `ReopensPosting` : a call has given a record or a posting what opens its review again;
* `Tagging.apply_stores`, `Tagging.turns_of_stores` : tags are all stored or none, and turn the reviews that they name;
* `BankMade.lasting` : what runs and operators' matches make of records leaves the reviews;
* `leaves_turns` : **a call opens no other review again**, whatever steps of it fail;
* `after_settled` : **from reviews without marks, every sequence of calls leaves all reviews settled, and none of its
  calls opens a resolved review again but one with another tag or a reversal link**.
-/

namespace GoalReconciliation

set_option autoImplicit false

open Store (keyOf)

/-! ## What opens a review again -/

namespace Operation.Call

/-- The call has given the record another tag, or linked it to its partner. -/
def ReopensRecord (c : Call) (r r' : BankRecord) : Prop :=
  match c.operation with
  | .tagRecords tagging => r.id ∈ tagging.bankIds ∧ tagging.tag ≠ r.review.tag ∧ r'.review.tag = tagging.tag
  | .linkReversal idA idB _ =>
    r'.review.tag = some .reversal ∧
      ((r.id, r'.reversal.map (·.partnerId)) = (idA, some idB) ∨ (r.id, r'.reversal.map (·.partnerId)) = (idB, some idA))
  | _ => False

/-- The call has given the posting another tag. -/
def ReopensPosting (c : Call) (p p' : Posting) : Prop :=
  match c.operation with
  | .tagRecords tagging => keyOf p ∈ tagging.groupKeys ∧ tagging.tag ≠ p.review.tag ∧ p'.review.tag = tagging.tag
  | _ => False

end Operation.Call

/-! ## Tags -/

section Tags

open Memory (under)

variable {m : Memory} {s s' : Store}

theorem effect_needRecords (faults : Option Faults) (ids : List String) (m : Memory) :
    (under faults).effect (needRecords ids) m = (.ok (m.store.bankById ids), m) ∨
      ∃ failure, (under faults).effect (needRecords ids) m = (.error failure, m) := by
  have hquery : (under faults).effect (Procedure.bankById ids) m = (.ok (m.store.bankById ids), m) :=
    Memory.effect_query (fun _ _ => rfl) m
  unfold needRecords
  rw [Repository.effect_bind hquery]
  cases firstMissing? ids ((m.store.bankById ids).map BankRecord.id) with
  | some id => exact .inr ⟨_, rfl⟩
  | none => exact .inl rfl

theorem effect_needPostings (faults : Option Faults) (keys : List String) (m : Memory) :
    (under faults).effect (needPostings keys) m = (.ok (m.store.postingsByKey keys), m) ∨
      ∃ failure, (under faults).effect (needPostings keys) m = (.error failure, m) := by
  have hquery : (under faults).effect (Procedure.postingsByKey keys) m = (.ok (m.store.postingsByKey keys), m) :=
    Memory.effect_query (fun _ _ => rfl) m
  unfold needPostings
  rw [Repository.effect_bind hquery]
  cases firstMissing? keys ((m.store.postingsByKey keys).filterMap Posting.groupKey) with
  | some key => exact .inr ⟨_, rfl⟩
  | none => exact .inl rfl

namespace Tagging

def retag (tagging : Tagging) (now : Timestamp) (review : Review) : Review :=
  review.retag tagging.tag tagging.notes tagging.actor now

def writes (tagging : Tagging) (now : Timestamp) (s : Store) : List Write :=
  [.bank ((s.bankById tagging.bankIds).map fun r => { r with review := tagging.retag now r.review }),
    .postings ((s.postingsByKey tagging.groupKeys).map fun p => { p with review := tagging.retag now p.review })]

/-- All tags are stored or none. -/
theorem apply_stores (faults : Option Faults) (tagging : Tagging) (now : Timestamp) (hm : m.depth = 0) :
    ((under faults).effect (tagging.apply now) m).2.store = m.store ∨
      m.store.Stores (tagging.writes now m.store) ((under faults).effect (tagging.apply now) m).2.store := by
  unfold apply
  obtain hrecords | ⟨failure, hrecords⟩ := effect_needRecords faults tagging.bankIds m
  · rw [Repository.effect_bind hrecords]
    obtain hpostings | ⟨failure, hpostings⟩ := effect_needPostings faults tagging.groupKeys m
    · rw [Repository.effect_bind hpostings]
      exact Memory.saveAll_leaves faults (tagging.writes now m.store) (fun _ _ => rfl) hm
    · rw [Repository.effect_bind_error hpostings]
      exact .inl rfl
  · rw [Repository.effect_bind_error hrecords]
    exact .inl rfl

end Tagging

theorem Store.bankById_named {ids : List String} {r : BankRecord} (h : r ∈ s.bankById ids) : r.id ∈ ids := by
  obtain ⟨id, hid, hfind⟩ := List.mem_filterMap.mp h
  have hname : decide (r.id = id) = true := List.find?_some (p := fun r : BankRecord => decide (r.id = id)) hfind
  exact of_decide_eq_true hname ▸ Assoc.mem_distinct.mp hid

theorem Tagging.bankMade {tagging : Tagging} {now : Timestamp} (hs : s.Sound)
    (h : s.write (.bank ((s.bankById tagging.bankIds).map fun r => { r with review := tagging.retag now r.review })) =
      (.ok (), s')) :
    s.BankMade (fun r w => w.id = r.id ∧ r.review.Turns ReviewTag.sweptOnBank
      (r.id ∈ tagging.bankIds ∧ tagging.tag ≠ r.review.tag ∧ w.review.tag = tagging.tag) w.review) s' := by
  obtain rfl := congrArg Prod.snd h
  refine Store.bankMade_turned hs (List.forall_mem_map.mpr fun r hr => ⟨r, Store.mem_bankById hr, rfl, ?_⟩)
  exact (Review.turns_retag _ _ _ _ _).mono fun hother =>
    ⟨Store.bankById_named hr, hother, Review.retag_tag _ _ _ _ _⟩

/-- The tag of a new review, and whether it is resolved, are told by those of the old one. -/
theorem Tagging.retag_agrees (tagging : Tagging) (now : Timestamp) {a b : Review} (htag : a.tag = b.tag)
    (hresolved : a.resolved = b.resolved) :
    (tagging.retag now a).tag = (tagging.retag now b).tag ∧
      (tagging.retag now a).resolved = (tagging.retag now b).resolved := by
  unfold retag Review.retag
  rw [htag]
  split
  · exact ⟨rfl, hresolved⟩
  · exact ⟨rfl, rfl⟩

theorem Tagging.turns_of_stores {tagging : Tagging} {now : Timestamp} (hs : s.Sound)
    (h : s.Stores (tagging.writes now s) s') :
    s.Turns (fun r r' => r.id ∈ tagging.bankIds ∧ tagging.tag ≠ r.review.tag ∧ r'.review.tag = tagging.tag)
      (fun p p' => keyOf p ∈ tagging.groupKeys ∧ tagging.tag ≠ p.review.tag ∧ p'.review.tag = tagging.tag) s' := by
  obtain ⟨s₁, hbank, hpostings⟩ := h.two
  have hmade := Tagging.bankMade hs hbank
  have hchosen : ∀ p, p ∈ s.postingsByKey tagging.groupKeys ↔
      p ∈ s₁.ledger ∧ tagging.groupKeys.contains (keyOf p) = true := fun p => by
    rw [hmade.ledger, Store.mem_postingsByKeys, List.contains_iff_mem]
  have hput := Store.putPostings_chosen (hmade.sound (fun _ _ hw => hw.1) hs) (Store.nodup_postingsByKey hs _) hchosen
    (tagging.retag now)
  obtain rfl := congrArg Prod.snd (hput.symm.trans hpostings)
  refine ⟨hmade.bank, ?_, fun htogether => ?_⟩
  · refine hmade.ledger ▸ List.forall₂_map_right_iff.mpr (List.forall₂_same.mpr fun p _ => ?_)
    split
    · rename_i hkey
      exact ⟨rfl, (Review.turns_retag _ _ _ _ _).mono fun hother =>
        ⟨List.contains_iff_mem.mp hkey, hother, Review.retag_tag _ _ _ _ _⟩⟩
    · exact ⟨rfl, .refl _⟩
  · refine hmade.ledger ▸ htogether.map (fun p => ?_) fun p q hkey htag hresolved => ?_
    · split <;> rfl
    · rw [hkey]
      split
      · exact tagging.retag_agrees now htag hresolved
      · exact ⟨htag, hresolved⟩

end Tags

/-! ## Matches and pairs -/

/-- The record under its id, with the review that it had. -/
def BankRecord.ReviewKept (r w : BankRecord) : Prop :=
  w.id = r.id ∧ w.review = r.review

namespace Store

variable {s s' : Store} {reopensRecord : BankRecord → BankRecord → Prop}
  {reopensPosting : Posting → Posting → Prop}

/-- What is made of a record that was made of another one, is made of that one. -/
theorem BankMade.lasting {R U : BankRecord → BankRecord → Prop} (hs : (s.bank.map BankRecord.id).Nodup)
    (hid : ∀ r w, R r w → w.id = r.id) (htrans : ∀ a r w, R a r → U r w → R a w) : LastingBank U (s.BankMade R) where
  distinct s' h := by
    rw [Related.map_eq (h.bank.imp hid)]
    exact hs
  bank r w hr hw s' h := by
    obtain ⟨read, hread, hmem⟩ := hr
    obtain ⟨a, ha, hmade⟩ := Related.exists_of_mem hread.bank hmem
    exact h.putBank hid hs ha (htrans a r w hmade hw)

/-- What runs and operators' matches write keeps the reviews. -/
theorem lasting_reviewKept {U : BankRecord → BankRecord → Prop} (hU : ∀ r w, U r w → r.Marking w ∧ w.review = r.review)
    (hs : (s.bank.map BankRecord.id).Nodup) : LastingBank U (s.BankMade BankRecord.ReviewKept) := by
  refine BankMade.lasting hs (fun _ _ h => h.1) fun a r w hmade hw => ?_
  obtain ⟨hmarking, hreview⟩ := hU r w hw
  exact ⟨(BankRecord.core_id (BankRecord.core_marking hmarking)).trans hmade.1, hreview.trans hmade.2⟩

theorem BankMade.turns_of_kept (h : s.BankMade BankRecord.ReviewKept s') :
    s.Turns reopensRecord reopensPosting s' := by
  refine BankMade.turns ⟨h.bank.imp fun r w hkept => ⟨hkept.1, ?_⟩, h.ledger⟩
  rw [hkept.2]
  exact .refl _

end Store

namespace Reversal

variable {s : Store} {reopensRecord : BankRecord → BankRecord → Prop}
  {reopensPosting : Posting → Posting → Prop}

theorem turns_link (hs : s.Sound) {a b : BankRecord} (ha : a ∈ s.bank) (hb : b ∈ s.bank) (actor : String)
    (now : Timestamp) (hreopensA : reopensRecord a (pairWith a b actor now))
    (hreopensB : reopensRecord b (pairWith b a actor now)) :
    s.Turns reopensRecord reopensPosting
      ([pairWith a b actor now, pairWith b a actor now].foldl Store.putBank s) := by
  refine (Store.bankMade_turned hs ?_).turns
  exact List.forall_mem_cons.mpr ⟨⟨a, ha, rfl, turns_pairWith _ _ _ _ hreopensA⟩,
    List.forall_mem_singleton.mpr ⟨b, hb, rfl, turns_pairWith _ _ _ _ hreopensB⟩⟩

theorem turns_unlink (hs : s.Sound) {records : List BankRecord} (hrecords : ∀ r ∈ records, r ∈ s.bank) :
    s.Turns reopensRecord reopensPosting ((records.map release).foldl Store.putBank s) := by
  refine (Store.bankMade_turned hs ?_).turns
  exact List.forall_mem_map.mpr fun r hr => ⟨r, hrecords r hr, rfl, turns_release r⟩

theorem mem_released {r : BankRecord} (hr : r ∈ s.bank) (link : ReversalLink) :
    ∀ x ∈ released s r link, x ∈ s.bank := by
  refine List.forall_mem_cons.mpr ⟨hr, fun x hx => ?_⟩
  have hfind : s.bankRecord? link.partnerId = some x := (Option.mem_filter_iff.mp (Option.mem_toList.mp hx)).1
  exact List.mem_of_find?_eq_some hfind

end Reversal

/-! ## Calls -/

section Calls

variable {t : Tolerance} {m : Memory} {c : Operation.Call}

/-- **Whatever steps of a call fail, it opens a review again only with another tag or a reversal link.** -/
theorem Operation.Call.leaves_turns (hc : c.Writes) (hdepth : m.depth = 0) (hs : m.store.Sound) :
    m.store.Turns c.ReopensRecord c.ReopensPosting (c.leaves t m).store := by
  have hkept : m.store.BankMade BankRecord.ReviewKept m.store := .refl (fun r => ⟨rfl, rfl⟩) _
  have hmatching : LastingBank BankRecord.Matching (m.store.BankMade BankRecord.ReviewKept) :=
    Store.lasting_reviewKept (fun r w hw => hw) hs.bank_once
  have hlinking : LastingBank BankRecord.Linking (m.store.BankMade BankRecord.ReviewKept) :=
    Store.lasting_reviewKept (fun r w hw => ⟨hw.1.marking, hw.2⟩) hs.bank_once
  obtain ⟨operation, now, faults⟩ := c
  cases operation with
  | matchGoal goal range tolerance persistent actor =>
      rw [leaves_matchGoal]
      exact (Memory.run_ensures faults (RunResult.ofGoal_lasts hmatching _ now goal range persistent actor)
        hkept).1.turns_of_kept
  | matchBatch range chunk actor =>
      rw [leaves_matchBatch]
      exact (Memory.run_ensures faults (BatchResult.ofChunk_lasts hmatching t now range chunk actor)
        hkept).1.turns_of_kept
  | createMatch ids keys actor =>
      rw [leaves_createMatch]
      exact (Memory.run_ensures faults (ManualMatch.create_lasts hlinking t now ids keys actor) hkept).1.turns_of_kept
  | removeMatches ids keys actor =>
      rw [leaves_removeMatches]
      exact (Memory.run_ensures faults (ManualMatch.remove_lasts hlinking ids keys actor) hkept).1.turns_of_kept
  | tagRecords tagging =>
      rw [leaves_tagRecords]
      obtain hsame | hstored := tagging.apply_stores faults now hdepth
      · rw [hsame]
        exact .refl _ _ _
      · exact Tagging.turns_of_stores hs hstored
  | sweep s =>
      rw [leaves_sweep]
      exact s.run_turns faults t now hdepth hs
  | linkReversal idA idB actor =>
      rw [leaves_linkReversal]
      obtain hsame | ⟨a, b, net, ha, hb, -, -, hstored⟩ := Reversal.link_stores t now idA idB actor hdepth
      · rw [hsame]
        exact .refl _ _ _
      · obtain ⟨hmemA, hidA⟩ := (Store.bankRecord?_iff hs.bank_once).mp ha
        obtain ⟨hmemB, hidB⟩ := (Store.bankRecord?_iff hs.bank_once).mp hb
        rw [hstored]
        exact Reversal.turns_link hs hmemA hmemB actor now ⟨rfl, .inl (Prod.ext hidA (congrArg some hidB))⟩
          ⟨rfl, .inr (Prod.ext hidB (congrArg some hidA))⟩
  | unlinkReversal id actor =>
      rw [leaves_unlinkReversal]
      obtain hsame | ⟨r, link, hr, -, hstored⟩ := Reversal.unlink_stores id actor hdepth
      · rw [hsame]
        exact .refl _ _ _
      · rw [hstored]
        exact Reversal.turns_unlink hs (Reversal.mem_released ((Store.bankRecord?_iff hs.bank_once).mp hr).1 link)
  | _ => obtain hmarks | hpairs := hc <;> contradiction

theorem Operation.Call.leaves_settled (hc : c.Writes) (hdepth : m.depth = 0) (hm : m.store.Settled) :
    (c.leaves t m).store.Settled :=
  (leaves_turns hc hdepth hm.sound).settled (Memory.run_sound c.faults _ hm.sound) hm

/-- Resolved records and postings stay stored, and resolved but where the call has given them what opens them again. -/
structure Operation.Call.KeepsResolved (c : Operation.Call) (s s' : Store) : Prop where
  bank : ∀ r ∈ s.bank, r.review.resolved = true →
    ∃ r' ∈ s'.bank, r'.id = r.id ∧ (r'.review.resolved = true ∨ c.ReopensRecord r r')
  ledger : ∀ p ∈ s.ledger, p.review.resolved = true →
    ∃ p' ∈ s'.ledger, p'.id = p.id ∧ (p'.review.resolved = true ∨ c.ReopensPosting p p')

theorem Operation.Call.keepsResolved (hc : c.Writes) (hdepth : m.depth = 0) (hm : m.store.Settled) :
    c.KeepsResolved m.store (c.leaves t m).store where
  bank _ hr := (leaves_turns hc hdepth hm.sound).bank_kept hm hr
  ledger _ hp := (leaves_turns hc hdepth hm.sound).ledger_kept hm hp

theorem Memory.after_settles {calls : List Operation.Call} (hcalls : ∀ c ∈ calls, c.Writes) (hdepth : m.depth = 0)
    (hm : m.store.Settled) : (m.after t calls).depth = 0 ∧ (m.after t calls).store.Settled := by
  refine Memory.after_invariant (I := fun m => m.depth = 0 ∧ m.store.Settled) (fun c hc m hm => ?_) ⟨hdepth, hm⟩
  exact ⟨(Memory.run_depth c.faults _ m).trans hm.1, Operation.Call.leaves_settled (hcalls c hc) hm.1 hm.2⟩

end Calls

/-- **From reviews without marks, every sequence of calls leaves all reviews settled, whatever steps of them fail; and
none of its calls opens a resolved review again, but one that has given it another tag or its record a reversal
link.** -/
theorem after_settled (t : Tolerance) {s : Store} (hs : s.Sound) (hbank : ∀ r ∈ s.bank, r.review.Blank)
    (hledger : ∀ p ∈ s.ledger, p.review.Blank) {calls : List Operation.Call} (hcalls : ∀ c ∈ calls, c.Writes) :
    ((Memory.ofStore s).after t calls).store.Settled ∧
      ∀ before c rest, calls = before ++ c :: rest →
        c.KeepsResolved ((Memory.ofStore s).after t before).store
          ((Memory.ofStore s).after t (before ++ [c])).store := by
  have hsettles : ∀ calls : List Operation.Call, (∀ c ∈ calls, c.Writes) →
      ((Memory.ofStore s).after t calls).depth = 0 ∧ ((Memory.ofStore s).after t calls).store.Settled :=
    fun calls hcalls => Memory.after_settles hcalls rfl (Store.settled_of_blank hs hbank hledger)
  refine ⟨(hsettles calls hcalls).2, ?_⟩
  rintro before c rest rfl
  obtain ⟨hbefore, hrest⟩ := List.forall_mem_append.mp hcalls
  obtain ⟨hdepth, hsettled⟩ := hsettles before hbefore
  rw [Memory.after, Memory.after, List.foldl_append]
  exact Operation.Call.keepsResolved (hrest c List.mem_cons_self) hdepth hsettled

namespace Sample

/-- A record and a posting, each the other's counterpart, that nobody has tagged. -/
def untagged : Store :=
  { bank := [{ Sweep.Sample.tagged "first" with review := {} }]
    ledger := [{ Sweep.Sample.posting with review := {} }] }

def atNoon (operation : Operation) (faults : Option Faults := none) : Operation.Call :=
  ⟨operation, ⟨Sweep.Sample.monday, 12, 0, 0, 0, some 0⟩, faults⟩

def tagging (side : Side) (name : String) (tag : ReviewTag) : Operation :=
  .tagRecords (.single side name (some tag) none "actor")

/-- Both are tagged; a sweep cannot store the record, the next one can; the record gets the tag that it has, and cannot
be paired with itself; the posting gets another tag. -/
def reviewing : List Operation.Call :=
  [ atNoon (tagging .bank "first" .missingInLedger),
    atNoon (tagging .ledger "key" .missingInBank),
    atNoon (.sweep { size := 2 }) (some { failure := .storage (.saveBank "first"), bank := ["first"] }),
    atNoon (.sweep { size := 2 }),
    atNoon (tagging .bank "first" .missingInLedger),
    atNoon (.linkReversal "first" "first" "actor"),
    atNoon (tagging .ledger "key" .timingDifference) ]

def resolvedAfter (n : Nat) : List Bool × List Bool :=
  let store := ((Memory.ofStore untagged).after {} (reviewing.take n)).store
  (store.bank.map (·.review.resolved), store.ledger.map (·.review.resolved))

end Sample

/-- The posting is resolved first, then the record; in the end the posting is open again. -/
theorem after_settled_sample :
    (Sample.resolvedAfter 3, Sample.resolvedAfter 4, Sample.resolvedAfter 7) =
        (([false], [true]), ([true], [true]), ([true], [false])) ∧
      ((Memory.ofStore Sample.untagged).after {} Sample.reviewing).store.Settled ∧
      ∀ before c rest, Sample.reviewing = before ++ c :: rest →
        c.KeepsResolved ((Memory.ofStore Sample.untagged).after {} before).store
          ((Memory.ofStore Sample.untagged).after {} (before ++ [c])).store := by
  refine ⟨by decide +kernel, after_settled {} ⟨by decide, by decide, by decide +kernel⟩ ?_ ?_ ?_⟩
  · exact List.forall_mem_singleton.mpr ⟨rfl, rfl, rfl, rfl, rfl⟩
  · exact List.forall_mem_singleton.mpr ⟨rfl, rfl, rfl, rfl, rfl⟩
  · simp [Sample.reviewing, Sample.atNoon, Sample.tagging, Operation.Call.Writes, Operation.marks, Operation.pairs]

end GoalReconciliation

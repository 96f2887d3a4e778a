import GoalReconciliation.Proofs.Resolution.Truthful
import GoalReconciliation.Proofs.Store.Together
import GoalReconciliation.Reversal

/-!
# Settled reviews

* `Review.Settled` : the marks of a resolution fit together; `Review.Turns` : a step that keeps them so, and that opens a
  resolved review again only where it may;
* `turns_retag`, `turns_resolve`, `turns_pairWith`, `turns_release` : tags, sweeps, and the making and the dissolving of
  pairs are such steps;
* `Store.Settled`, `Store.Turns` : the same of all reviews of a store, and of the postings of each key together;
* `Sweep.run_turns` : **whatever steps of a sweep fail, it opens no resolved review again, and what it resolves has all
  marks of a resolution**.
-/

namespace GoalReconciliation

set_option autoImplicit false

open Store (keyOf)

/-! ## One review -/

namespace Review

/-- The marks of a resolution fit together: a review that is resolved has a tag that sweeps look for, an instant, a reason
and a batch; one that is not has none of the three. -/
structure Settled (swept : List ReviewTag) (r : Review) : Prop where
  tag : r.resolved = true → ∃ tag ∈ swept, r.tag = some tag
  resolvedAt : r.resolvedAt.isSome = r.resolved
  reason : r.reason.isSome = r.resolved
  batchId : r.batchId.isSome = r.resolved

/-- A step from one review to the next: settled reviews stay settled, and a resolved one stays resolved unless the step
opens it again. -/
structure Turns (swept : List ReviewTag) (reopens : Prop) (before after : Review) : Prop where
  settled : before.Settled swept → after.Settled swept
  kept : before.Settled swept → before.resolved = true → after.resolved = true ∨ reopens

variable {swept : List ReviewTag} {reopens : Prop} {r : Review}

theorem settled_open (hresolved : r.resolved = false) (hinstant : r.resolvedAt = none) (hreason : r.reason = none)
    (hbatch : r.batchId = none) : r.Settled swept where
  tag h := by
    rw [hresolved] at h
    cases h
  resolvedAt := by rw [hinstant, hresolved, Option.isSome_none]
  reason := by rw [hreason, hresolved, Option.isSome_none]
  batchId := by rw [hbatch, hresolved, Option.isSome_none]

structure Blank (r : Review) : Prop where
  tag : r.tag = none
  resolved : r.resolved = false
  resolvedAt : r.resolvedAt = none
  reason : r.reason = none
  batchId : r.batchId = none

theorem Blank.settled (h : r.Blank) : r.Settled swept :=
  settled_open h.resolved h.resolvedAt h.reason h.batchId

theorem Turns.refl (r : Review) : r.Turns swept reopens r :=
  ⟨id, fun _ => .inl⟩

theorem Turns.mono {before after : Review} {others : Prop} (h : before.Turns swept reopens after)
    (hreopens : reopens → others) : before.Turns swept others after :=
  ⟨h.settled, fun hsettled hresolved => (h.kept hsettled hresolved).imp_right hreopens⟩

theorem retag_tag (r : Review) (tag : Option ReviewTag) (notes : Option String) (reviewer : String) (now : Timestamp) :
    (r.retag tag notes reviewer now).tag = tag := by
  unfold retag
  split
  · rename_i hsame
    exact hsame.symm
  · rfl

/-- A new tag opens a review again; the tag that it has keeps its resolution. -/
theorem turns_retag (r : Review) (tag : Option ReviewTag) (notes : Option String) (reviewer : String)
    (now : Timestamp) : r.Turns swept (tag ≠ r.tag) (r.retag tag notes reviewer now) := by
  unfold retag
  by_cases hsame : tag = r.tag
  · rw [if_pos hsame]
    exact ⟨fun h => ⟨h.tag, h.resolvedAt, h.reason, h.batchId⟩, fun _ => .inl⟩
  · rw [if_neg hsame]
    exact ⟨fun _ => settled_open rfl rfl rfl rfl, fun _ _ => .inr hsame⟩

theorem turns_resolve (htag : ∃ tag ∈ swept, r.tag = some tag) (reason batchId : String) (now : Timestamp) :
    r.Turns swept reopens (r.resolve reason batchId now) :=
  ⟨fun _ => ⟨fun _ => htag, rfl, rfl, rfl⟩, fun _ _ => .inl rfl⟩

end Review

namespace Reversal

/-- What makes a record one of a pair opens its review again. -/
theorem turns_pairWith (r partner : BankRecord) (actor : String) (now : Timestamp) {reopens : Prop} (h : reopens) :
    r.review.Turns ReviewTag.sweptOnBank reopens (pairWith r partner actor now).review :=
  ⟨fun _ => Review.settled_open rfl rfl rfl rfl, fun _ _ => .inr h⟩

/-- A tag that is taken off with a link is none that a sweep has resolved. -/
theorem turns_release (r : BankRecord) {reopens : Prop} :
    r.review.Turns ReviewTag.sweptOnBank reopens (release r).review := by
  unfold release
  by_cases htag : r.review.tag = some .reversal
  · simp only [if_pos htag]
    refine ⟨fun _ => Review.settled_open rfl rfl rfl rfl, fun hsettled hresolved => ?_⟩
    obtain ⟨tag, hswept, hother⟩ := hsettled.tag hresolved
    obtain rfl := Option.some.inj (htag.symm.trans hother)
    exact absurd hswept (by decide)
  · simp only [if_neg htag]
    exact Review.Turns.refl _

end Reversal

/-! ## All reviews of a store -/

/-- The postings of a key have one tag, and are resolved together. -/
def Posting.Together (postings : List Posting) : Prop :=
  ∀ p ∈ postings, ∀ q ∈ postings, keyOf p = keyOf q →
    p.review.tag = q.review.tag ∧ p.review.resolved = q.review.resolved

/-- What changes the tag and the resolution of a posting by its key and these alone keeps the postings of a key together. -/
theorem Posting.Together.map {postings : List Posting} (h : Together postings) {f : Posting → Posting}
    (hkey : ∀ p, keyOf (f p) = keyOf p)
    (hf : ∀ p q, keyOf p = keyOf q → p.review.tag = q.review.tag → p.review.resolved = q.review.resolved →
      (f p).review.tag = (f q).review.tag ∧ (f p).review.resolved = (f q).review.resolved) :
    Together (postings.map f) := by
  intro p' hp' q' hq' hsame
  obtain ⟨p, hp, rfl⟩ := List.mem_map.mp hp'
  obtain ⟨q, hq, rfl⟩ := List.mem_map.mp hq'
  rw [hkey, hkey] at hsame
  obtain ⟨htag, hresolved⟩ := h p hp q hq hsame
  exact hf p q hsame htag hresolved

namespace Store

/-- All reviews are settled, and those of the postings of a key agree. -/
structure Settled (s : Store) : Prop where
  sound : s.Sound
  bank : ∀ r ∈ s.bank, r.review.Settled ReviewTag.sweptOnBank
  ledger : ∀ p ∈ s.ledger, p.review.Settled ReviewTag.sweptOnLedger
  together : Posting.Together s.ledger

theorem settled_of_blank {s : Store} (hs : s.Sound) (hbank : ∀ r ∈ s.bank, r.review.Blank)
    (hledger : ∀ p ∈ s.ledger, p.review.Blank) : s.Settled where
  sound := hs
  bank r hr := (hbank r hr).settled
  ledger p hp := (hledger p hp).settled
  together p hp q hq _ :=
    ⟨(hledger p hp).tag.trans (hledger q hq).tag.symm, (hledger p hp).resolved.trans (hledger q hq).resolved.symm⟩

/-- A step that turns reviews, and opens one again only where what has become of its record or posting accounts for it. -/
structure Turns (reopensRecord : BankRecord → BankRecord → Prop) (reopensPosting : Posting → Posting → Prop)
    (s s' : Store) : Prop where
  bank : s.bank.Forall₂ (fun r r' => r'.id = r.id ∧
    r.review.Turns ReviewTag.sweptOnBank (reopensRecord r r') r'.review) s'.bank
  ledger : s.ledger.Forall₂ (fun p p' => p'.id = p.id ∧
    p.review.Turns ReviewTag.sweptOnLedger (reopensPosting p p') p'.review) s'.ledger
  together : Posting.Together s.ledger → Posting.Together s'.ledger

variable {reopensRecord : BankRecord → BankRecord → Prop} {reopensPosting : Posting → Posting → Prop} {s s' : Store}

variable (reopensRecord reopensPosting) in
theorem Turns.refl (s : Store) : s.Turns reopensRecord reopensPosting s :=
  ⟨List.forall₂_same.mpr fun _ _ => ⟨rfl, .refl _⟩, List.forall₂_same.mpr fun _ _ => ⟨rfl, .refl _⟩, id⟩

theorem bankMade_turned (hs : s.Sound) {records : List BankRecord} (hw : ∀ w ∈ records, ∃ r ∈ s.bank, w.id = r.id ∧
    r.review.Turns ReviewTag.sweptOnBank (reopensRecord r w) w.review) :
    s.BankMade (fun r w => w.id = r.id ∧ r.review.Turns ReviewTag.sweptOnBank (reopensRecord r w) w.review)
      (records.foldl Store.putBank s) :=
  (BankMade.refl (fun _ => ⟨rfl, .refl _⟩) s).foldl_putBank (fun _ _ hw => hw.1) hs.bank_once hw

theorem BankMade.turns (h : s.BankMade (fun r w => w.id = r.id ∧
    r.review.Turns ReviewTag.sweptOnBank (reopensRecord r w) w.review) s') : s.Turns reopensRecord reopensPosting s' where
  bank := h.bank
  ledger := by
    rw [h.ledger]
    exact (Turns.refl reopensRecord reopensPosting s).ledger
  together := by
    rw [h.ledger]
    exact id

theorem Turns.settled (h : s.Turns reopensRecord reopensPosting s') (hsound : s'.Sound) (hs : s.Settled) :
    s'.Settled where
  sound := hsound
  bank r' hr' := by
    obtain ⟨r, hr, -, hturns⟩ := Related.exists_of_mem h.bank hr'
    exact hturns.settled (hs.bank r hr)
  ledger p' hp' := by
    obtain ⟨p, hp, -, hturns⟩ := Related.exists_of_mem h.ledger hp'
    exact hturns.settled (hs.ledger p hp)
  together := h.together hs.together

/-- A resolved record is still stored, and resolved if the step does not open it again. -/
theorem Turns.bank_kept (h : s.Turns reopensRecord reopensPosting s') (hs : s.Settled) {r : BankRecord}
    (hr : r ∈ s.bank) (hresolved : r.review.resolved = true) :
    ∃ r' ∈ s'.bank, r'.id = r.id ∧ (r'.review.resolved = true ∨ reopensRecord r r') := by
  obtain ⟨r', hr', hid, hturns⟩ := Related.exists_of_mem h.bank.flip hr
  exact ⟨r', hr', hid, hturns.kept (hs.bank r hr) hresolved⟩

theorem Turns.ledger_kept (h : s.Turns reopensRecord reopensPosting s') (hs : s.Settled) {p : Posting}
    (hp : p ∈ s.ledger) (hresolved : p.review.resolved = true) :
    ∃ p' ∈ s'.ledger, p'.id = p.id ∧ (p'.review.resolved = true ∨ reopensPosting p p') := by
  obtain ⟨p', hp', hid, hturns⟩ := Related.exists_of_mem h.ledger.flip hp
  exact ⟨p', hp', hid, hturns.kept (hs.ledger p hp) hresolved⟩

end Store

/-! ## Sweeps -/

namespace Sweep

variable {now : Timestamp} {s : Sweep} {m : Memory} {before after : Store}

/-- What a sweep finds of a review that has one of its tags opens nothing again. -/
theorem turns_resolvedReview {swept : List ReviewTag} {reopens : Prop} {batchId : String}
    {found : Option ResolvedVariance} {r : Review} (htag : ∀ v, found = some v → ∃ tag ∈ swept, r.tag = some tag) :
    r.Turns swept reopens (resolvedReview now batchId found r) := by
  cases found with
  | none => exact .refl _
  | some v => exact Review.turns_resolve (htag v rfl) _ _ _

theorem turns_resolvedPosting {reopens : Prop} (batchId : String) (details : List ResolvedVariance) (p : Posting) :
    p.review.Turns ReviewTag.sweptOnLedger reopens (resolvedPosting now batchId details p).review := by
  unfold resolvedPosting
  split
  · rename_i hpending
    refine turns_resolvedReview fun _ _ => ?_
    simpa [ReviewTag.sweptOnLedger] using (isPending_iff.mp hpending).2
  · exact .refl _

/-- Whether the postings of a key are pending, and what is told of them, is the same for all of them. -/
theorem together_resolved {postings : List Posting} (h : Posting.Together postings) (batchId : String)
    (details : List ResolvedVariance) : Posting.Together (postings.map (resolvedPosting now batchId details)) := by
  refine h.map (resolvedPosting_key details) fun p q hkey htag hresolved => ?_
  have hpending : isPending p = isPending q := by rw [isPending, isPending, htag, hresolved]
  unfold resolvedPosting resolvedReview
  rw [hpending, hkey]
  split
  · cases told details .ledger (keyOf q) with
    | none => exact ⟨htag, hresolved⟩
    | some v => exact ⟨htag, rfl⟩
  · exact ⟨htag, hresolved⟩

/-- Visits of what a sweep lists open no review again. -/
theorem Visits.turns (hs : before.Sound) {entries : List Entry} (htasks : entries.map Prod.fst = s.listed before)
    (hvisits : Visits now s.batchId before entries after) : before.Turns (fun _ _ => False) (fun _ _ => False) after := by
  obtain ⟨-, hstored⟩ := hvisits.of_listed hs htasks
  -- A record that is told of was listed, so it has a tag that sweeps look for.
  have htagged : ∀ r ∈ before.bank, ∀ v, told (entries.filterMap Entry.resolved?) .bank r.id = some v →
      ∃ tag ∈ ReviewTag.sweptOnBank, r.review.tag = some tag := by
    intro r hr v htold
    obtain ⟨hv, hname⟩ := told_eq_some htold
    obtain ⟨entry, hentry, hresolved⟩ := List.mem_filterMap.mp hv
    have hpending := listed_pending (htasks ▸ List.mem_map_of_mem hentry)
    rw [← hvisits.named entry hentry v hresolved, hname] at hpending
    obtain ⟨x, hx, hid, -, htag, -⟩ := hpending
    obtain rfl := Lookup.eq_of_name hs.bank_once hx hr hid
    simpa [ReviewTag.sweptOnBank] using htag
  rw [hstored]
  exact {
    bank := List.forall₂_map_right_iff.mpr
      (List.forall₂_same.mpr fun r hr => ⟨rfl, turns_resolvedReview (htagged r hr)⟩)
    ledger := List.forall₂_map_right_iff.mpr
      (List.forall₂_same.mpr fun p _ => ⟨resolvedPosting_id _ p, turns_resolvedPosting _ _ p⟩)
    together := fun htogether => together_resolved htogether _ _ }

/-- **Whatever steps of a sweep fail, it opens no review again, and what it resolves has all marks of a resolution.** -/
theorem run_turns (faults : Option Faults) (t : Tolerance) (now : Timestamp) (s : Sweep) (hm : m.depth = 0)
    (hs : m.store.Sound) : m.store.Turns (fun _ _ => False) (fun _ _ => False)
      ((Memory.under faults).effect (run t now s) m).2.store := by
  by_cases hlistings : ∀ f ∈ faults, f.queries = false
  · rw [effect_run hlistings t now hs rfl]
    exact (performAll_visits faults t now s.batchId _ hm).turns hs (performAll_tasks _ _ _ _ _ _)
  · -- The first listing fails already.
    simp only [not_forall, Bool.not_eq_false] at hlistings
    obtain ⟨f, rfl, hqueries⟩ := hlistings
    have hlisting : (Memory.under (some f)).effect
        (Procedure.taggedBank (s.bankFilter s.bankCursor) (some s.size)) m = (.error f.failure, m) :=
      if_pos hqueries
    have hrun : (Memory.under (some f)).effect (run t now s) m = (.error f.failure, m) :=
      Repository.effect_bind_error hlisting
    rw [hrun]
    exact .refl _ _ _

end Sweep

end GoalReconciliation

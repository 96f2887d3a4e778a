import GoalReconciliation.Proofs.Operations.Calls

/-!
# Coherent marks

* `BankRecord.Coherent` : link, instant, score and status of a record's match fit together;
* `coherent_marking`, `coherent_pairing` : so do those of all that is made of such a record;
* `lasting_coherent` : stores of coherent records stay so, whoever else writes;
* `after_coherent` : **whatever is called, and whatever of it fails, the marks of every record are coherent**.
-/

namespace GoalReconciliation

set_option autoImplicit false

/-- Link, instant, score and status of a record's match fit together. -/
structure BankRecord.Coherent (r : BankRecord) : Prop where
  matchedAt : r.reference = none ↔ r.matchedAt = none
  score : r.reference = none ↔ r.score = none
  status : r.reference = none ↔ r.status = .pending ∨ r.status = .missingInLedger
  created : ∀ link ∈ r.reference, link.createdAt = r.matchedAt
  keys : ∀ link ∈ r.reference, link.groupKeys ≠ [] ∧ link.groupKeys.Nodup
  decided : ∀ link ∈ r.reference, r.status = .matched ∨ r.status = .autoApproved ∨ r.status = .manualReview
  manual : ∀ link ∈ r.reference, link.isManual = true → r.status = .matched ∧ r.score = some 100

structure BankRecord.Fresh (r : BankRecord) : Prop where
  reference : r.reference = none
  matchedAt : r.matchedAt = none
  score : r.score = none
  status : r.status = .pending

namespace BankRecord

variable {r w : BankRecord}

theorem coherent_of_none (hreference : r.reference = none) (hmatchedAt : r.matchedAt = none) (hscore : r.score = none)
    (hstatus : r.status = .pending ∨ r.status = .missingInLedger) : r.Coherent where
  matchedAt := by simp [hreference, hmatchedAt]
  score := by simp [hreference, hscore]
  status := by simp [hreference, hstatus]
  created := by simp [hreference]
  keys := by simp [hreference]
  decided := by simp [hreference]
  manual := by simp [hreference]

theorem Fresh.coherent (h : r.Fresh) : r.Coherent :=
  coherent_of_none h.reference h.matchedAt h.score (.inl h.status)

theorem coherent_mark {link : MatchReference} {score : Int} {status : Status} {now : Timestamp}
    (h : link.Fits score status now) (r : BankRecord) : (r.mark link score status now).Coherent where
  matchedAt := by simp [mark]
  score := by simp [mark]
  status := by
    have hdecided := h.decided
    rcases hdecided with rfl | rfl | rfl <;> simp [mark]
  created := by simp [mark, h.created]
  keys := by simp [mark, h.keys, h.keys_once]
  decided := by simp [mark, h.decided]
  manual := by simpa [mark] using h.manual

theorem coherent_marking (hr : r.Coherent) (h : r.Marking w) : w.Coherent := by
  cases h with
  | reviewed review => exact { hr with }
  | cleared => exact coherent_of_none rfl rfl rfl (.inl rfl)
  | missing => exact coherent_of_none rfl rfl rfl (.inr rfl)
  | marked hfits => exact coherent_mark hfits r

theorem coherent_pairing (hr : r.Coherent) (h : r.Pairing w) : w.Coherent := by
  cases h with
  | paired review link => exact { hr with }

end BankRecord

structure Store.Coherent (s : Store) : Prop where
  distinct : (s.bank.map BankRecord.id).Nodup
  records : ∀ r ∈ s.bank, r.Coherent

/-- Stores of coherent records stay so, whatever is made of coherent records. -/
theorem lasting_coherent : Lasting (fun r w => r.Coherent → w.Coherent) Store.Coherent where
  distinct _ hs := hs.distinct
  bank r w hr hw s hs := by
    obtain ⟨read, hread, hmem⟩ := hr
    refine ⟨nodup_replaceOrAdd hs.distinct, fun x hx => ?_⟩
    rcases mem_replaceOrAdd hx with rfl | hold
    · exact hw (hread.records r hmem)
    · exact hs.records x hold
  posting p s s' hput hs := by
    have hbank := Store.putPosting_bank hput
    exact ⟨hbank ▸ hs.distinct, hbank ▸ hs.records⟩

theorem leaves_coherent {t : Tolerance} {c : Operation.Call} (hc : c.Writes) {m : Memory} (hm : m.store.Coherent) :
    (c.leaves t m).store.Coherent := by
  rcases hc with hmarks | hpairs
  · exact c.leaves_marks (lasting_coherent.mono fun _ _ h hr => BankRecord.coherent_marking hr h) hmarks hm
  · exact c.leaves_pairs (lasting_coherent.mono fun _ _ h hr => BankRecord.coherent_pairing hr h) hpairs hm

/-- **The marks of records on which no match was ever written stay coherent, whatever is called and fails.** -/
theorem after_coherent {s : Store} (hids : (s.bank.map BankRecord.id).Nodup) (hfresh : ∀ r ∈ s.bank, r.Fresh)
    (t : Tolerance) {calls : List Operation.Call} (hcalls : ∀ c ∈ calls, c.Writes) :
    ∀ r ∈ ((Memory.ofStore s).after t calls).store.bank, r.Coherent := by
  have hstart : s.Coherent := ⟨hids, fun r hr => (hfresh r hr).coherent⟩
  have hend := Memory.after_invariant (I := fun m => m.store.Coherent)
    (fun c hc m hm => leaves_coherent (t := t) (hcalls c hc) hm) (m := .ofStore s) hstart
  exact hend.records

namespace Sample

/-- Two records on which nothing was written, on two days, and a posting that fits the second one. -/
def unmarked : Store :=
  { bank := [{ record "single" "s2" 70 with date := dayBefore }, record "paired" "s1" 100]
    ledger := [posting "p1" "a" "s1" 100] }

theorem one_day (d : Date) : d ≤ d := Nat.le_refl d.ordinal

/-- A run for the first day, a run for the second day whose save fails, an operator's match of the second record, and
that match refused when it is made again. -/
def calls : List Operation.Call :=
  [{ operation := .matchGoal "goal" ⟨dayBefore, dayBefore, one_day dayBefore⟩ none true "actor"
     now := ⟨day, 11, 0, 0, 0, some 0⟩ },
    { operation := .matchGoal "goal" ⟨day, day, one_day day⟩ none true "actor", now := ⟨day, 12, 0, 0, 0, some 0⟩
      faults := some { failure := .storage (.saveBank "paired"), bank := ["paired"] } },
    { operation := .createMatch ["paired"] ["a"] "operator", now := ⟨day, 13, 0, 0, 0, some 0⟩ },
    { operation := .createMatch ["paired"] ["a"] "operator", now := ⟨day, 14, 0, 0, 0, some 0⟩ }]

end Sample

theorem after_coherent_sample :
    (∀ r ∈ ((Memory.ofStore Sample.unmarked).after {} Sample.calls).store.bank, r.Coherent) ∧
      ((Memory.ofStore Sample.unmarked).after {} Sample.calls).store.bank.map
        (fun r => (r.id, r.hasManualMatch, r.status)) =
          [("single", false, .missingInLedger), ("paired", true, .matched)] := by
  refine ⟨after_coherent (by decide) ?_ {} ?_, by decide +kernel⟩
  · have hfresh : ∀ r ∈ Sample.unmarked.bank,
        r.reference = none ∧ r.matchedAt = none ∧ r.score = none ∧ r.status = .pending := by decide
    intro r hr
    obtain ⟨hreference, hmatchedAt, hscore, hstatus⟩ := hfresh r hr
    exact ⟨hreference, hmatchedAt, hscore, hstatus⟩
  · have hmarks : ∀ c ∈ Sample.calls, c.operation.marks = true := by simp [Sample.calls, Operation.marks]
    exact fun c hc => .inl (hmarks c hc)

end GoalReconciliation

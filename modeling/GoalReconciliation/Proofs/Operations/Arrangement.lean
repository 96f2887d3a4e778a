import GoalReconciliation.Proofs.Operations.Coherence
import GoalReconciliation.Proofs.Operations.Spending
import GoalReconciliation.Proofs.Store.Arrangement

/-!
# The order of filling does not show

* `Call.trace`, `Memory.history` : what one call comes to, and what is told of several calls;
* `Call.rearranges` : one call on the same records in another order;
* `history_rearranges` : several calls, one after the other;
* `filled_in_any_order` : **stores filled with the same records in two orders tell the same of all calls, and hold the
  same record under each id behind them.**
-/

namespace GoalReconciliation

set_option autoImplicit false

def Operation.Call.trace (t : Tolerance) (m : Memory) (c : Operation.Call) : Trace Memory Json :=
  (Memory.under c.faults).run (c.operation.procedure t c.now) m

/-- What is told of several calls, one after the other: the outcome and the events of each. -/
def Memory.history (t : Tolerance) : Memory → List Operation.Call → List (Except Failure Json × List AuditEvent)
  | _, [] => []
  | m, c :: rest => ((c.trace t m).outcome, (c.trace t m).events) :: (c.leaves t m).history t rest

variable {t : Tolerance} {m m' : Memory}

/-- **One call comes to the same**, whatever the order of the records, and leaves the same records again. -/
theorem Operation.Call.rearranges (h : m.Rearranges m') (c : Operation.Call) :
    (c.trace t m').outcome = (c.trace t m).outcome ∧ (c.trace t m').events = (c.trace t m).events ∧
      (c.leaves t m).Rearranges (c.leaves t m') :=
  (Memory.under_respects_rearranges c.faults).run (c.operation.procedure t c.now) h

theorem Memory.history_rearranges (h : m.Rearranges m') (calls : List Operation.Call) :
    m'.history t calls = m.history t calls ∧ (m.after t calls).Rearranges (m'.after t calls) := by
  induction calls generalizing m m' with
  | nil => exact ⟨rfl, h⟩
  | cons c rest ih =>
      obtain ⟨houtcome, hevents, hleaves⟩ := c.rearranges (t := t) h
      obtain ⟨hrest, hafter⟩ := ih hleaves
      refine ⟨?_, hafter⟩
      rw [history, history, houtcome, hevents, hrest]

/-- **Of the same records and postings, each with an id of its own, a store can be filled in any order or in none. All
calls tell the same of it, and behind them each id has the same record.** -/
theorem filled_in_any_order (t : Tolerance) {records others : List BankRecord} {postings more : List Posting}
    (hbank : (records.map BankRecord.id).Nodup) (hledger : (postings.map Posting.id).Nodup)
    (hrecords : records.Perm others) (hpostings : postings.Perm more) :
    (∃ s s', Store.ofRecords records postings = .ok s ∧ Store.ofRecords others more = .ok s' ∧
        ∀ calls : List Operation.Call,
          (Memory.ofStore s').history t calls = (Memory.ofStore s).history t calls ∧
            ∀ id, ((Memory.ofStore s').after t calls).store.bankRecord? id =
                ((Memory.ofStore s).after t calls).store.bankRecord? id ∧
              ((Memory.ofStore s').after t calls).store.posting? id =
                ((Memory.ofStore s).after t calls).store.posting? id) ∨
      ∃ failure failure', Store.ofRecords records postings = .error failure ∧
        Store.ofRecords others more = .error failure' := by
  refine (Store.ofRecords_rearranges hbank hledger hrecords hpostings).imp_left ?_
  rintro ⟨s, s', hs, hs', hsame⟩
  refine ⟨s, s', hs, hs', fun calls => ?_⟩
  obtain ⟨hhistory, hafter⟩ := Memory.history_rearranges (t := t) (Memory.rearranges_ofStore hsame) calls
  exact ⟨hhistory, fun id => ⟨hafter.store.bankRecord? id, hafter.store.posting? id⟩⟩

namespace Sample

/-- Two credits that two postings fit equally well. -/
def twins : List BankRecord :=
  [record "first" "s1" 100, record "second" "s1" 100]

def twinPostings : List Posting :=
  [posting "p1" "a" "s1" 100, posting "p2" "b" "s1" 100]

def fiveCalls : List Operation.Call :=
  [runAt ⟨day, 9, 0, 0, 0, some 0⟩,
    { operation := .matchBatch oneDay {} "actor", now := ⟨day, 10, 0, 0, 0, some 0⟩ },
    { operation := .sweep {}, now := ⟨day, 11, 0, 0, 0, some 0⟩ },
    { operation := .resolvedReport none none none, now := ⟨day, 12, 0, 0, 0, some 0⟩ },
    { operation := .goalSummary "goal" oneDay, now := ⟨day, 13, 0, 0, 0, some 0⟩ }]

end Sample

theorem filled_in_any_order_sample :
    ∃ s s', Store.ofRecords Sample.twins Sample.twinPostings = .ok s ∧
      Store.ofRecords Sample.twins.reverse Sample.twinPostings.reverse = .ok s' ∧
      s'.bank.map BankRecord.id = ["second", "first"] ∧
      (Memory.ofStore s').history {} Sample.fiveCalls = (Memory.ofStore s).history {} Sample.fiveCalls ∧
      ((Memory.ofStore s').after {} Sample.fiveCalls).store.bankRecord? "first" =
        ((Memory.ofStore s).after {} Sample.fiveCalls).store.bankRecord? "first" := by
  have hbank : (Sample.twins.map BankRecord.id).Nodup := by decide
  have hledger : (Sample.twinPostings.map Posting.id).Nodup := by decide
  obtain ⟨s, s', hs, hs', hsame⟩ | ⟨failure, failure', hfailure, -⟩ :=
    filled_in_any_order {} hbank hledger (List.reverse_perm _).symm (List.reverse_perm _).symm
  · obtain ⟨hhistory, hrecords⟩ := hsame Sample.fiveCalls
    have hids : (Store.ofRecords Sample.twins.reverse Sample.twinPostings.reverse).map
        (fun s => s.bank.map BankRecord.id) = .ok ["second", "first"] := by decide +kernel
    rw [hs'] at hids
    exact ⟨s, s', hs, hs', Except.ok.inj hids, hhistory, (hrecords "first").1⟩
  · have hfilled : (Store.ofRecords Sample.twins Sample.twinPostings).toBool = true := by decide +kernel
    rw [hfailure] at hfilled
    cases hfilled

end GoalReconciliation

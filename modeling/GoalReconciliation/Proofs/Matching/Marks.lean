import GoalReconciliation.Matching.Outcome
import GoalReconciliation.Proofs.Assoc

/-!
# What the matcher does not look at

* `Matching.Unseen` : a change of records that no pass sees; `Unseen.ofRecords_map` : **the matches of changed records
  are those of the records**;
* `BankRecord.bare` : a record without marks, except for an operator's match; `ofRecords_bare` : of the marks that
  earlier runs have left, nothing influences the matcher.
-/

namespace GoalReconciliation

set_option autoImplicit false

namespace Matching

/-! ## Changes that are not seen -/

/-- A change of records that no pass of the matcher sees. -/
structure Unseen (f : BankRecord → BankRecord) : Prop where
  id : ∀ r, (f r).id = r.id
  sourceId : ∀ r, (f r).sourceId = r.sourceId
  transactionType : ∀ r, (f r).transactionType = r.transactionType
  date : ∀ r, (f r).date = r.date
  amount : ∀ r, (f r).amount = r.amount
  manual : ∀ r, (f r).hasManualMatch = r.hasManualMatch
  keys : ∀ r, r.hasManualMatch = true → manualKeys (f r) = manualKeys r

theorem last?_map {α : Type} {name : α → String} {f : α → α} (hname : ∀ a, name (f a) = name a) (items : List α)
    (n : String) : Assoc.last? name (items.map f) n = (Assoc.last? name items n).map f := by
  have hsame : (fun item => decide (name item = n)) ∘ f = fun item => decide (name item = n) :=
    funext fun a => by simp [hname]
  rw [Assoc.last?, ← List.map_reverse, List.find?_map, hsame]
  rfl

/-- A split looks at the names and the amounts of its candidates. -/
theorem splitTurn_map {t : Tolerance} {α : Type} {name : α → String} {amount : α → Decimal} {f : α → α}
    (hname : ∀ a, name (f a) = name a) (hamount : ∀ a, amount (f a) = amount a) (candidates : List α)
    (target : Decimal) {take : List α → Except Decimal.Fault Claims} (htake : ∀ xs, take (xs.map f) = take xs)
    (c : Claims) :
    splitTurn t name amount (candidates.map f) target take c = splitTurn t name amount candidates target take c := by
  have hitems : (candidates.map f).map (fun a => (name a, amount a)) = candidates.map fun a => (name a, amount a) := by
    rw [List.map_map]
    exact List.map_congr_left fun a _ => by simp [hname, hamount]
  have hpicked : ∀ names : List String, names.filterMap (Assoc.last? name (candidates.map f)) =
      (names.filterMap (Assoc.last? name candidates)).map f := by
    intro names
    rw [List.map_filterMap, funext fun n => last?_map hname candidates n]
  unfold splitTurn
  simp only [List.length_map, hitems, hpicked, htake]

namespace Unseen

variable {f : BankRecord → BankRecord} {t : Tolerance} {records : List BankRecord} {groups : List Group}
  (hf : Unseen f)

include hf

theorem map_id (rs : List BankRecord) : (rs.map f).map BankRecord.id = rs.map BankRecord.id :=
  List.map_map.trans (List.map_congr_left fun r _ => hf.id r)

theorem map_amount (rs : List BankRecord) : (rs.map f).map BankRecord.amount = rs.map BankRecord.amount :=
  List.map_map.trans (List.map_congr_left fun r _ => hf.amount r)

theorem freeBank (c : Claims) (r : BankRecord) : c.freeBank (f r) = c.freeBank r := by
  rw [Claims.freeBank, Claims.freeBank, hf.id]

theorem sameSource_eq (r : BankRecord) (g : Group) : sameSource (f r) g = sameSource r g := by
  rw [sameSource, sameSource, hf.sourceId, hf.transactionType]

theorem sameDay_eq (r : BankRecord) (g : Group) : sameDay (f r) g = sameDay r g := by
  rw [sameDay, sameDay, hf.date, hf.transactionType]

theorem pair_map (rs : List BankRecord) (gs : List Group) (matchType : MatchType) (confidence : Float)
    (within : Bool) : Match.pair (rs.map f) gs matchType confidence within =
      Match.pair rs gs matchType confidence within := by
  unfold Match.pair
  rw [hf.map_id, hf.map_amount]

theorem take_map (c : Claims) (rs : List BankRecord) (gs : List Group) (matchType : MatchType) (confidence : Float)
    (within : Bool) : c.take (rs.map f) gs matchType confidence within = c.take rs gs matchType confidence within := by
  unfold Claims.take
  rw [hf.pair_map, hf.map_id]

/-! ### The passes -/

theorem onManual : Unseen fun r => if r.hasManualMatch = true then f r else r := by
  have hkept : ∀ {β : Type} (part : BankRecord → β), (∀ r, part (f r) = part r) →
      ∀ r : BankRecord, part (if r.hasManualMatch = true then f r else r) = part r := by
    intro β part hpart r
    split
    · exact hpart r
    · rfl
  refine ⟨hkept _ hf.id, hkept _ hf.sourceId, hkept _ hf.transactionType, hkept _ hf.date, hkept _ hf.amount,
    hkept _ hf.manual, fun r h => ?_⟩
  rw [if_pos h, hf.keys r h]

theorem manualPass_map (c : Claims) : manualPass (records.map f) groups c = manualPass records groups c := by
  let g : BankRecord → BankRecord := fun r => if r.hasManualMatch = true then f r else r
  have hg : Unseen g := hf.onManual
  have hkeys : ∀ r, manualKeys (g r) = manualKeys r := by
    intro r
    by_cases h : r.hasManualMatch = true
    · exact hg.keys r h
    · exact congrArg manualKeys (if_neg h)
  have hchosen : (records.map f).filter BankRecord.hasManualMatch =
      (records.filter BankRecord.hasManualMatch).map g := by
    have hsame : BankRecord.hasManualMatch ∘ f = BankRecord.hasManualMatch := funext hf.manual
    rw [List.filter_map, hsame]
    exact List.map_congr_left fun r hr => (if_pos (List.mem_filter.mp hr).2).symm
  have hturn : (fun c (link : List String × List BankRecord) => takeManual groups c (link.1, link.2.map g)) =
      takeManual groups := by
    funext c link
    simp only [takeManual, hg.pair_map, hg.map_id]
  rw [manualPass, manualPass, hchosen, Assoc.gather_map hkeys, List.foldlM_map, hturn]

theorem pairPass_map {fits : BankRecord → Group → Except Decimal.Fault Bool} (hfits : ∀ r g, fits (f r) g = fits r g)
    {confidence : BankRecord → Group → Float} (hconfidence : ∀ r g, confidence (f r) g = confidence r g)
    (matchType : MatchType) (within : Bool) (c : Claims) :
    pairPass fits matchType confidence within (records.map f) groups c =
      pairPass fits matchType confidence within records groups c := by
  have hturn : (fun c r => pairTurn fits matchType confidence within groups c (f r)) =
      pairTurn fits matchType confidence within groups := by
    funext c r
    have hsame : fits (f r) = fits r := funext fun g => hfits r g
    have htake : ∀ g : Group, c.take [f r] [g] matchType (confidence (f r) g) within =
        c.take [r] [g] matchType (confidence r g) within := fun g => by
      rw [hconfidence]
      exact hf.take_map c [r] [g] _ _ _
    unfold pairTurn
    simp only [hf.freeBank, hsame, htake]
  rw [pairPass, pairPass, List.foldlM_map, hturn]

theorem exactPass_map (c : Claims) : exactPass t (records.map f) groups c = exactPass t records groups c :=
  hf.pairPass_map (fun r g => by rw [exactFits, exactFits, hf.sameSource_eq, hf.amount]) (fun _ _ => rfl) _ _ c

theorem amountPass_map (c : Claims) : amountPass t (records.map f) groups c = amountPass t records groups c :=
  hf.pairPass_map (fun r g => by rw [amountFits, amountFits, hf.transactionType, hf.date, hf.amount])
    (fun r g => by rw [amountConfidence, amountConfidence, hf.date]) _ _ c

theorem sourcePass_map (c : Claims) : sourcePass (records.map f) groups c = sourcePass records groups c :=
  hf.pairPass_map (fun r g => congrArg Except.ok (hf.sameSource_eq r g)) (fun _ _ => rfl) _ _ c

theorem splitGroupPass_map (c : Claims) :
    splitGroupPass t (records.map f) groups c = splitGroupPass t records groups c := by
  have hturn : (fun c r => splitGroupTurn t groups c (f r)) = splitGroupTurn t groups := by
    funext c r
    have hgroups : c.groupsOf groups (f r) = c.groupsOf groups r :=
      List.filter_congr fun g _ => by rw [hf.sameDay_eq]
    have htake : ∀ gs : List Group, c.take [f r] gs .splitGroupToBank 0.7 true =
        c.take [r] gs .splitGroupToBank 0.7 true := fun gs => hf.take_map c [r] gs _ _ _
    unfold splitGroupTurn
    simp only [hf.freeBank, hgroups, hf.amount, htake]
  rw [splitGroupPass, splitGroupPass, List.foldlM_map, hturn]

theorem splitBankPass_map (c : Claims) :
    splitBankPass t (records.map f) groups c = splitBankPass t records groups c := by
  have hturn : splitBankTurn t (records.map f) = splitBankTurn t records := by
    funext c g
    have hchosen : (fun r => c.freeBank r && sameDay r g) ∘ f = fun r => c.freeBank r && sameDay r g :=
      funext fun r => by simp [hf.freeBank, hf.sameDay_eq]
    have hcandidates : c.recordsOf (records.map f) g = (c.recordsOf records g).map f := by
      rw [Claims.recordsOf, List.filter_map, hchosen]
      rfl
    unfold splitBankTurn
    rw [hcandidates, splitTurn_map hf.id hf.amount _ _ fun rs => hf.take_map c rs _ _ _ _]
  rw [splitBankPass, splitBankPass, hturn]

/-- **The matches of records do not depend on what no pass sees.** -/
theorem ofRecords_map (t : Tolerance) (records : List BankRecord) (groups : List Group) (reserved : List String) :
    MatchOutcome.ofRecords t (records.map f) groups reserved = MatchOutcome.ofRecords t records groups reserved := by
  have hleft : ∀ c : Claims, ((records.map f).filter c.freeBank).map BankRecord.id =
      (records.filter c.freeBank).map BankRecord.id := by
    intro c
    have hfree : c.freeBank ∘ f = c.freeBank := funext (hf.freeBank c)
    rw [List.filter_map, hfree, hf.map_id]
  unfold MatchOutcome.ofRecords MatchOutcome.claims
  simp only [hf.manualPass_map, hf.exactPass_map, hf.amountPass_map, hf.splitBankPass_map, hf.splitGroupPass_map,
    hf.sourcePass_map, hleft]

end Unseen

end Matching

/-! ## Marks -/

namespace BankRecord

/-- The record without marks, except for an operator's match. -/
def bare (r : BankRecord) : BankRecord :=
  { r with
    reference := r.reference.filter MatchReference.isManual
    matchedAt := if r.hasManualMatch then r.matchedAt else none
    score := if r.hasManualMatch then r.score else none
    status := if r.hasManualMatch then r.status else .pending }

theorem bare_hasManualMatch (r : BankRecord) : r.bare.hasManualMatch = r.hasManualMatch := by
  unfold bare hasManualMatch
  cases r.reference with
  | none => rfl
  | some link => cases h : link.isManual <;> simp [Option.filter, h]

theorem bare_of_manual {r : BankRecord} (h : r.hasManualMatch = true) : r.bare = r := by
  have hreference : r.reference.filter MatchReference.isManual = r.reference := by
    unfold hasManualMatch at h
    cases hlink : r.reference with
    | none => rfl
    | some link =>
        rw [hlink] at h
        exact Option.filter_some_pos h
  simp [bare, h, hreference]

theorem bare_of_not_manual {r : BankRecord} (h : r.hasManualMatch = false) : r.bare = r.clearMatch := by
  have hreference : r.reference.filter MatchReference.isManual = none := by
    unfold hasManualMatch at h
    cases hlink : r.reference with
    | none => rfl
    | some link =>
        rw [hlink] at h
        exact Option.filter_some_neg (by simpa using h)
  simp [bare, clearMatch, h, hreference]

theorem filter_bare {chosen : BankRecord → Bool} (hbare : ∀ r, chosen r.bare = chosen r)
    (hmanual : ∀ r, chosen r = true → r.hasManualMatch = true) (records : List BankRecord) :
    (records.map bare).filter chosen = records.filter chosen := by
  have hsame : chosen ∘ bare = chosen := funext hbare
  rw [List.filter_map, hsame]
  refine (List.map_congr_left fun r hr => ?_).trans (List.map_id _)
  exact bare_of_manual (hmanual r (List.mem_filter.mp hr).2)

end BankRecord

open BankRecord (bare)

theorem Matching.unseen_bare : Unseen bare where
  id _ := rfl
  sourceId _ := rfl
  transactionType _ := rfl
  date _ := rfl
  amount _ := rfl
  manual := BankRecord.bare_hasManualMatch
  keys _ h := congrArg manualKeys (BankRecord.bare_of_manual h)

/-- **The matches of records are those of the bare records.** -/
theorem ofRecords_bare (t : Tolerance) (records : List BankRecord) (groups : List Group) (reserved : List String) :
    MatchOutcome.ofRecords t (records.map bare) groups reserved = MatchOutcome.ofRecords t records groups reserved :=
  Matching.unseen_bare.ofRecords_map t records groups reserved

end GoalReconciliation

import GoalReconciliation.Proofs.Decimal.Exact
import GoalReconciliation.Proofs.Run.Refusals

/-!
# The sums of a group

The postings of a key are summed up one after the other, in all and for each instrument. Where every sum on the way fits
the working precision, what is summed up is the exact sum of the postings so far.

* `Group.worth`, `Group.ofInstrument` : the exact sum of postings, and the postings of an instrument;
* `Group.SumsFit` : no sum on the way is rounded; `sumsFit_of_exactSums` : amounts that add up exactly are such;
* `Group.Summed` : what the sums say of the postings so far; `Summed.addPosting` : **one more posting keeps that**;
* `Group.foldlM_summed` : the sums of all the postings, or a posting that does not agree with the first one;
* `Group.SumOf` : a group that is the sum of its postings; `build_sumOf` : and so is every group of postings that agree.
-/

namespace GoalReconciliation

set_option autoImplicit false

open Decimal (Fits add_fits worth_value worth_zero)
open Fallible (bind_eq_ok pure_eq_ok)

theorem Amounts.total_put (code : Listed Instrument) (d : Decimal) (amounts : Amounts) :
    Decimal.total ((Assoc.put code d amounts).map Prod.snd) + ((Assoc.get? code amounts).getD Decimal.zero).value =
      Decimal.total (amounts.map Prod.snd) + d.value := by
  induction amounts with
  | nil => simp [Assoc.put, Assoc.get?, worth_zero.2]
  | cons pair rest ih =>
      unfold Assoc.get? at ih ⊢
      unfold Assoc.put
      by_cases h : pair.1 = code
      · rw [if_pos h, List.find?_cons_of_pos (by simpa using h)]
        simp only [List.map_cons, Decimal.total_cons, Option.map_some, Option.getD_some]
        ring
      · rw [if_neg h, List.find?_cons_of_neg (by simpa using h)]
        simp only [List.map_cons, Decimal.total_cons]
        linarith

namespace Group

def worth (postings : List Posting) : ℚ :=
  Decimal.total (postings.map Posting.amount)

def ofInstrument (code : Listed Instrument) (postings : List Posting) : List Posting :=
  postings.filter fun p => decide (p.instrument = code)

theorem worth_concat (postings : List Posting) (p : Posting) :
    worth (postings ++ [p]) = worth postings + p.amount.value := by
  simp [worth, Decimal.total]

theorem ofInstrument_concat_self (postings : List Posting) (p : Posting) :
    ofInstrument p.instrument (postings ++ [p]) = ofInstrument p.instrument postings ++ [p] := by
  simp [ofInstrument]

theorem ofInstrument_concat_ne (postings : List Posting) {p : Posting} {code : Listed Instrument}
    (h : p.instrument ≠ code) : ofInstrument code (postings ++ [p]) = ofInstrument code postings := by
  simp [ofInstrument, h]

/-- Postings of finite amounts whose sums on the way, in all and for each instrument, fit the working precision. -/
structure SumsFit (postings : List Posting) : Prop where
  finite : ∀ p ∈ postings, p.amount.isFinite = true
  total : ∀ front : List Posting, front <+: postings → Fits (worth front)
  instrument : ∀ front : List Posting, front <+: postings → ∀ code, Fits (worth (ofInstrument code front))

/-- Amounts that add up exactly in every choice add up exactly on the way. -/
theorem sumsFit_of_exactSums {postings : List Posting} (h : Decimal.ExactSums (postings.map Posting.amount)) :
    SumsFit postings where
  finite p hp := h.finite p.amount (List.mem_map_of_mem hp)
  total _ hfront := h.fits _ (hfront.sublist.map _)
  instrument _ hfront _ := h.fits _ ((List.filter_sublist.trans hfront.sublist).map _)

structure Summed (done : List Posting) (sums : Sums) : Prop where
  total : sums.1.Worth (worth done)
  distinct : (sums.2.map Prod.fst).Nodup
  listed : ∀ code, code ∈ sums.2.map Prod.fst ↔ ∃ p ∈ done, p.instrument = code
  each : ∀ code, ((Assoc.get? code sums.2).getD Decimal.zero).Worth (worth (ofInstrument code done))
  whole : Decimal.total (sums.2.map Prod.snd) = worth done

theorem summed_nil : Summed [] (Decimal.zero, []) where
  total := worth_zero
  distinct := List.nodup_nil
  listed := by simp
  each _ := worth_zero
  whole := rfl

theorem Summed.addPosting (key : String) {first p : Posting} {done : List Posting} {sums : Sums}
    (h : Summed done sums) (hagrees : agrees first p = true) (hfinite : p.amount.isFinite = true)
    (htotal : Fits (worth (done ++ [p]))) (hinstrument : Fits (worth (ofInstrument p.instrument (done ++ [p])))) :
    ∃ sums', Group.addPosting key first sums p = .ok sums' ∧ Summed (done ++ [p]) sums' := by
  rw [worth_concat] at htotal
  rw [ofInstrument_concat_self, worth_concat] at hinstrument
  obtain ⟨sum, hsum, hsumWorth⟩ := add_fits h.total (worth_value hfinite) htotal
  obtain ⟨part, hpart, hpartWorth⟩ := add_fits (h.each p.instrument) (worth_value hfinite) hinstrument
  have hadded : sums.2.addTo p.instrument p.amount = .ok (Assoc.put p.instrument part sums.2) :=
    bind_eq_ok.mpr ⟨part, hpart, rfl⟩
  refine ⟨(sum, Assoc.put p.instrument part sums.2), ?_, ?_⟩
  · unfold Group.addPosting
    rw [hagrees, hsum, hadded]
    rfl
  · refine ⟨?_, Assoc.nodup_put h.distinct, ?_, ?_, ?_⟩
    · rw [worth_concat]
      exact hsumWorth
    · intro code
      rw [← Assoc.isSome_get?, Assoc.get?_put]
      by_cases hcode : p.instrument = code
      · rw [if_pos hcode]
        simp [hcode]
      · rw [if_neg hcode, Assoc.isSome_get?, h.listed]
        simp [hcode]
    · intro code
      rw [Assoc.get?_put]
      by_cases hcode : p.instrument = code
      · rw [if_pos hcode, ← hcode, ofInstrument_concat_self, worth_concat]
        exact hpartWorth
      · rw [if_neg hcode, ofInstrument_concat_ne done hcode]
        exact h.each code
    · have hput := Amounts.total_put p.instrument part sums.2
      rw [h.whole, (h.each p.instrument).2, hpartWorth.2] at hput
      rw [worth_concat]
      linarith

/-- The sums of all the postings, or a posting that does not agree with the first one. -/
theorem foldlM_summed (key : String) (first : Posting) {done rest : List Posting} (hfits : SumsFit (done ++ rest))
    {sums : Sums} (h : Summed done sums) :
    (∃ sums', rest.foldlM (Group.addPosting key first) sums = .ok sums' ∧ Summed (done ++ rest) sums') ∨
      ∃ problem, rest.foldlM (Group.addPosting key first) sums = .error (.invalid problem) := by
  induction rest generalizing done sums with
  | nil =>
      rw [List.append_nil]
      exact .inl ⟨sums, rfl, h⟩
  | cons p rest ih =>
      rw [List.foldlM_cons]
      cases hagrees : agrees first p with
      | false =>
          rw [addPosting_disagreeing sums hagrees]
          exact .inr ⟨_, rfl⟩
      | true =>
          rw [List.append_cons] at hfits
          have hfront : done ++ [p] <+: done ++ [p] ++ rest := List.prefix_append _ _
          have hp : p.amount.isFinite = true := hfits.finite p (by simp)
          obtain ⟨next, hnext, hsummed⟩ := h.addPosting key hagrees hp (hfits.total _ hfront)
            (hfits.instrument _ hfront p.instrument)
          rw [hnext, List.append_cons]
          exact ih hfits hsummed

structure SumOf (postings : List Posting) (g : Group) : Prop where
  ids : g.postingIds = postings.map Posting.id
  total : g.amount.Worth (worth postings)
  whole : g.amount.Worth (Decimal.total (g.instruments.map Prod.snd))
  distinct : (g.instruments.map Prod.fst).Nodup
  listed : ∀ code, code ∈ g.instruments.map Prod.fst ↔ ∃ p ∈ postings, p.instrument = code
  each : ∀ entry ∈ g.instruments, entry.2.Worth (worth (ofInstrument entry.1 postings))

/-- Postings of one movement make a group that is their sum, and others make none. -/
theorem build_sumOf (key : String) {postings : List Posting} (hne : postings ≠ []) (hfits : SumsFit postings) :
    OneMovement postings ∧ (∃ g, build key postings = .ok g ∧ g.key = key ∧ SumOf postings g) ∨
      ¬OneMovement postings ∧ ∃ problem, build key postings = .error (.invalid problem) := by
  obtain ⟨first, rest, rfl⟩ := List.exists_cons_of_ne_nil hne
  rcases foldlM_summed key first (show SumsFit ([] ++ first :: rest) from hfits) summed_nil with
    ⟨sums, hsums, hsummed⟩ | ⟨problem, hinvalid⟩
  · left
    refine ⟨oneMovement_iff.mpr (foldlM_addPosting_ok hsums), _, bind_eq_ok.mpr ⟨sums, hsums, rfl⟩, rfl, ?_⟩
    rw [List.nil_append] at hsummed
    refine ⟨rfl, hsummed.total, ?_, hsummed.distinct, hsummed.listed, ?_⟩
    · rw [hsummed.whole]
      exact hsummed.total
    · intro entry hentry
      have heach := hsummed.each entry.1
      rwa [Assoc.get?_of_mem hsummed.distinct hentry] at heach
  · right
    have hbuild : build key (first :: rest) = .error (.invalid problem) := by
      rw [build, hinvalid]
      rfl
    exact ⟨build_invalid hne hbuild, problem, hbuild⟩

end Group

end GoalReconciliation

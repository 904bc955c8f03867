import LogDrift.Proofs.CallMatching
import LogDrift.Proofs.Rounding
import LogDrift.Proofs.UpperPairs

/-! # Raising the threshold

A threshold divides the similarities into those it admits and those it does not, and all of the
former are above all of the latter. So a matching at a higher threshold is what is left of the
matching at a lower one.

## Key results

- `isUpper_exceeds`: what a threshold admits lies above what it does not admit
- `exceeds_of_exceeds`: which thresholds admit all that another one admits
- `pairs_matchCalls_of_isUpper`: what is left of a matching if only the top is admitted
-/

namespace LogDrift

open Text (Similarity)

/-- Similarities and their nearest doubles are in the same order. -/
theorem Text.Similarity.toFloat_le_toFloat {r s : Similarity} (h : ¬ r < s) :
    s.toFloat ≤ r.toFloat := by
  have hcross : s.shared * r.total ≤ r.shared * s.total := Nat.le_of_not_lt h
  exact Double.nearest_le_nearest s.total_pos r.total_pos r.shared_le hcross

/-- What a threshold admits lies above what it does not admit. -/
theorem isUpper_exceeds (threshold : Float) : PairTable.IsUpper (exceeds threshold) := by
  constructor
  · intro r s hr hs
    -- Were `s` not above `r`, its double would be at most that of `r`, and so the threshold.
    have hle : r.toFloat ≤ threshold := by simpa [exceeds] using hr
    apply Classical.byContradiction
    intro hnot
    have hsr : s.toFloat ≤ r.toFloat := Similarity.toFloat_le_toFloat hnot
    exact exceeds_iff.mp hs (Double.le_trans hsr hle)
  · intro r s hr hlt
    rw [exceeds_iff] at hr ⊢
    intro hle
    have hasymm : ¬ s < r := Nat.lt_asymm hlt
    exact hr (Double.le_trans (Similarity.toFloat_le_toFloat hasymm) hle)

/-- A lower threshold, or one that is no number, admits all that a threshold admits. -/
theorem exceeds_of_exceeds {t₁ t₂ : Float} (h : t₁ ≤ t₂ ∨ t₁.isNaN = true) (r : Similarity)
    (hr : exceeds t₂ r = true) : exceeds t₁ r = true := by
  rw [exceeds_iff] at hr ⊢
  intro hle
  cases h with
  | inl hlower => exact hr (Double.le_trans hle hlower)
  | inr hnan => exact Double.not_le_of_isNaN hnan _ hle

/-- To rate by a lower condition and keep what a higher one admits is to rate by the higher one. -/
private theorem rateSites_filter {lower higher : Similarity → Bool}
    (h : ∀ r, higher r = true → lower r = true) :
    (fun a b => (rateSites lower a b).filter higher) = rateSites higher := by
  funext a b
  simp only [rateSites]
  cases hhigher : higher (Similarity.ofTexts a.text b.text) with
  | true => simp [h _ hhigher, hhigher]
  | false =>
    cases lower (Similarity.ofTexts a.text b.text) with
    | true => simp [hhigher]
    | false => rfl

/-- If only similarities at the top are admitted, the matching has the top pairs of the matching
    that admits more. -/
theorem pairs_matchCalls_of_isUpper {lower higher : Similarity → Bool}
    (hupper : PairTable.IsUpper higher) (h : ∀ r, higher r = true → lower r = true)
    (old new : List CallSite) :
    (matchCalls higher old new).pairs =
      (matchCalls lower old new).pairs.filter fun p => higher p.ratio := by
  have hpairs := PairTable.pairs_scan_filter hupper (rateSites lower) old new
  rw [rateSites_filter h] at hpairs
  exact hpairs

/-- If a threshold admits all that a second one admits, the pairs at the second one are the pairs
    at the first that the second admits, in the same order and with the same similarities. -/
theorem matchCalls_pairs_filter {t₁ t₂ : Float}
    (h : ∀ r : Similarity, exceeds t₂ r = true → exceeds t₁ r = true)
    (old new : List CallSite) :
    (matchCalls (exceeds t₂) old new).pairs =
      (matchCalls (exceeds t₁) old new).pairs.filter fun p => exceeds t₂ p.ratio :=
  pairs_matchCalls_of_isUpper (isUpper_exceeds t₂) h old new

/-- From 0.3 to 0.6 a pair of half similar sites is dropped. -/
theorem matchCalls_pairs_filter_half_similar :
    (∀ r : Similarity, exceeds 0.6 r = true → exceeds 0.3 r = true) ∧
    (matchCalls (exceeds 0.3) [⟨"info", "info", "abcd", "abcd", []⟩]
      [⟨"info", "info", "abxy", "abxy", []⟩]).pairs.length = 1 ∧
    (matchCalls (exceeds 0.6) [⟨"info", "info", "abcd", "abcd", []⟩]
      [⟨"info", "info", "abxy", "abxy", []⟩]).pairs =
        (matchCalls (exceeds 0.3) [⟨"info", "info", "abcd", "abcd", []⟩]
          [⟨"info", "info", "abxy", "abxy", []⟩]).pairs.filter fun p => exceeds 0.6 p.ratio := by
  have hle : (0.3 : Float) ≤ 0.6 := by decide
  have hadmits : ∀ r : Similarity, exceeds 0.6 r = true → exceeds 0.3 r = true :=
    exceeds_of_exceeds (.inl hle)
  exact ⟨hadmits, by decide, matchCalls_pairs_filter hadmits _ _⟩

end LogDrift

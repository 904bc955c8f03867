import LogDrift.Proofs.Acceptance
import LogDrift.Proofs.CallMatching

/-! # Mutual best matches are kept

A scan is greedy and may give up pairs that it has taken, but never a pair that is best for both of
its sites: what holds one of them when the pair is offered was offered before, and is less similar;
what is offered later and meets the pair is no more similar. Ties go to the pair offered first.

## Key results

- `isCandidate_iff_mem_offers`: candidate pairs are what a scan offers
- `matchCalls_keeps_mutual_best`: a mutual best match is a pair of the matching
-/

namespace LogDrift

open Text (Similarity)

/-- What it takes for two sites to have a rating. -/
theorem rateSites_eq_some_iff {admits : Similarity → Bool} {a b : CallSite} {r : Similarity} :
    rateSites admits a b = some r ↔
      r = Similarity.ofTexts a.text b.text ∧ admits r = true := by
  constructor
  · exact rateSites_eq_some
  · rintro ⟨rfl, hadmits⟩
    simp [rateSites, hadmits]

/-- Two sites by their positions, with their similarity, which is admitted. -/
def IsCandidate (admits : Similarity → Bool) (old new : List CallSite)
    (p : RatedPair Similarity) : Prop :=
  ∃ a b, old[p.old]? = some a ∧ new[p.new]? = some b ∧
    p.ratio = Similarity.ofTexts a.text b.text ∧ admits p.ratio = true

/-- Candidate pairs are what a scan offers. -/
theorem isCandidate_iff_mem_offers {admits : Similarity → Bool} {old new : List CallSite}
    {p : RatedPair Similarity} :
    IsCandidate admits old new p ↔ p ∈ PairTable.offers (rateSites admits) old new := by
  simp only [IsCandidate, PairTable.mem_offers, rateSites_eq_some_iff]

/-- A candidate pair that is best for both of its sites: among the other candidate pairs of one of
    them, those scanned before it are less similar, and those scanned after it no more similar. -/
structure IsMutualBest (admits : Similarity → Bool) (old new : List CallSite)
    (p : RatedPair Similarity) : Prop where
  isCandidate : IsCandidate admits old new p
  lt_of_before : ∀ q, IsCandidate admits old new q → q.Meets p → q.Precedes p →
    q.ratio < p.ratio
  not_lt_of_after : ∀ q, IsCandidate admits old new q → q.Meets p → p.Precedes q →
    ¬ p.ratio < q.ratio

/-- At every threshold, a mutual best match is a pair of the matching. -/
theorem matchCalls_keeps_mutual_best {threshold : Float} {old new : List CallSite}
    {p : RatedPair Similarity} (h : IsMutualBest (exceeds threshold) old new p) :
    p ∈ (matchCalls (exceeds threshold) old new).pairs := by
  have hp := isCandidate_iff_mem_offers.mp h.isCandidate
  obtain ⟨before, after, hoffers⟩ := List.append_of_mem hp
  -- The offers ahead of `p` are the candidates before it, those behind it the candidates after it.
  have hsorted := PairTable.pairwise_offers (rateSites (exceeds threshold)) old new
  rw [hoffers, List.pairwise_append, List.pairwise_cons] at hsorted
  obtain ⟨-, ⟨hafter, -⟩, hbefore⟩ := hsorted
  have hcandidate : ∀ q ∈ before ++ p :: after, IsCandidate (exceeds threshold) old new q := by
    intro q hq
    rw [isCandidate_iff_mem_offers, hoffers]
    exact hq
  refine PairTable.mem_pairs_scan.mpr ?_
  rw [hoffers]
  apply PairTable.mem_accepted_of_best
  · intro q hq hmeets
    exact h.lt_of_before q (hcandidate q (List.mem_append_left _ hq)) hmeets.symm
      (hbefore q hq p List.mem_cons_self)
  · intro q hq hmeets
    exact h.not_lt_of_after q
      (hcandidate q (List.mem_append_right _ (List.mem_cons_of_mem _ hq))) hmeets (hafter q hq)

/-- Sites that only their texts tell apart. -/
def sitesOfTexts (texts : List String) : List CallSite :=
  texts.map fun text => ⟨"info", "info", text, text, []⟩

/-- The second old site takes the first new one over from a less similar site, and is not lured away
    by an equally similar one. -/
theorem matchCalls_keeps_mutual_best_of_rivals :
    IsMutualBest (exceeds 0.4) (sitesOfTexts ["abxy", "abcx"]) (sitesOfTexts ["abcd", "abce"])
      ⟨1, 0, Similarity.ofTexts "abcx" "abcd"⟩ ∧
    ⟨1, 0, Similarity.ofTexts "abcx" "abcd"⟩ ∈ (matchCalls (exceeds 0.4)
      (sitesOfTexts ["abxy", "abcx"]) (sitesOfTexts ["abcd", "abce"])).pairs := by
  have hoffers : ∀ q ∈ PairTable.offers (rateSites (exceeds 0.4)) (sitesOfTexts ["abxy", "abcx"])
      (sitesOfTexts ["abcd", "abce"]), q.Meets ⟨1, 0, Similarity.ofTexts "abcx" "abcd"⟩ →
        (q.Precedes ⟨1, 0, Similarity.ofTexts "abcx" "abcd"⟩ →
          q.ratio < Similarity.ofTexts "abcx" "abcd") ∧
        ¬ Similarity.ofTexts "abcx" "abcd" < q.ratio := by
    decide
  have hbest : IsMutualBest (exceeds 0.4) (sitesOfTexts ["abxy", "abcx"])
      (sitesOfTexts ["abcd", "abce"]) ⟨1, 0, Similarity.ofTexts "abcx" "abcd"⟩ :=
    { isCandidate := ⟨_, _, rfl, rfl, rfl, by decide⟩
      lt_of_before := fun q hq hmeets => (hoffers q (isCandidate_iff_mem_offers.mp hq) hmeets).1
      not_lt_of_after := fun q hq hmeets _ =>
        (hoffers q (isCandidate_iff_mem_offers.mp hq) hmeets).2 }
  exact ⟨hbest, matchCalls_keeps_mutual_best hbest⟩

end LogDrift

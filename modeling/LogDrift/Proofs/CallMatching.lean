import Mathlib.Data.List.Nodup
import LogDrift.Matching.Calls
import LogDrift.Proofs.Scan

/-! # Matched call sites are a partition

Whatever similarities are admitted, every site of either version is in one pair or unmatched, and
every pair carries the similarity of its two texts.

## Key results

- `matchCalls_isPartition`: every position of either version occurs once
- `ratio_of_mem_matchCalls`: a pair carries the similarity of its sites, which is admitted
-/

namespace LogDrift

/-- A matching of so many old and new sites has every position once, and in order. -/
structure CallMatching.IsPartition (m : CallMatching) (oldCount newCount : Nat) : Prop where
  /-- Every old position is in one pair or unmatched, once. -/
  old_perm : (m.pairs.map (·.old) ++ m.unmatchedOld).Perm (List.range oldCount)
  /-- Every new position is in one pair or unmatched, once. -/
  new_perm : (m.pairs.map (·.new) ++ m.unmatchedNew).Perm (List.range newCount)
  pairs_sorted : m.pairs.Pairwise (fun p q => p.old < q.old)
  unmatchedOld_sorted : m.unmatchedOld.Pairwise (· < ·)
  unmatchedNew_sorted : m.unmatchedNew.Pairwise (· < ·)

/-- A matching has every position of either version once. -/
theorem matchCalls_isPartition (admits : Text.Similarity → Bool) (old new : List CallSite) :
    (matchCalls admits old new).IsPartition old.length new.length := by
  -- The scan ends with a table of the right size, the two sides of which are inverse.
  have hend : PairTable.scan (rateSites admits) old new =
      PairTable.after (rateSites admits) old new old.length 0 := PairTable.scan_eq_after
  have hold : (PairTable.scan (rateSites admits) old new).byOld.size = old.length := by
    rw [hend, PairTable.size_byOld_after]
  have hnew : (PairTable.scan (rateSites admits) old new).byNew.size = new.length := by
    rw [hend, PairTable.size_byNew_after]
  have hinv : (PairTable.scan (rateSites admits) old new).Inverse := by
    rw [hend]
    exact PairTable.inverse_after _ old new old.length 0
  constructor
  · rw [← hold]
    exact PairTable.old_perm_range _
  · rw [← hnew]
    exact hinv.new_perm_range
  · exact PairTable.pairwise_pairs _
  · exact PairTable.pairwise_freeOld _
  · exact PairTable.pairwise_freeNew _

namespace CallMatching.IsPartition

variable {m : CallMatching} {oldCount newCount : Nat}

/-- The old site of a pair is not an unmatched one. -/
theorem old_not_mem_unmatched (hm : m.IsPartition oldCount newCount)
    {p : RatedPair Text.Similarity} (hp : p ∈ m.pairs) : p.old ∉ m.unmatchedOld := by
  intro hfree
  -- A range has no position twice, so neither have the pairs and the unmatched sites together.
  have hnodup := hm.old_perm.nodup_iff.mpr List.nodup_range
  have hdisjoint := (List.nodup_append.mp hnodup).2.2
  exact hdisjoint p.old (List.mem_map_of_mem hp) p.old hfree rfl

/-- The new site of a pair is not an unmatched one. -/
theorem new_not_mem_unmatched (hm : m.IsPartition oldCount newCount)
    {p : RatedPair Text.Similarity} (hp : p ∈ m.pairs) : p.new ∉ m.unmatchedNew := by
  intro hfree
  have hnodup := hm.new_perm.nodup_iff.mpr List.nodup_range
  have hdisjoint := (List.nodup_append.mp hnodup).2.2
  exact hdisjoint p.new (List.mem_map_of_mem hp) p.new hfree rfl

/-- An old site is in one pair only. -/
theorem pair_unique (hm : m.IsPartition oldCount newCount) {p q : RatedPair Text.Similarity}
    (hp : p ∈ m.pairs) (hq : q ∈ m.pairs) (h : p.old = q.old) : p = q := by
  have hnodup : (m.pairs.map (·.old)).Nodup :=
    (List.nodup_append.mp (hm.old_perm.nodup_iff.mpr List.nodup_range)).1
  exact List.inj_on_of_nodup_map hnodup hp hq h

theorem lt_of_mem_unmatchedOld (hm : m.IsPartition oldCount newCount) {i : Nat}
    (hi : i ∈ m.unmatchedOld) : i < oldCount :=
  List.mem_range.mp (hm.old_perm.mem_iff.mp (List.mem_append_right _ hi))

theorem lt_of_mem_unmatchedNew (hm : m.IsPartition oldCount newCount) {j : Nat}
    (hj : j ∈ m.unmatchedNew) : j < newCount :=
  List.mem_range.mp (hm.new_perm.mem_iff.mp (List.mem_append_right _ hj))

end CallMatching.IsPartition

/-- A rating is the similarity of the two texts, and it is admitted. -/
theorem rateSites_eq_some {admits : Text.Similarity → Bool} {a b : CallSite}
    {r : Text.Similarity} (h : rateSites admits a b = some r) :
    r = Text.Similarity.ofTexts a.text b.text ∧ admits r = true := by
  simp only [rateSites] at h
  split at h
  · rename_i hadmits
    obtain rfl := Option.some.inj h
    exact ⟨rfl, hadmits⟩
  · exact nomatch h

/-- A pair carries the similarity of its two sites, which is admitted. -/
theorem ratio_of_mem_matchCalls {admits : Text.Similarity → Bool} {old new : List CallSite}
    {p : RatedPair Text.Similarity} (hp : p ∈ (matchCalls admits old new).pairs) :
    ∃ a b, old[p.old]? = some a ∧ new[p.new]? = some b ∧
      p.ratio = Text.Similarity.ofTexts a.text b.text ∧ admits p.ratio = true := by
  have hholds : (PairTable.scan (rateSites admits) old new).Holds p.old p.new p.ratio :=
    (PairTable.mem_pairs _).mp hp
  rw [PairTable.scan_eq_after] at hholds
  obtain ⟨a, b, ha, hb, hrate⟩ := PairTable.rate_of_holds_after _ hholds
  exact ⟨a, b, ha, hb, rateSites_eq_some hrate⟩

/-- What is admitted by a threshold is not at most the threshold. -/
theorem exceeds_iff {threshold : Float} {r : Text.Similarity} :
    exceeds threshold r = true ↔ ¬ r.toFloat ≤ threshold := by
  simp [exceeds]

/-- For every threshold, zero, negative or no number at all, the matching has every position of
    either version once, every pair carries the similarity of its two texts, which is not at most
    the threshold, and behind it the two sides of the table are inverse to each other after every
    scanned cell. -/
theorem matchCalls_partitions_sites (threshold : Float) (old new : List CallSite) :
    (matchCalls (exceeds threshold) old new).IsPartition old.length new.length ∧
    (∀ p ∈ (matchCalls (exceeds threshold) old new).pairs,
      ∃ a b, old[p.old]? = some a ∧ new[p.new]? = some b ∧
        p.ratio = Text.Similarity.ofTexts a.text b.text ∧ ¬ p.ratio.toFloat ≤ threshold) ∧
    ∀ i j, (PairTable.after (rateSites (exceeds threshold)) old new i j).Inverse := by
  refine ⟨matchCalls_isPartition _ old new, ?_, PairTable.inverse_after _ old new⟩
  intro p hp
  obtain ⟨a, b, ha, hb, hratio, hadmits⟩ := ratio_of_mem_matchCalls hp
  exact ⟨a, b, ha, hb, hratio, exceeds_iff.mp hadmits⟩

end LogDrift

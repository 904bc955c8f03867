import LogDrift.Call.Site
import LogDrift.Matching.PairTable
import LogDrift.Text.Similarity

/-! # Matching call sites

The call sites of two versions of a method are paired greedily by the similarity of their texts. A
pair counts only if its similarity is admitted: by a threshold, if it is not at most the threshold
(`exceeds`), so that a threshold that is no number admits everything.
-/

namespace LogDrift

/-- A pairing of the call sites of two versions, by position. -/
structure CallMatching where
  /-- The pairs, by old position. -/
  pairs : List (RatedPair Text.Similarity)
  /-- The old positions without a partner. -/
  unmatchedOld : List Nat
  /-- The new positions without a partner. -/
  unmatchedNew : List Nat

/-- Whether a similarity lies above a threshold, or cannot be compared with it. -/
def exceeds (threshold : Float) (ratio : Text.Similarity) : Bool :=
  !decide (ratio.toFloat ≤ threshold)

/-- The similarity of two sites, if it is admitted. -/
def rateSites (admits : Text.Similarity → Bool) (old new : CallSite) : Option Text.Similarity :=
  let ratio := Text.Similarity.ofTexts old.text new.text
  if admits ratio then some ratio else none

/-- Pairs the sites of two versions. -/
def matchCalls (admits : Text.Similarity → Bool) (old new : List CallSite) : CallMatching :=
  let table := PairTable.scan (rateSites admits) old new
  ⟨table.pairs, table.freeOld, table.freeNew⟩

/-- The pairs whose texts differ. -/
def CallMatching.updated (m : CallMatching) (old new : List CallSite) :
    List (RatedPair Text.Similarity) :=
  m.pairs.filter fun pair => old[pair.old]?.map (·.text) != new[pair.new]?.map (·.text)

end LogDrift

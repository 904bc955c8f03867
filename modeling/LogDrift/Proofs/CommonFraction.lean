import Mathlib.Algebra.Order.Field.Rat
import LogDrift.Proofs.Division
import LogDrift.Proofs.EditScript
import LogDrift.Proofs.ExactMatch
import LogDrift.Proofs.TwoRows

/-! # The similarity is the share that two texts have in common

A similarity is a fraction, `Similarity.value`. For two texts it is the part of their characters
that a longest common subsequence takes up on both sides. Its double tells equal texts, and texts
without a common character, from all others, unless a text has petabytes.

## Key results

- `value_ofChars`: the value of a similarity
- `nearest_eq_one_iff`, `nearest_eq_zero_iff`: which fractions have one and zero as their doubles
- `similarity_is_common_fraction`: the distance, the similarity and its double
-/

namespace LogDrift

/-! ## Doubles of fractions -/

namespace Double

/-- The greatest fraction below one that doubles can make has a double below one. -/
private theorem nearest_lt_one : ¬ (1.0 : Float) ≤ nearest (2 ^ 53 - 1) (2 ^ 53) := by decide

/-- The least fraction above zero that doubles can make has a double above zero. -/
private theorem zero_lt_nearest : ¬ nearest 1 (2 ^ 53) ≤ (0.0 : Float) := by decide

theorem nearest_zero {d : Nat} (hd : 0 < d) : nearest 0 d = 0.0 := by
  rw [nearest, nearestBits_zero hd]
  decide

/-- Among the fractions that doubles can make, only one itself has the double one. -/
theorem nearest_eq_one_iff {n d : Nat} (hd : 0 < d) (hle : n ≤ d) (hmax : d < 2 ^ 53) :
    nearest n d = 1.0 ↔ n = d := by
  constructor
  · intro hone
    apply Classical.byContradiction
    intro hne
    -- A smaller fraction with such a denominator is at most the greatest one below one.
    have hcross : n * 2 ^ 53 ≤ (2 ^ 53 - 1) * d := by omega
    have hbelow := nearest_le_nearest hd (by decide) (by decide) hcross
    rw [hone] at hbelow
    exact nearest_lt_one hbelow
  · intro heq
    rw [heq]
    exact nearest_self hd

/-- Among the fractions that doubles can make, only zero itself has the double zero. -/
theorem nearest_eq_zero_iff {n d : Nat} (hd : 0 < d) (hle : n ≤ d) (hmax : d < 2 ^ 53) :
    nearest n d = 0.0 ↔ n = 0 := by
  constructor
  · intro hzero
    apply Classical.byContradiction
    intro hne
    -- A larger fraction with such a denominator is at least the least one above zero.
    have hcross : 1 * d ≤ n * 2 ^ 53 := by omega
    have habove := nearest_le_nearest (by decide) hd hle hcross
    rw [hzero] at habove
    exact zero_lt_nearest habove
  · intro heq
    rw [heq]
    exact nearest_zero hd

end Double

/-! ## The value of a similarity -/

namespace Text.Similarity

/-- The value of a similarity. -/
def value (r : Similarity) : ℚ := r.shared / r.total

theorem total_ne_zero (r : Similarity) : (r.total : ℚ) ≠ 0 :=
  Nat.cast_ne_zero.mpr (Nat.ne_of_gt r.total_pos)

theorem value_nonneg (r : Similarity) : 0 ≤ r.value :=
  div_nonneg (Nat.cast_nonneg _) (Nat.cast_nonneg _)

theorem value_le_one (r : Similarity) : r.value ≤ 1 :=
  div_le_one_of_le₀ (Nat.cast_le.mpr r.shared_le) (Nat.cast_nonneg _)

/-- A similarity is one if all is shared. -/
theorem value_eq_one_iff {r : Similarity} : r.value = 1 ↔ r.shared = r.total := by
  rw [value, div_eq_one_iff_eq r.total_ne_zero, Nat.cast_inj]

/-- A similarity is zero if nothing is shared. -/
theorem value_eq_zero_iff {r : Similarity} : r.value = 0 ↔ r.shared = 0 := by
  rw [value, div_eq_zero_iff, Nat.cast_eq_zero, or_iff_left r.total_ne_zero]

/-- The double of a similarity is one or zero exactly if its value is. -/
theorem toFloat_eq_iff {r : Similarity} (h : r.total < 2 ^ 53) :
    (r.toFloat = 1.0 ↔ r.value = 1) ∧ (r.toFloat = 0.0 ↔ r.value = 0) := by
  rw [value_eq_one_iff, value_eq_zero_iff]
  exact ⟨Double.nearest_eq_one_iff r.total_pos r.shared_le h,
    Double.nearest_eq_zero_iff r.total_pos r.shared_le h⟩

/-! ## The value for two texts -/

/-- What is left of both texts without their distance are their common characters. -/
theorem shared_ofChars {a b : List Char} (h : ¬ (a = [] ∧ b = [])) :
    (ofChars a b).shared = 2 * commonLength a b ∧ (ofChars a b).total = a.length + b.length := by
  have hpos : 0 < a.length + b.length := by
    rw [← List.length_eq_zero_iff, ← List.length_eq_zero_iff] at h
    omega
  have hsum := distance_add_commonLength a b
  rw [ofChars, dif_pos hpos]
  exact ⟨by simp only; omega, rfl⟩

/-- The value for two texts is twice the length of a longest common subsequence, over both lengths
    together. -/
theorem value_ofChars (a b : List Char) :
    (ofChars a b).value =
      if a = [] ∧ b = [] then 1
      else 2 * (commonLength a b : ℚ) / ((a.length : ℚ) + b.length) := by
  split
  · rename_i h
    rw [h.1, h.2, value_eq_one_iff]
    rfl
  · rename_i h
    obtain ⟨hshared, htotal⟩ := shared_ofChars h
    rw [value, hshared, htotal, Nat.cast_mul, Nat.cast_add, Nat.cast_ofNat]

/-- The value does not depend on the order of the two texts. -/
theorem value_ofChars_comm (a b : List Char) : (ofChars a b).value = (ofChars b a).value := by
  rw [value_ofChars, value_ofChars, commonLength_comm, add_comm (a.length : ℚ)]
  exact if_congr and_comm rfl rfl

/-- Two texts that are not both empty are not similar at all exactly if they share no character. -/
theorem value_ofChars_eq_zero_iff {a b : List Char} :
    (ofChars a b).value = 0 ↔ ¬ (a = [] ∧ b = []) ∧ ∀ c ∈ a, c ∉ b := by
  by_cases h : a = [] ∧ b = []
  · rw [value_ofChars, if_pos h]
    simp [h]
  · rw [value_eq_zero_iff, (shared_ofChars h).1, ← commonLength_eq_zero_iff]
    simp [h]

end Text.Similarity

open Text in
/-- The distance of two texts leaves out what they have in common: it is computed in two rows,
    whatever these hold at the start, it is the least cost of an edit script, and both lengths less
    twice that of a longest common subsequence, which is never negative. So the similarity is the
    common part of both texts: a fraction from zero to one that is the same both ways, one exactly
    for equal texts, and zero exactly for texts that share no character. As long as the lengths are
    doubles, its double is their quotient and one or zero just then. -/
theorem similarity_is_common_fraction (a b : String) :
    (∀ spare : Array Nat, spare.size = b.toList.length + 1 →
      distanceInRows spare a.toList b.toList = distance a.toList b.toList) ∧
    LeastCost (distance a.toList b.toList) a.toList b.toList ∧
    distance a.toList b.toList ≤ a.toList.length + b.toList.length ∧
    (∃ s, LongestCommon s a.toList b.toList) ∧
    (∀ s, LongestCommon s a.toList b.toList →
      2 * s.length ≤ a.toList.length + b.toList.length ∧
      distance a.toList b.toList = a.toList.length + b.toList.length - 2 * s.length ∧
      (Similarity.ofTexts a b).value =
        if a = "" ∧ b = "" then 1
        else 2 * (s.length : ℚ) / ((a.toList.length : ℚ) + b.toList.length)) ∧
    0 ≤ (Similarity.ofTexts a b).value ∧ (Similarity.ofTexts a b).value ≤ 1 ∧
    (Similarity.ofTexts a b).value = (Similarity.ofTexts b a).value ∧
    ((Similarity.ofTexts a b).value = 1 ↔ a = b) ∧
    ((Similarity.ofTexts a b).value = 0 ↔
      ¬ (a = "" ∧ b = "") ∧ ∀ c ∈ a.toList, c ∉ b.toList) ∧
    ((Similarity.ofTexts a b).total < 2 ^ 53 →
      (Similarity.ofTexts a b).toFloat =
        (Similarity.ofTexts a b).shared.toUInt64.toFloat /
          (Similarity.ofTexts a b).total.toUInt64.toFloat ∧
      ((Similarity.ofTexts a b).toFloat = 1.0 ↔ (Similarity.ofTexts a b).value = 1) ∧
      ((Similarity.ofTexts a b).toFloat = 0.0 ↔ (Similarity.ofTexts a b).value = 0)) := by
  have hsum := distance_add_commonLength a.toList b.toList
  have hempty : ∀ t : String, t.toList = [] ↔ t = "" := fun t => String.toList_eq_nil_iff
  have hone : (Similarity.ofTexts a b).value = 1 ↔ a = b := by
    rw [Similarity.value_eq_one_iff, ← isFull_iff, isFull_ofTexts]
  have hzero : (Similarity.ofTexts a b).value = 0 ↔
      ¬ (a = "" ∧ b = "") ∧ ∀ c ∈ a.toList, c ∉ b.toList := by
    rw [Similarity.ofTexts, Similarity.value_ofChars_eq_zero_iff, hempty, hempty]
  refine ⟨fun spare => distanceInRows_eq_distance a.toList b.toList,
    leastCost_distance a.toList b.toList, by omega, longestCommon_exists a.toList b.toList, ?_,
    Similarity.value_nonneg _, Similarity.value_le_one _, Similarity.value_ofChars_comm _ _, hone,
    hzero, ?_⟩
  · -- The length of every longest common subsequence is the common length.
    intro s hs
    have hvalue := Similarity.value_ofChars a.toList b.toList
    simp only [← hs.length_eq, hempty] at hvalue
    rw [← hs.length_eq] at hsum
    exact ⟨by omega, by omega, hvalue⟩
  · intro htotal
    exact ⟨Similarity.toFloat_eq_div htotal, Similarity.toFloat_eq_iff htotal⟩

end LogDrift

/-! # Sets of characters given by ranges

A character class of the Unicode standard is a list of closed ranges of code points. The classes
that the library needs are tables of this form: `blankRanges`, `wordRanges` and `hiddenRanges`.
-/

namespace LogDrift.Text

/-- A set of characters, as closed ranges of code points in ascending order. -/
abbrev CharRanges := List (Nat × Nat)

/-- Whether a character lies in one of the ranges. -/
def CharRanges.contains (ranges : CharRanges) (c : Char) : Bool :=
  ranges.any fun range => range.1 ≤ c.toNat && c.toNat ≤ range.2

/-- Membership is lying between the two ends of some range. -/
theorem CharRanges.contains_eq_true_iff {ranges : CharRanges} {c : Char} :
    ranges.contains c = true ↔ ∃ range ∈ ranges, range.1 ≤ c.toNat ∧ c.toNat ≤ range.2 := by
  simp [CharRanges.contains]

end LogDrift.Text

import LogDrift.Double.Nearest
import LogDrift.Text.Distance

/-! # Similarity of two texts

The similarity of two texts is the fraction `(total - distance) / total`, where `total` is the sum
of their lengths; two empty texts are fully similar. It is kept as the exact fraction, so that
similarities compare exactly, and shown as its nearest double.

Similarities are compared by cross multiplication. Two different fractions with totals below 2²⁶
lie further apart than doubles do, so their nearest doubles compare in the same way.
-/

namespace LogDrift.Text

/-- A fraction between zero and one. -/
structure Similarity where
  shared : Nat
  total : Nat
  total_pos : 0 < total
  shared_le : shared ≤ total

namespace Similarity

/-- Full similarity. -/
def full : Similarity := ⟨1, 1, Nat.one_pos, Nat.le_refl 1⟩

/-- The similarity of two sequences of characters. -/
def ofChars (a b : List Char) : Similarity :=
  if h : 0 < a.length + b.length then
    ⟨a.length + b.length - distance a b, a.length + b.length, h, Nat.sub_le ..⟩
  else full

/-- The similarity of two texts. -/
def ofTexts (a b : String) : Similarity := ofChars a.toList b.toList

/-- The order of the fractions. -/
instance : LT Similarity := ⟨fun r s => r.shared * s.total < s.shared * r.total⟩

instance (r s : Similarity) : Decidable (r < s) :=
  inferInstanceAs (Decidable (r.shared * s.total < s.shared * r.total))

/-- The nearest double. -/
def toFloat (r : Similarity) : Float := Double.nearest r.shared r.total

end Similarity

end LogDrift.Text

import Mathlib
import LogDrift.Double.Nearest

/-! # The order of doubles

Doubles that are numbers are ordered by sign, exponent and mantissa: each has a place (`placeOf?`),
and comparing doubles is comparing places (`le_iff`, `lt_iff`). From zero up to infinity, the places
are ordered as the bits are.

## Key results

- `Double.le_trans`: the order of doubles is transitive, whether or not all of them are numbers
- `not_le_of_lt`, `not_le_of_isNaN`: when a comparison fails
- `unpack_bits`, `unpack_low_bits`: the exponent and the mantissa that bits stand for
- `ofBits_le_ofBits`: from zero up to infinity, greater bits make a greater double
-/

namespace LogDrift.Double

open Float.Model hiding pack unpack
open Float.Model.UnpackedFloat

/-! ## Places -/

/-- A place in the order of doubles: the sign, told apart from that of infinity, and then the
    exponent and the mantissa. -/
structure Place where
  sign : Int
  exponent : Int
  mantissa : Int

/-- Places are ordered by sign, then by exponent, then by mantissa. -/
instance : LE Place where
  le p q := p.sign < q.sign ∨ p.sign = q.sign ∧
    (p.exponent < q.exponent ∨ p.exponent = q.exponent ∧ p.mantissa ≤ q.mantissa)

/-- What it means for places to be in order. -/
theorem Place.le_def {p q : Place} :
    p ≤ q ↔ p.sign < q.sign ∨ p.sign = q.sign ∧
      (p.exponent < q.exponent ∨ p.exponent = q.exponent ∧ p.mantissa ≤ q.mantissa) :=
  Iff.rfl

/-- The place of an unpacked double; what is no number has none. -/
def place? : UnpackedFloat → Option Place
  | .notANumber => none
  | .infinity .negative => some ⟨-2, 0, 0⟩
  | .finite .negative m e _ => some ⟨-1, -e, -m⟩
  | .zero _ => some ⟨0, 0, 0⟩
  | .finite .positive m e _ => some ⟨1, e, m⟩
  | .infinity .positive => some ⟨2, 0, 0⟩

@[simp] theorem compare_sign_self (s : Sign) : compare s s = .eq := by cases s <;> rfl

@[simp] theorem compare_negative_positive : compare Sign.negative Sign.positive = .lt := rfl

@[simp] theorem compare_positive_negative : compare Sign.positive Sign.negative = .gt := rfl

/-- The exponent decides, and the mantissa between equal exponents. -/
private theorem isLE_compare_then {e f : Int} {m n : Nat} :
    ((compare e f).then (compare m n)).isLE ↔ e < f ∨ e = f ∧ m ≤ n := by
  rcases Int.lt_trichotomy e f with h | h | h
  · simp [Int.compare_eq_lt.mpr h, h]
  · subst h
    simp [Nat.isLE_compare]
  · simp [Int.compare_eq_gt.mpr h]
    omega

/-- The same, the other way round. -/
private theorem isGE_compare_then {e f : Int} {m n : Nat} :
    ((compare e f).then (compare m n)).isGE ↔ f < e ∨ e = f ∧ n ≤ m := by
  rcases Int.lt_trichotomy e f with h | h | h
  · simp [Int.compare_eq_lt.mpr h]
    omega
  · subst h
    simp [Nat.isGE_compare]
  · simp [Int.compare_eq_gt.mpr h, h]

/-- One double is at most another if both have a place and the places are in order. -/
private theorem unpacked_le_iff {a b : UnpackedFloat} :
    a.le b = true ↔ ∃ p q, place? a = some p ∧ place? b = some q ∧ p ≤ q := by
  -- Each of the two is no number, infinite, zero or finite, with a sign.
  rcases a with (_ | _) | _ | _ | ⟨_ | _, m, e, hm⟩ <;>
    rcases b with (_ | _) | _ | _ | ⟨_ | _, n, f, hn⟩ <;>
    simp [UnpackedFloat.le, UnpackedFloat.compare, place?, Place.le_def, isLE_compare_then,
      isGE_compare_then]

/-- One double is below another if both have a place and the places are not in the opposite
    order. -/
private theorem unpacked_lt_iff {a b : UnpackedFloat} :
    a.lt b = true ↔ ∃ p q, place? a = some p ∧ place? b = some q ∧ ¬ q ≤ p := by
  have hlt (o : Ordering) : o = .lt ↔ ¬ o.isGE = true := by cases o <;> decide
  rcases a with (_ | _) | _ | _ | ⟨_ | _, m, e, hm⟩ <;>
    rcases b with (_ | _) | _ | _ | ⟨_ | _, n, f, hn⟩ <;>
    simp [UnpackedFloat.lt, UnpackedFloat.compare, place?, Place.le_def, hlt,
      isLE_compare_then, isGE_compare_then]
  -- Left are two finite doubles of one sign, with an equation of exponents the other way round.
  all_goals exact fun _ => ⟨fun h he => h he.symm, fun h he => h he.symm⟩

/-- The place of a double; what is no number has none. -/
def placeOf? (x : Float) : Option Place := place? x.toModel.unpack

/-- Comparing doubles is comparing places. -/
theorem le_iff {x y : Float} :
    x ≤ y ↔ ∃ p q, placeOf? x = some p ∧ placeOf? y = some q ∧ p ≤ q :=
  decide_eq_true_iff.trans unpacked_le_iff

/-- A double is below another if the places are not in the opposite order. -/
theorem lt_iff {x y : Float} :
    x < y ↔ ∃ p q, placeOf? x = some p ∧ placeOf? y = some q ∧ ¬ q ≤ p :=
  decide_eq_true_iff.trans unpacked_lt_iff

/-- The order of doubles is transitive. -/
protected theorem le_trans {x y z : Float} (hxy : x ≤ y) (hyz : y ≤ z) : x ≤ z := by
  obtain ⟨p, q, hp, hq, hpq⟩ := le_iff.mp hxy
  obtain ⟨q', r, hq', hr, hqr⟩ := le_iff.mp hyz
  obtain rfl : q = q' := by simpa [hq] using hq'
  refine le_iff.mpr ⟨p, r, hp, hr, ?_⟩
  rw [Place.le_def] at *
  omega

/-- What is above a double is not at most it. -/
theorem not_le_of_lt {x y : Float} (h : x < y) : ¬ y ≤ x := by
  intro hle
  obtain ⟨p, q, hp, hq, hpq⟩ := lt_iff.mp h
  obtain ⟨q', p', hq', hp', hqp⟩ := le_iff.mp hle
  obtain rfl : p = p' := by simpa [hp] using hp'
  obtain rfl : q = q' := by simpa [hq] using hq'
  exact hpq hqp

/-- Nothing is at most what is no number. -/
theorem not_le_of_isNaN {x : Float} (h : x.isNaN = true) (y : Float) : ¬ y ≤ x := by
  intro hle
  obtain ⟨-, q, -, hq, -⟩ := le_iff.mp hle
  have hnan : x.toModel.unpack.isNaN = true := h
  -- Of all doubles, only what is no number has no place.
  unfold placeOf? at hq
  cases hx : x.toModel.unpack <;> simp [hx, UnpackedFloat.isNaN, place?] at hnan hq

/-! ## Bits from zero up to infinity -/

/-- The bits of infinity, above those of all positive numbers. -/
def infinityBits : Nat := 2047 * binade

/-- The hidden bit stands in front of the mantissa. -/
private theorem toNat_one_append (m : BitVec 52) : (1#1 ++ m).toNat = binade + m.toNat := by
  rw [BitVec.toNat_append, ← Nat.shiftLeft_add_eq_or_of_lt m.isLt]
  rfl

/-- The exponent of a positive number fits into its bits. -/
private theorem toNat_exponentBits {b : Nat} (h : b < infinityBits) :
    (BitVec.ofNat 11 (b / binade)).toNat = b / binade := by
  simp only [BitVec.toNat_ofNat, infinityBits, binade] at h ⊢
  omega

/-- No positive number has the exponent of infinity. -/
private theorem exponentBits_ne {b : Nat} (h : b < infinityBits) :
    BitVec.ofNat 11 (b / binade) ≠ -1#11 := by
  intro heq
  have htoNat := toNat_exponentBits h
  -- Infinity has all bits of the exponent set.
  have hall : (-1#11 : BitVec 11).toNat = 2047 := by decide
  rw [heq, hall] at htoNat
  simp only [infinityBits, binade] at h htoNat
  omega

/-- The bits of a positive number are its exponent and its mantissa. -/
private theorem toBitVec_eq_packComponents {b : Nat} (h : b < infinityBits) :
    b.toUInt64.toBitVec =
      packComponents .binary64 .positive (BitVec.ofNat 11 (b / binade)) (BitVec.ofNat 52 b) := by
  apply BitVec.eq_of_toNat_eq
  have hm : b % 2 ^ 52 < 2 ^ 52 := Nat.mod_lt _ (by decide)
  show b % 2 ^ 64 = _
  simp only [packComponents, Sign.toBitVec, BitVec.toNat_append, BitVec.toNat_ofNat,
    Nat.zero_mod, Nat.zero_shiftLeft, Nat.zero_or]
  -- The fields do not overlap, so they are added.
  rw [← Nat.shiftLeft_add_eq_or_of_lt hm, Nat.shiftLeft_eq]
  simp only [infinityBits, binade] at h ⊢
  omega

/-- Finite doubles are equal if their mantissas and exponents are. -/
theorem finite_congr {m n : Nat} {e f : Int} (hm : 0 < m) (hn : 0 < n) (hmn : m = n)
    (hef : e = f) :
    UnpackedFloat.finite .positive m e hm = .finite .positive n f hn := by
  subst hmn hef
  rfl

/-- Below the lowest binade that has an exponent of its own, the bits are the mantissa. -/
theorem unpack_low_bits {b : Nat} (hpos : 0 < b) (hlow : b < binade) :
    unpack .binary64 b.toUInt64.toBitVec = .finite .positive b (-1074) hpos := by
  have hinf : b < infinityBits := Nat.lt_trans hlow (by decide)
  have hexp : BitVec.ofNat 11 (b / binade) = 0#11 := by rw [Nat.div_eq_of_lt hlow]
  have hmant : (BitVec.ofNat 52 b).toNat = b := Nat.mod_eq_of_lt hlow
  -- The number is not zero.
  have hne : BitVec.ofNat 52 b ≠ 0#52 := by
    intro heq
    rw [heq] at hmant
    exact Nat.ne_of_gt hpos hmant.symm
  rw [toBitVec_eq_packComponents hinf, hexp]
  simp only [unpack, unpackMantissa_packComponents, unpackExponent_packComponents,
    unpackSign_packComponents, Sign.ofBitVec_toBitVec]
  rw [if_neg (by decide), if_pos trivial, dif_neg hne]
  exact finite_congr _ _ hmant rfl

/-- With an exponent of its own, a double has the hidden bit in its mantissa. -/
theorem unpack_bits {b : Nat} (hlow : binade ≤ b) (hinf : b < infinityBits)
    (hpos : 0 < binade + b % binade) :
    unpack .binary64 b.toUInt64.toBitVec =
      .finite .positive (binade + b % binade) ((b / binade : Nat) - 1075) hpos := by
  have hexp := toNat_exponentBits hinf
  have hmant : (BitVec.ofNat 52 b).toNat = b % binade := BitVec.toNat_ofNat ..
  -- The number is in a binade with an exponent of its own.
  have hne : BitVec.ofNat 11 (b / binade) ≠ 0#11 := by
    intro heq
    rw [heq] at hexp
    exact Nat.ne_of_gt (Nat.div_pos hlow (by decide)) hexp.symm
  rw [toBitVec_eq_packComponents hinf]
  simp only [unpack, unpackMantissa_packComponents, unpackExponent_packComponents,
    unpackSign_packComponents, Sign.ofBitVec_toBitVec]
  rw [if_neg (exponentBits_ne hinf), if_neg hne]
  apply finite_congr
  · rw [toNat_one_append, hmant]
  · rw [hexp]
    rfl

/-- Packing undoes unpacking, as the bits are those of a number. -/
theorem unpack_toModel_ofBits {b : Nat} (h : b < infinityBits) :
    (Float.ofBits b.toUInt64).toModel.unpack = unpack .binary64 b.toUInt64.toBitVec := by
  show unpack .binary64 (pack .binary64 (unpack .binary64 b.toUInt64.toBitVec)) = _
  have hnumber : ¬ isNaNBits (packComponents .binary64 .positive (BitVec.ofNat 11 (b / binade))
      (BitVec.ofNat 52 b)) = true := by
    simp only [isNaNBits, unpackExponent_packComponents, decide_eq_true_eq]
    exact fun hnan => exponentBits_ne h hnan.1
  rw [toBitVec_eq_packComponents h, pack_unpack _ (by decide), if_neg hnumber]

/-- The place of the double with the given bits, from zero up to infinity. The doubles below the
    lowest binade share its exponent and have no hidden bit. -/
def placeOfBits (b : Nat) : Place where
  sign := if b = 0 then 0 else 1
  exponent := if b = 0 then 0 else max (b / binade : Nat) 1 - 1075
  mantissa := if b < binade then b else (binade + b % binade : Nat)

/-- From zero up to infinity, the bits of a double give its place. -/
private theorem placeOf?_ofBits {b : Nat} (h : b < infinityBits) :
    placeOf? (Float.ofBits b.toUInt64) = some (placeOfBits b) := by
  rw [placeOf?, unpack_toModel_ofBits h]
  -- Zero, the numbers below the lowest binade, and those within one.
  by_cases hzero : b = 0
  · subst hzero
    rfl
  by_cases hlow : b < binade
  · rw [unpack_low_bits (Nat.pos_of_ne_zero hzero) hlow]
    simp [place?, placeOfBits, hzero, hlow, Nat.div_eq_of_lt hlow]
  · have hge := Nat.le_of_not_lt hlow
    have hone : max (b / binade) 1 = b / binade :=
      Nat.max_eq_left (Nat.div_pos hge (by decide))
    rw [unpack_bits hge h (Nat.add_pos_left (by decide) _)]
    simp only [place?, placeOfBits, hzero, hlow, hone, if_false]

/-- Greater bits give a later place. -/
private theorem placeOfBits_le_placeOfBits {b c : Nat} (h : b ≤ c) :
    placeOfBits b ≤ placeOfBits c := by
  rw [Place.le_def]
  by_cases hb : b = 0
  · by_cases hc : c = 0
    · simp [placeOfBits, hb, hc]
    · simp [placeOfBits, hb, hc]
  have hc : c ≠ 0 := by omega
  -- Each of the two is below the lowest binade or within one.
  by_cases hlow : b < binade <;> by_cases hlow' : c < binade <;>
    simp only [placeOfBits, hb, hc, hlow, hlow', if_true, if_false, true_and] <;>
    simp only [binade] at hlow hlow' ⊢ <;> omega

/-- From zero up to infinity, doubles are ordered as their bits. -/
theorem ofBits_le_ofBits {b c : Nat} (hbc : b ≤ c) (hc : c < infinityBits) :
    Float.ofBits b.toUInt64 ≤ Float.ofBits c.toUInt64 :=
  le_iff.mpr ⟨_, _, placeOf?_ofBits (Nat.lt_of_le_of_lt hbc hc), placeOf?_ofBits hc,
    placeOfBits_le_placeOfBits hbc⟩

/-- The bits of one. -/
def oneBits : Nat := (binadesBelowOne + 1) * binade

theorem ofBits_oneBits : Float.ofBits oneBits.toUInt64 = 1.0 := by decide

end LogDrift.Double

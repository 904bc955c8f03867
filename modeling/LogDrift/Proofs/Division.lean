import LogDrift.Proofs.Rounding
import LogDrift.Text.Similarity

/-! # The nearest double of a fraction is a quotient of doubles

Whole numbers below `2 ^ 53` are doubles. Dividing two of them rounds a quotient of 53 or 54 bits,
and what is left of the division tells how to round it; that is how `nearest` rounds the fraction.

## Key results

- `roundedMantissa_accuracyOfFraction`, `roundedMantissa_shiftRightOne`: rounding a quotient by what
  is left of the division
- `roundWithAccuracy_eq_unpack`: the bits of a rounded mantissa
- `unpack_toFloat`: the double of a whole number
- `nearest_eq_div`: the nearest double of a fraction is the quotient of its two doubles
-/

namespace LogDrift.Double

open Float.Model hiding pack unpack
open Float.Model.UnpackedFloat

/-! ## Rounding a mantissa -/

/-- A mantissa is rounded up if what is dropped is more than half of its last place, or half of it
    and the mantissa is odd. -/
private theorem roundedMantissa_eq (m : Nat) (roundBit stickyBit : Bool) :
    ExtendedMantissa.roundedMantissa ⟨m, roundBit, stickyBit⟩ =
      if roundBit = false ∨ stickyBit = false ∧ m % 2 = 0 then m else m + 1 := by
  cases roundBit with
  | false => cases stickyBit <;> rfl
  | true =>
    cases stickyBit with
    | true => rfl
    | false =>
      show m + m % 2 = _
      split <;> grind

/-- What is left of a division is whether the next bit of the quotient is set and whether anything
    lies behind it. -/
private theorem ofMantissaAndAccuracy_accuracyOfFraction (m r : Nat) {d : Nat} (hd : 0 < d) :
    ExtendedMantissa.ofMantissaAndAccuracy m (accuracyOfFraction r d) =
      ⟨m, decide (d ≤ 2 * r), r != 0 && 2 * r != d⟩ := by
  by_cases hzero : r = 0
  · simp [accuracyOfFraction, ExtendedMantissa.ofMantissaAndAccuracy, hzero, Nat.ne_of_gt hd]
  · rcases Nat.lt_trichotomy (2 * r) d with h | h | h
    · have hle : ¬ d ≤ 2 * r := Nat.not_le_of_lt h
      simp [accuracyOfFraction, ExtendedMantissa.ofMantissaAndAccuracy, hzero,
        Nat.compare_eq_lt.mpr h, hle, Nat.ne_of_lt h]
    · simp [accuracyOfFraction, ExtendedMantissa.ofMantissaAndAccuracy, hzero, h]
    · simp [accuracyOfFraction, ExtendedMantissa.ofMantissaAndAccuracy, hzero,
        Nat.compare_eq_gt.mpr h, Nat.le_of_lt h, Nat.ne_of_gt h]

/-- The remainder of a division tells how the quotient is rounded. -/
theorem roundedMantissa_accuracyOfFraction (n : Nat) {d : Nat} (hd : 0 < d) :
    (ExtendedMantissa.ofMantissaAndAccuracy (n / d)
      (accuracyOfFraction (n % d) d)).roundedMantissa = roundDiv n d := by
  rw [ofMantissaAndAccuracy_accuracyOfFraction _ _ hd, roundedMantissa_eq, roundDiv]
  apply if_congr _ rfl rfl
  simp only [decide_eq_false_iff_not, Bool.and_eq_false_iff, bne_eq_false_iff_eq]
  omega

/-- Dropping one more bit of the quotient is dividing by twice the divisor. -/
theorem roundedMantissa_shiftRightOne (n : Nat) {d : Nat} (hd : 0 < d) :
    (ExtendedMantissa.ofMantissaAndAccuracy (n / d)
      (accuracyOfFraction (n % d) d)).shiftRightOne.roundedMantissa = roundDiv n (d * 2) := by
  have hlt := Nat.mod_lt n hd
  have hdiv : n / (d * 2) = n / d / 2 := (Nat.div_div_eq_div_mul n d 2).symm
  have hmod : n % (d * 2) = n % d + d * (n / d % 2) := Nat.mod_mul
  rw [ofMantissaAndAccuracy_accuracyOfFraction _ _ hd, ExtendedMantissa.shiftRightOne,
    roundedMantissa_eq, roundDiv, hdiv, hmod]
  apply if_congr _ rfl rfl
  simp only [Bool.or_eq_false_iff, decide_eq_false_iff_not, Bool.and_eq_false_iff,
    bne_eq_false_iff_eq]
  -- The dropped bit says whether the rest is below half of the new divisor.
  rcases Nat.mod_two_eq_zero_or_one (n / d) with hbit | hbit <;> rw [hbit] <;> omega

/-- A double has 53 bits, and its last place is not below the least exponent. -/
theorem targetExponent_binary64 (t : Int) :
    Format.targetExponent .binary64 t = max (t - 53) (-1074) := rfl

/-- The numbers of a binade have 53 bits. -/
private theorem log2_mantissa {m : Nat} (hlow : binade ≤ m) (hhigh : m < 2 * binade) :
    m.log2 = 52 := by
  rw [Nat.log2_eq_iff (Nat.ne_of_gt (Nat.lt_of_lt_of_le (by decide) hlow))]
  exact ⟨hlow, hhigh⟩

/-- A mantissa of 53 bits is kept as it is. -/
private theorem shiftToTargetExponent_of_lt {m : Nat} {e : Int} (acc : Accuracy) (hlow : binade ≤ m)
    (hhigh : m < 2 * binade) (he : -1074 ≤ e) :
    shiftToTargetExponent .binary64 m e acc = (.ofMantissaAndAccuracy m acc, e) := by
  have hlog := log2_mantissa hlow hhigh
  have hshift : (Format.targetExponent .binary64 (totalExponent m e) - e).toNat = 0 := by
    rw [targetExponent_binary64, totalExponent, hlog]
    omega
  rw [shiftToTargetExponent, shiftToExponent, hshift]
  exact Prod.ext rfl (Int.add_zero e)

/-- Of a mantissa of 54 bits, one is dropped. -/
private theorem shiftToTargetExponent_of_le {m : Nat} {e : Int} (acc : Accuracy)
    (hlow : 2 * binade ≤ m) (hhigh : m < 4 * binade) (he : -1074 ≤ e) :
    shiftToTargetExponent .binary64 m e acc =
      ((ExtendedMantissa.ofMantissaAndAccuracy m acc).shiftRightOne, e + 1) := by
  have hlog : m.log2 = 53 := by
    rw [Nat.log2_eq_iff (by simp only [binade] at hlow; omega)]
    simp only [binade] at hlow hhigh
    omega
  have hshift : (Format.targetExponent .binary64 (totalExponent m e) - e).toNat = 1 := by
    rw [targetExponent_binary64, totalExponent, hlog]
    omega
  rw [shiftToTargetExponent, shiftToExponent, hshift]
  rfl

/-- A rounded mantissa is shifted once more, in case that it was carried over. -/
private theorem roundWithAccuracy_eq_finite {m : Nat} {e e₁ e₂ : Int} {acc : Accuracy}
    {em₁ em₂ : ExtendedMantissa} (hfirst : shiftToTargetExponent .binary64 m e acc = (em₁, e₁))
    (hsecond : shiftToTargetExponent .binary64 em₁.roundedMantissa e₁ .exact = (em₂, e₂))
    (hpos : 0 < em₂.mantissa) :
    roundWithAccuracy .binary64 .positive m e acc =
      .finite .positive em₂.mantissa e₂ hpos := by
  simp only [roundWithAccuracy, hfirst, hsecond]
  exact dif_neg (Nat.ne_of_gt hpos)

/-- A rounded mantissa and its exponent make up the bits of the double, also if rounding carries
    the mantissa over into the next binade. -/
theorem roundWithAccuracy_eq_unpack {m x : Nat} {e : Int} {acc : Accuracy} {em : ExtendedMantissa}
    (hfirst : shiftToTargetExponent .binary64 m e acc = (em, (x : Int) - 1074))
    (hlow : binade ≤ em.roundedMantissa) (hhigh : em.roundedMantissa ≤ 2 * binade)
    (hx : x < 2045) :
    roundWithAccuracy .binary64 .positive m e acc =
      unpack .binary64 (x * binade + em.roundedMantissa).toUInt64.toBitVec := by
  have hexp : -1074 ≤ (x : Int) - 1074 := by omega
  have hinf : x * binade + em.roundedMantissa < infinityBits := by
    simp only [infinityBits, binade] at hhigh ⊢
    omega
  rw [unpack_bits (by omega) hinf (Nat.add_pos_left (by decide) _)]
  -- The mantissa may be the start of the next binade.
  rcases Nat.eq_or_lt_of_le hhigh with heq | hlt
  · -- It has a bit too many, which is zero.
    have hsecond := shiftToTargetExponent_of_le .exact (Nat.le_of_eq heq.symm)
      (by rw [heq]; decide) hexp
    have hmant : ((ExtendedMantissa.ofMantissaAndAccuracy em.roundedMantissa
        .exact).shiftRightOne).mantissa = binade := by
      show em.roundedMantissa / 2 = binade
      rw [heq]
      rfl
    rw [roundWithAccuracy_eq_finite hfirst hsecond (by rw [hmant]; decide)]
    apply finite_congr
    · rw [hmant]
      simp only [binade] at heq ⊢
      omega
    · simp only [binade] at heq ⊢
      omega
  · have hsecond := shiftToTargetExponent_of_lt .exact hlow hlt hexp
    rw [roundWithAccuracy_eq_finite hfirst hsecond (Nat.lt_of_lt_of_le (by decide) hlow)]
    apply finite_congr
    · show em.roundedMantissa = _
      simp only [binade] at hlow hlt ⊢
      omega
    · simp only [binade] at hlow hlt ⊢
      omega

/-! ## Whole numbers -/

/-- Doubling a number until it has 53 bits takes as often as it has fewer. -/
theorem shiftLeft_log2 {n : Nat} (hpos : 0 < n) (hmax : n < 2 * binade) :
    n.log2 ≤ 52 ∧ binade ≤ n <<< (52 - n.log2) ∧ n <<< (52 - n.log2) < 2 * binade := by
  have hlog : n.log2 < 53 := (Nat.log2_lt (Nat.ne_of_gt hpos)).mpr hmax
  have hlow : 2 ^ n.log2 ≤ n := Nat.log2_self_le (Nat.ne_of_gt hpos)
  have hhigh : n < 2 ^ (n.log2 + 1) := Nat.lt_log2_self
  -- The bounds of `n` by powers of two, doubled as often.
  have hbinade : binade = 2 ^ n.log2 * 2 ^ (52 - n.log2) := by
    rw [← Nat.pow_add, Nat.add_sub_cancel' (by omega)]
    rfl
  have hnext : 2 * binade = 2 ^ (n.log2 + 1) * 2 ^ (52 - n.log2) := by
    rw [hbinade, Nat.pow_succ, Nat.mul_right_comm, Nat.mul_comm 2]
  rw [Nat.shiftLeft_eq]
  refine ⟨by omega, ?_, ?_⟩
  · rw [hbinade]
    exact Nat.mul_le_mul_right _ hlow
  · rw [hnext]
    exact Nat.mul_lt_mul_of_pos_right hhigh (Nat.two_pow_pos _)

/-- The bits of a whole number. -/
theorem ofNat_eq_unpack {n : Nat} (hpos : 0 < n) (hmax : n < 2 * binade) :
    UnpackedFloat.ofNat .binary64 n =
      unpack .binary64
        ((n.log2 + 1022) * binade + n <<< (52 - n.log2)).toUInt64.toBitVec := by
  obtain ⟨hlog, hlow, hhigh⟩ := shiftLeft_log2 hpos hmax
  have hround : UnpackedFloat.ofNat .binary64 n = round .binary64 .positive n 0 := by
    rw [UnpackedFloat.ofNat, UnpackedFloat.ofInt, UnpackedFloat.normalize,
      Int.compare_eq_gt.mpr (Int.natCast_pos.mpr hpos)]
    rfl
  have hshift : (0 - Format.targetExponent .binary64 (totalExponent n 0)).toNat = 52 - n.log2 := by
    rw [targetExponent_binary64, totalExponent]
    omega
  -- The number is doubled until it has 53 bits, and then there is nothing to round.
  rw [hround, UnpackedFloat.round, decreaseExponent, hshift]
  have hexp : (0 : Int) - (52 - n.log2 : Nat) = (n.log2 + 1022 : Nat) - 1074 := by omega
  have hfirst := shiftToTargetExponent_of_lt .exact hlow hhigh
    (e := (0 : Int) - (52 - n.log2 : Nat)) (by omega)
  have hmant : (ExtendedMantissa.ofMantissaAndAccuracy (n <<< (52 - n.log2))
      .exact).roundedMantissa = n <<< (52 - n.log2) := rfl
  rw [hexp] at hfirst
  have hresult := roundWithAccuracy_eq_unpack hfirst (by rwa [hmant])
    (by rw [hmant]; exact Nat.le_of_lt hhigh) (by omega)
  rw [hmant] at hresult
  rw [hexp]
  exact hresult

/-- A whole number below `2 ^ 53` is a double, with a mantissa of 53 bits. -/
theorem unpack_toFloat {n : Nat} (hpos : 0 < n) (hmax : n < 2 * binade)
    (hmant : 0 < n <<< (52 - n.log2)) :
    n.toUInt64.toFloat.toModel.unpack =
      .finite .positive (n <<< (52 - n.log2)) (n.log2 - 52) hmant := by
  obtain ⟨hlog, hlow, hhigh⟩ := shiftLeft_log2 hpos hmax
  have hinf : (n.log2 + 1022) * binade + n <<< (52 - n.log2) < infinityBits := by
    simp only [infinityBits, binade] at hhigh ⊢
    omega
  have hn : n.toUInt64.toNat = n := by
    show n % 2 ^ 64 = n
    simp only [binade] at hmax
    omega
  -- Packing the number and unpacking it again changes nothing.
  have hbits : n.toUInt64.toFloat.toModel.unpack =
      (Float.ofBits ((n.log2 + 1022) * binade + n <<< (52 - n.log2)).toUInt64).toModel.unpack := by
    show unpack .binary64 (pack .binary64 (UnpackedFloat.ofNat .binary64 n.toUInt64.toNat)) = _
    rw [hn, ofNat_eq_unpack hpos hmax]
    rfl
  rw [hbits, unpack_toModel_ofBits hinf, unpack_bits (by omega) hinf (by omega)]
  apply finite_congr
  · simp only [binade] at hlow hhigh ⊢
    omega
  · simp only [binade] at hlow hhigh ⊢
    omega

/-! ## Quotients -/

/-- How often a fraction has to be doubled is told by where it gets to. -/
theorem doublings_eq {d limit n k : Nat} (hlimit : k ≤ limit) (hreach : d ≤ n <<< k)
    (hnext : n <<< k < 2 * d) : doublings d limit n = k := by
  apply Nat.le_antisymm
  · -- Until it is reached, the fraction is below one.
    refine Nat.le_of_not_lt fun hlt => ?_
    exact Nat.not_lt_of_le hreach (shiftLeft_lt_of_lt_doublings hlt)
  · -- Had counting ended earlier, the fraction would have been doubled beyond two.
    refine Nat.le_of_not_lt fun hlt => ?_
    have hle := le_shiftLeft_doublings (Nat.lt_of_lt_of_le hlt hlimit)
    obtain ⟨j, rfl⟩ := Nat.exists_eq_add_of_lt hlt
    have hmono : 2 * n <<< doublings d limit n ≤ n <<< (doublings d limit n + j + 1) := by
      rw [Nat.shiftLeft_succ, Nat.shiftLeft_add, Nat.shiftLeft_eq _ j]
      exact Nat.mul_le_mul_left 2 (Nat.le_mul_of_pos_right _ (Nat.two_pow_pos j))
    omega

/-- Rounding a fraction within its binade gives its bits. -/
theorem roundWithAccuracy_eq_nearestBits {n d k m : Nat} {e : Int} {acc : Accuracy}
    {em : ExtendedMantissa} (hd : 0 < d) (hk : k < binadesBelowOne) (hreach : d ≤ n <<< k)
    (hnext : n <<< k < 2 * d)
    (hfirst : shiftToTargetExponent .binary64 m e acc = (em, -52 - (k : Int)))
    (hround : em.roundedMantissa = roundDiv (n <<< k * binade) d) :
    roundWithAccuracy .binary64 .positive m e acc =
      unpack .binary64 (nearestBits n d).toUInt64.toBitVec := by
  -- The mantissa is within the binade, or the start of the next one.
  have hdoublings := doublings_eq (Nat.le_of_lt hk) hreach hnext
  have hlow : binade ≤ em.roundedMantissa := by
    have hle := binade_le_roundDiv (n := n) hd (by rwa [hdoublings])
    rwa [hdoublings, ← hround] at hle
  have hhigh : em.roundedMantissa ≤ 2 * binade := by
    have hle : n <<< k * binade ≤ 2 * binade * d := by
      rw [Nat.mul_right_comm 2]
      exact Nat.mul_le_mul_right _ (Nat.le_of_lt hnext)
    calc em.roundedMantissa ≤ roundDiv (2 * binade * d) d := by
          rw [hround]
          exact roundDiv_le_roundDiv hle d
      _ = 2 * binade := roundDiv_mul_self _ hd
  have hexp : -52 - (k : Int) = (binadesBelowOne - k : Nat) - 1074 := by
    simp only [binadesBelowOne] at hk ⊢
    omega
  rw [hexp] at hfirst
  simp only [nearestBits, hdoublings, ← hround]
  exact roundWithAccuracy_eq_unpack hfirst hlow hhigh (by simp only [binadesBelowOne]; omega)

/-- The quotient of two mantissas of 53 bits is computed to 53 bits at least. -/
theorem divCore_eq {a b p q : Nat} (ha : a.log2 = 52) (hb : b.log2 = 52) (hqp : p ≤ q + 52) :
    divCore .binary64 a (q - 52) b (p - 52) =
      (2 * binade * a / b, (q : Int) - p - 53, accuracyOfFraction (2 * binade * a % b) b) := by
  -- Both mantissas have as many bits, so the exponents decide how far the numerator is shifted.
  have hdiff : totalExponent a (q - 52) - totalExponent b (p - 52) = (q : Int) - p := by
    rw [totalExponent, totalExponent, ha, hb]
    omega
  have htarget : min ((q : Int) - 52 - (p - 52))
      (Format.targetExponent .binary64 ((q : Int) - p)) = (q : Int) - p - 53 := by
    rw [targetExponent_binary64]
    omega
  have hshift : ((q : Int) - 52 - (p - 52) - (q - p - 53)).toNat = 53 := by omega
  have hmul : a <<< 53 = 2 * binade * a := by
    rw [Nat.shiftLeft_eq, Nat.mul_comm]
    rfl
  simp only [divCore, hdiff, htarget, hshift, hmul]

/-- Dividing mantissas of 53 bits rounds the fraction. -/
theorem roundWithAccuracy_div {n d k c : Nat} (hc : 0 < c) (hk : k + 1 < binadesBelowOne)
    (ha : binade ≤ n <<< k * c) (ha' : n <<< k * c < 2 * binade) (hb : binade ≤ d * c)
    (hb' : d * c < 2 * binade) :
    roundWithAccuracy .binary64 .positive (2 * binade * (n <<< k * c) / (d * c)) (-53 - (k : Int))
        (accuracyOfFraction (2 * binade * (n <<< k * c) % (d * c)) (d * c)) =
      unpack .binary64 (nearestBits n d).toUInt64.toBitVec := by
  have hpos : 0 < d * c := Nat.lt_of_lt_of_le (by decide) hb
  have hd : 0 < d := Nat.pos_of_mul_pos_right hpos
  have hexp : -1074 ≤ -53 - (k : Int) := by
    simp only [binadesBelowOne] at hk
    omega
  by_cases hlt : n <<< k < d
  · -- The quotient has 53 bits, and the fraction has to be doubled once more.
    have hlt' : n <<< k * c < d * c := Nat.mul_lt_mul_of_pos_right hlt hc
    have hreach : d ≤ n <<< (k + 1) := by
      refine Nat.le_of_mul_le_mul_right ?_ hc
      rw [Nat.shiftLeft_succ, Nat.mul_assoc]
      omega
    have hnext : n <<< (k + 1) < 2 * d := by
      rw [Nat.shiftLeft_succ]
      omega
    have hlow : binade ≤ 2 * binade * (n <<< k * c) / (d * c) := by
      rw [Nat.le_div_iff_mul_le hpos, Nat.mul_right_comm, Nat.mul_comm _ binade]
      exact Nat.mul_le_mul_left binade (by omega)
    have hhigh : 2 * binade * (n <<< k * c) / (d * c) < 2 * binade := by
      rw [Nat.div_lt_iff_lt_mul hpos]
      exact Nat.mul_lt_mul_of_pos_left hlt' (by decide)
    have hexp' : -53 - (k : Int) = -52 - (k + 1 : Nat) := by omega
    refine roundWithAccuracy_eq_nearestBits hd hk hreach hnext
      ((shiftToTargetExponent_of_lt _ hlow hhigh hexp).trans (congrArg (Prod.mk _) hexp')) ?_
    have hnum : 2 * binade * (n <<< k * c) = n <<< (k + 1) * binade * c := by
      rw [Nat.shiftLeft_succ]
      ac_rfl
    rw [roundedMantissa_accuracyOfFraction _ hpos, hnum, roundDiv_mul_right _ d hc]
  · -- The quotient has 54 bits, of which one is dropped.
    have hreach := Nat.le_of_not_lt hlt
    have hreach' : d * c ≤ n <<< k * c := Nat.mul_le_mul_right c hreach
    have hnext : n <<< k < 2 * d := by
      refine Nat.lt_of_mul_lt_mul_right (a := c) ?_
      rw [Nat.mul_assoc]
      omega
    have hlow : 2 * binade ≤ 2 * binade * (n <<< k * c) / (d * c) := by
      rw [Nat.le_div_iff_mul_le hpos]
      exact Nat.mul_le_mul_left _ hreach'
    have hhigh : 2 * binade * (n <<< k * c) / (d * c) < 4 * binade := by
      have hmul : 4 * binade * (d * c) = 2 * binade * (2 * (d * c)) := by ring
      rw [Nat.div_lt_iff_lt_mul hpos, hmul]
      exact Nat.mul_lt_mul_of_pos_left (by omega) (by decide)
    have hexp' : -53 - (k : Int) + 1 = -52 - k := by omega
    refine roundWithAccuracy_eq_nearestBits hd (by omega) hreach hnext
      ((shiftToTargetExponent_of_le _ hlow hhigh hexp).trans (congrArg (Prod.mk _) hexp')) ?_
    have hnum : 2 * binade * (n <<< k * c) = n <<< k * binade * (c * 2) := by ac_rfl
    rw [roundedMantissa_shiftRightOne _ hpos, hnum, Nat.mul_assoc d,
      roundDiv_mul_right _ d (Nat.mul_pos hc Nat.two_pos)]

/-- Dividing two whole numbers rounds their fraction. -/
theorem div_unpack_toFloat {n d : Nat} (hpos : 0 < n) (hle : n ≤ d) (hmax : d < 2 * binade) :
    UnpackedFloat.div .binary64 n.toUInt64.toFloat.toModel.unpack
        d.toUInt64.toFloat.toModel.unpack =
      unpack .binary64 (nearestBits n d).toUInt64.toBitVec := by
  have hd := Nat.lt_of_lt_of_le hpos hle
  have hmax' := Nat.lt_of_le_of_lt hle hmax
  obtain ⟨hlogn, hlown, hhighn⟩ := shiftLeft_log2 hpos hmax'
  obtain ⟨hlogd, hlowd, hhighd⟩ := shiftLeft_log2 hd hmax
  have hlog : n.log2 ≤ d.log2 := (Nat.le_log2 (Nat.ne_of_gt hd)).mpr
    ((Nat.log2_self_le (Nat.ne_of_gt hpos)).trans hle)
  obtain ⟨k, hk⟩ := Nat.exists_eq_add_of_le hlog
  have hcore := divCore_eq (q := n.log2) (p := d.log2) (log2_mantissa hlown hhighn)
    (log2_mantissa hlowd hhighd) (by omega)
  have hmantn : 0 < n <<< (52 - n.log2) := Nat.lt_of_lt_of_le (by decide) hlown
  have hmantd : 0 < d <<< (52 - d.log2) := Nat.lt_of_lt_of_le (by decide) hlowd
  rw [unpack_toFloat hpos hmax' hmantn, unpack_toFloat hd hmax hmantd]
  simp only [UnpackedFloat.div, hcore]
  -- Both mantissas are scaled by as much as the divisor needs, and the numerator by what is left.
  have hsplit : 52 - n.log2 = k + (52 - d.log2) := by omega
  have hexp : (n.log2 : Int) - d.log2 - 53 = -53 - k := by omega
  have hn : n <<< (52 - n.log2) = n <<< k * 2 ^ (52 - d.log2) := by
    rw [hsplit, Nat.shiftLeft_add, Nat.shiftLeft_eq _ (52 - d.log2)]
  rw [hn] at hlown hhighn ⊢
  rw [Nat.shiftLeft_eq d] at hlowd hhighd ⊢
  rw [hexp]
  exact roundWithAccuracy_div (Nat.two_pow_pos _) (by simp only [binadesBelowOne]; omega) hlown
    hhighn hlowd hhighd

/-- The bits of zero are all zero. -/
theorem nearestBits_zero {d : Nat} (hd : 0 < d) : nearestBits 0 d = 0 := by
  -- Zero stays below one however often it is doubled.
  have hlimit : doublings d binadesBelowOne 0 = binadesBelowOne := by
    refine Nat.le_antisymm (doublings_le ..) (Nat.le_of_not_lt fun hlt => ?_)
    have hreach := le_shiftLeft_doublings hlt
    rw [Nat.zero_shiftLeft] at hreach
    omega
  simp only [nearestBits, hlimit, Nat.zero_shiftLeft, Nat.zero_mul, Nat.sub_self, Nat.zero_add]
  simp [roundDiv, hd]

/-- The nearest double of a fraction of doubles is their quotient. -/
theorem nearest_eq_div {n d : Nat} (hd : 0 < d) (hle : n ≤ d) (hmax : d < 2 * binade) :
    nearest n d = n.toUInt64.toFloat / d.toUInt64.toFloat := by
  have hdiv : UnpackedFloat.div .binary64 n.toUInt64.toFloat.toModel.unpack
      d.toUInt64.toFloat.toModel.unpack = unpack .binary64 (nearestBits n d).toUInt64.toBitVec := by
    -- Zero is a double apart, which has no mantissa.
    rcases Nat.eq_zero_or_pos n with rfl | hpos
    · have hmant : 0 < d <<< (52 - d.log2) :=
        Nat.lt_of_lt_of_le (by decide) (shiftLeft_log2 hd hmax).2.1
      rw [nearestBits_zero hd, unpack_toFloat hd hmax hmant]
      rfl
    · exact div_unpack_toFloat hpos hle hmax
  calc nearest n d
      = .ofModel (.pack (unpack .binary64 (nearestBits n d).toUInt64.toBitVec)) := rfl
    _ = n.toUInt64.toFloat / d.toUInt64.toFloat := by
        rw [← hdiv]
        rfl

end LogDrift.Double

namespace LogDrift.Text.Similarity

/-- The double of a similarity is the quotient of its two numbers, as doubles. -/
theorem toFloat_eq_div {r : Similarity} (h : r.total < 2 ^ 53) :
    r.toFloat = r.shared.toUInt64.toFloat / r.total.toUInt64.toFloat :=
  Double.nearest_eq_div r.total_pos r.shared_le h

end LogDrift.Text.Similarity

import LogDrift.Proofs.DoubleOrder

/-! # Rounding fractions preserves their order

The double nearest to a fraction is found by rounding its mantissa within a binade. Within a binade
rounding is monotone (`roundDiv_mono`), and a mantissa never leaves its binade but for the first
number of the next one, so the bits are monotone over all binades (`nearestBits_mono`).

## Key results

- `nearest_le_nearest`: the smaller fraction has the smaller nearest double
- `nearest_self`: the nearest double of a fraction that is one is one
-/

namespace LogDrift.Double

/-! ## Rounding a quotient -/

/-- Rounding does not depend on how the fraction is written. -/
theorem roundDiv_mul_right (n d : Nat) {c : Nat} (hc : 0 < c) :
    roundDiv (n * c) (d * c) = roundDiv n d := by
  have hdiv : n * c / (d * c) = n / d := Nat.mul_div_mul_right n d hc
  have hmod : 2 * (n * c % (d * c)) = 2 * (n % d) * c := by
    rw [Nat.mul_mod_mul_right, Nat.mul_assoc]
  simp only [roundDiv, hdiv, hmod, Nat.mul_lt_mul_right hc, Nat.mul_left_inj (Nat.ne_of_gt hc)]

/-- Over one denominator, rounding preserves the order of the numerators. -/
theorem roundDiv_le_roundDiv {m n : Nat} (h : m ≤ n) (d : Nat) :
    roundDiv m d ≤ roundDiv n d := by
  have hquot : m / d ≤ n / d := Nat.div_le_div_right h
  have hm := Nat.div_add_mod m d
  have hn := Nat.div_add_mod n d
  by_cases heq : m / d = n / d
  · -- Equal quotients: the remainders are ordered, and so is their rounding.
    rw [heq] at hm
    have hrem : m % d ≤ n % d := by omega
    simp only [roundDiv, heq]
    split <;> split <;> omega
  · -- The smaller quotient is rounded up to the greater one at most.
    simp only [roundDiv]
    split <;> split <;> omega

/-- Rounding preserves the order of fractions. -/
theorem roundDiv_mono {m c n d : Nat} (hc : 0 < c) (hd : 0 < d) (h : m * d ≤ n * c) :
    roundDiv m c ≤ roundDiv n d := by
  -- Write both over one denominator.
  rw [← roundDiv_mul_right m c hd, ← roundDiv_mul_right n d hc, Nat.mul_comm d c]
  exact roundDiv_le_roundDiv h (c * d)

/-- A whole number is not rounded. -/
theorem roundDiv_mul_self (q : Nat) {d : Nat} (hd : 0 < d) : roundDiv (q * d) d = q := by
  simp [roundDiv, hd]

/-! ## Finding the binade -/

/-- Counting ends at the limit. -/
theorem doublings_le (d limit n : Nat) : doublings d limit n ≤ limit := by
  induction limit generalizing n with
  | zero => simp [doublings]
  | succ limit ih =>
    have := ih (2 * n)
    simp only [doublings]
    split <;> omega

/-- If counting ends before the limit, the fraction has reached one. -/
theorem le_shiftLeft_doublings {d limit n : Nat} (h : doublings d limit n < limit) :
    d ≤ n <<< doublings d limit n := by
  -- On the limit, as counting doubles the fraction and lowers the limit.
  induction limit generalizing n with
  | zero => simp at h
  | succ limit ih =>
    simp only [doublings] at h ⊢
    -- The fraction has reached one, or it is doubled and counting goes on.
    split at h
    · rename_i hle
      simp [hle]
    · rename_i hlt
      simp only [hlt, if_false]
      rw [Nat.shiftLeft_succ_inside]
      exact ih (by omega)

/-- Before counting ends, the fraction is below one. -/
theorem shiftLeft_lt_of_lt_doublings {d limit n k : Nat} (h : k < doublings d limit n) :
    n <<< k < d := by
  induction limit generalizing n k with
  | zero => simp [doublings] at h
  | succ limit ih =>
    simp only [doublings] at h
    split at h
    · omega
    · rename_i hlt
      -- The first doubling is that of the fraction itself, and the others are those of the doubled
      -- one.
      cases k with
      | zero => simpa using hlt
      | succ k =>
        rw [Nat.shiftLeft_succ_inside]
        exact ih (by omega)

/-- The greater fraction has to be doubled less often. -/
private theorem doublings_anti {m c n d : Nat} (limit : Nat) (hc : 0 < c) (h : m * d ≤ n * c) :
    doublings d limit n ≤ doublings c limit m := by
  refine Nat.le_of_not_lt fun hlt => ?_
  -- Doubled as often as the smaller one, the greater fraction would still be below one.
  have hm := le_shiftLeft_doublings (Nat.lt_of_lt_of_le hlt (doublings_le ..))
  have hn := shiftLeft_lt_of_lt_doublings hlt
  generalize doublings c limit m = k at hm hn
  rw [Nat.shiftLeft_eq] at hm hn
  have hle : c * d ≤ n * 2 ^ k * c := by
    calc c * d ≤ m * 2 ^ k * d := Nat.mul_le_mul_right d hm
      _ = m * d * 2 ^ k := Nat.mul_right_comm ..
      _ ≤ n * c * 2 ^ k := Nat.mul_le_mul_right _ h
      _ = n * 2 ^ k * c := Nat.mul_right_comm ..
  have hlt := Nat.mul_lt_mul_of_pos_right hn hc
  rw [Nat.mul_comm d c] at hlt
  omega

/-! ## The nearest double -/

/-- A fraction below one has a mantissa of at most the end of its binade. -/
private theorem roundDiv_le_binade_end {m c : Nat} (hc : 0 < c)
    (hpos : 0 < doublings c binadesBelowOne m) :
    roundDiv (m <<< doublings c binadesBelowOne m * binade) c ≤ 2 * binade := by
  obtain ⟨k, hk⟩ := Nat.exists_eq_succ_of_ne_zero (Nat.ne_of_gt hpos)
  have hlt : m <<< k < c := shiftLeft_lt_of_lt_doublings (hk ▸ Nat.lt_succ_self k)
  have hend : m <<< (k + 1) * binade ≤ 2 * binade * c := by
    rw [Nat.shiftLeft_succ, Nat.mul_right_comm 2]
    exact Nat.mul_le_mul_left (2 * binade) (Nat.le_of_lt hlt)
  calc roundDiv (m <<< doublings c binadesBelowOne m * binade) c
      ≤ roundDiv (2 * binade * c) c := by rw [hk]; exact roundDiv_le_roundDiv hend c
    _ = 2 * binade := roundDiv_mul_self (2 * binade) hc

/-- A fraction that reaches one within the limit has a mantissa with a leading bit. -/
theorem binade_le_roundDiv {n d : Nat} (hd : 0 < d)
    (hlimit : doublings d binadesBelowOne n < binadesBelowOne) :
    binade ≤ roundDiv (n <<< doublings d binadesBelowOne n * binade) d := by
  have hone := le_shiftLeft_doublings hlimit
  have hstart : binade * d ≤ n <<< doublings d binadesBelowOne n * binade := by
    rw [Nat.mul_comm]
    exact Nat.mul_le_mul_right binade hone
  calc binade = roundDiv (binade * d) d := (roundDiv_mul_self binade hd).symm
    _ ≤ _ := roundDiv_le_roundDiv hstart d

/-- The bits of the nearest double preserve the order of fractions. -/
theorem nearestBits_mono {m c n d : Nat} (hc : 0 < c) (hd : 0 < d) (h : m * d ≤ n * c) :
    nearestBits m c ≤ nearestBits n d := by
  have hle := doublings_anti binadesBelowOne hc h
  have hlimit := doublings_le c binadesBelowOne m
  simp only [nearestBits]
  rcases Nat.eq_or_lt_of_le hle with heq | hlt
  · -- In one binade the mantissas are compared.
    rw [heq]
    apply Nat.add_le_add_left
    apply roundDiv_mono hc hd
    rw [Nat.shiftLeft_eq, Nat.shiftLeft_eq]
    calc m * 2 ^ _ * binade * d = m * d * (2 ^ _ * binade) := by ac_rfl
      _ ≤ n * c * (2 ^ _ * binade) := Nat.mul_le_mul_right _ h
      _ = n * 2 ^ _ * binade * c := by ac_rfl
  · -- In a higher binade the mantissa starts where that of the lower one ends.
    have hlow := roundDiv_le_binade_end hc (Nat.zero_lt_of_lt hlt)
    have hhigh := binade_le_roundDiv hd (Nat.lt_of_lt_of_le hlt hlimit)
    simp only [binade, binadesBelowOne] at hlow hhigh hlimit hlt ⊢
    omega

/-- A fraction of at most one has at most the bits of one. -/
private theorem nearestBits_le_oneBits {n d : Nat} (hd : 0 < d) (h : n ≤ d) :
    nearestBits n d ≤ oneBits := by
  have hone : nearestBits 1 1 = oneBits := by decide
  rw [← hone]
  exact nearestBits_mono hd Nat.one_pos (by omega)

/-- The smaller of two fractions of at most one has the smaller nearest double. -/
theorem nearest_le_nearest {m c n d : Nat} (hc : 0 < c) (hd : 0 < d) (hn : n ≤ d)
    (h : m * d ≤ n * c) : nearest m c ≤ nearest n d :=
  ofBits_le_ofBits (nearestBits_mono hc hd h)
    (Nat.lt_of_le_of_lt (nearestBits_le_oneBits hd hn) (by decide))

/-- The nearest double of a fraction that is one is one. -/
theorem nearest_self {d : Nat} (hd : 0 < d) : nearest d d = 1.0 := by
  have hone : nearestBits 1 1 = oneBits := by decide
  -- It is not below the nearest double of one over one, and not above it.
  have hbits : nearestBits d d = nearestBits 1 1 :=
    Nat.le_antisymm (nearestBits_mono hd Nat.one_pos (by omega))
      (nearestBits_mono Nat.one_pos hd (by omega))
  rw [nearest, hbits, hone, ofBits_oneBits]

end LogDrift.Double

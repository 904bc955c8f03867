/-! # The double nearest to a fraction

`nearest n d` is the double nearest to the fraction `n / d`, which is at most one; of two that are
equally near it is the one with the even mantissa. Its bits are put together as a whole number,
which orders doubles of one sign as their values do. As long as `n` and `d` are doubles themselves,
this is what dividing them gives.
-/

namespace LogDrift.Double

/-- How many doubles there are from a power of two up to the next, `2 ^ 52`. -/
def binade : Nat := 0x10000000000000

/-- How many binades there are below one. The doubles below the last of them are spaced as in it. -/
def binadesBelowOne : Nat := 1022

/-- The whole number nearest to `n / d`, the even one of two that are equally near. -/
def roundDiv (n d : Nat) : Nat :=
  if 2 * (n % d) < d ∨ 2 * (n % d) = d ∧ n / d % 2 = 0 then n / d else n / d + 1

/-- How often a fraction `n / d` has to be doubled to reach one, counted up to a limit. -/
def doublings (d : Nat) : (limit n : Nat) → Nat
  | 0, _ => 0
  | limit + 1, n => if d ≤ n then 0 else doublings d limit (2 * n) + 1

/-- The bits of the double nearest to a fraction. A mantissa that is rounded up to the next power of
    two carries over into the exponent. -/
def nearestBits (n d : Nat) : Nat :=
  let k := doublings d binadesBelowOne n
  (binadesBelowOne - k) * binade + roundDiv (n <<< k * binade) d

/-- The double nearest to a fraction. -/
def nearest (n d : Nat) : Float := Float.ofBits (nearestBits n d).toUInt64

end LogDrift.Double

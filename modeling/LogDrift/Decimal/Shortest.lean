/-! # Shortest decimal numbers

A double stands for all reals that round to it, an interval around its value. `shortest` gives the
decimal number with the fewest significant digits in that interval, and of those the nearest to the
value; an exact tie between two neighbours goes by a rule of its own (`Tie`).

The search works on exact fractions: for one, two, and up to seventeen digits it looks at the two
neighbours of the value among the decimal numbers with that many digits, and takes the first hit.
If any decimal number with so many digits lies in the interval, so does one of these two neighbours.
-/

namespace LogDrift.Decimal

/-- A double taken apart. -/
inductive Decoded where
  | notANumber
  | infinite (negative : Bool)
  /-- The value `mantissa · 2 ^ exponent`, with its sign. -/
  | finite (negative : Bool) (mantissa : Nat) (exponent : Int)
deriving DecidableEq, Repr

/-- The bit in front of the fraction that a double does not write down, `2 ^ 52`. -/
def hiddenBit : Nat := 0x10000000000000

/-- Takes a double apart. -/
def Decoded.ofFloat (x : Float) : Decoded :=
  let bits := x.toBits
  let negative := bits >>> 63 == 1
  let exponent := (bits >>> 52 &&& 0x7ff).toNat
  let fraction := (bits &&& 0xfffffffffffff).toNat
  if exponent = 2047 then
    if fraction = 0 then .infinite negative else .notANumber
  else if exponent = 0 then .finite negative fraction (-1074)
  else .finite negative (fraction + hiddenBit) ((exponent : Int) - 1075)

/-- The reals that round to a double, over a common denominator. -/
structure Interval where
  low : Nat
  value : Nat
  high : Nat
  denominator : Nat
  /-- Whether the two ends round to the double as well. -/
  closed : Bool

/-- The interval of the positive double `mantissa · 2 ^ exponent`. Its ends lie half way to the
    neighbours, the lower of which is closer at a power of two. -/
def Interval.of (mantissa : Nat) (exponent : Int) : Interval :=
  let scale := Nat.pow 2 (exponent - 2).toNat
  -- At a power of two the neighbour below is half as far away as the one above.
  let narrow := mantissa = hiddenBit && -1074 < exponent
  { low := (4 * mantissa - if narrow then 1 else 2) * scale
    value := 4 * mantissa * scale
    high := (4 * mantissa + 2) * scale
    denominator := Nat.pow 2 (2 - exponent).toNat
    closed := mantissa % 2 = 0 }

namespace Interval

/-- The interval in units of `10 ^ place`. -/
def inUnits (i : Interval) (place : Int) : Interval :=
  let up := Nat.pow 10 (-place).toNat
  { low := i.low * up
    value := i.value * up
    high := i.high * up
    denominator := i.denominator * Nat.pow 10 place.toNat
    closed := i.closed }

/-- Whether a whole number lies in the interval. -/
def contains (i : Interval) (n : Nat) : Bool :=
  let n := n * i.denominator
  if i.closed then i.low ≤ n && n ≤ i.high else i.low < n && n < i.high

/-- The place in front of the value's first digit: the least `p` with value below `10 ^ p`. -/
def leadingPlace (i : Interval) : Int :=
  let whole := i.value / i.denominator
  if whole = 0 then
    match (List.range 400).find? fun zeros => i.denominator ≤ i.value * Nat.pow 10 (zeros + 1) with
    | some zeros => -zeros
    | none => 0
  else (Nat.toDigits 10 whole).length

end Interval

/-- Which neighbour an exact tie goes to. -/
inductive Tie where
  | up
  | even
deriving DecidableEq, Repr

/-- A decimal number `digits · 10 ^ place`. -/
structure Scaled where
  digits : Nat
  place : Int
deriving DecidableEq, Repr

/-- Which of the neighbours `n` and `n + 1` of the value is nearer to it. -/
def Interval.nearer (i : Interval) (tie : Tie) (n : Nat) : Nat :=
  let below := i.value - n * i.denominator
  let above := (n + 1) * i.denominator - i.value
  if below < above then n
  else if above < below then n + 1
  else match tie with
    | .up => n + 1
    | .even => if n % 2 = 0 then n else n + 1

/-- The neighbour of the value among the multiples of `10 ^ place` that lies in the interval, the
    nearer one if both do. -/
def Interval.atPlace? (i : Interval) (tie : Tie) (place : Int) : Option Scaled :=
  let units := i.inUnits place
  let n := units.value / units.denominator
  match units.contains n, units.contains (n + 1) with
  | true, true => some ⟨units.nearer tie n, place⟩
  | true, false => some ⟨n, place⟩
  | false, true => some ⟨n + 1, place⟩
  | false, false => none

/-- Ten units of a place are one unit of the place above it. -/
def Scaled.carried (d : Scaled) : Scaled :=
  if d.digits = 10 then ⟨1, d.place + 1⟩ else d

/-- The decimal number with the fewest digits that rounds to the positive double
    `mantissa · 2 ^ exponent`, the nearest of those to its value. -/
def shortest (tie : Tie) (mantissa : Nat) (exponent : Int) : Scaled :=
  let interval := Interval.of mantissa exponent
  let leading := interval.leadingPlace
  let places := (List.range 17).map fun n : Nat => leading - (n + 1)
  ((places.findSome? (interval.atPlace? tie)).getD ⟨0, 0⟩).carried

end LogDrift.Decimal

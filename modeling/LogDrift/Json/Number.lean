import LogDrift.Json.Scan

/-! # Numbers of JSON texts

`scanNumber` scans a number into its digits, `NumberText.value?` gives its double. The digits are
gathered into a whole number below 2⁶⁴; digits of the whole part that no longer fit count by their
place only, those of the fraction do not count. The result is scaled by a power of ten in one
multiplication or division, so it need not be the nearest double.
-/

namespace LogDrift.Json

/-- A number as written. -/
structure NumberText where
  negative : Bool
  whole : List Char
  fraction : List Char
  exponentNegative : Bool
  /-- The digits of the exponent, or none if there is no exponent. -/
  exponent : List Char

/-- Scans digits, as many as there are. -/
def scanAnyDigits (cs : List Char) : Scan 0 (List Char) cs :=
  match cs with
  | [] => .nothing [] []
  | c :: cs =>
    if c.isDigit then (((scanAnyDigits cs).mapValue (c :: ·)).behind c).relax
    else .nothing [] (c :: cs)

/-- Scans digits, at least one. -/
def scanDigits (atEnd : JsonFault) (cs : List Char) : Scan 1 (List Char) cs :=
  match cs with
  | [] => .error atEnd
  | c :: cs =>
    if c.isDigit then ((scanAnyDigits cs).mapValue (c :: ·)).behind c else .error .malformed

/-- Scans the whole part of a number: a single zero, or digits that do not start with one. -/
def scanWhole (atEnd : JsonFault) (cs : List Char) : Scan 1 (List Char) cs :=
  (scanDigits atEnd cs).andThen fun digits rest _ =>
    if digits.head? = some '0' && 1 < digits.length then .error .malformed
    else .nothing digits rest

/-- Scans the fraction of a number, if there is one. -/
def scanFraction (atEnd : JsonFault) (cs : List Char) : Scan 0 (List Char) cs :=
  match cs with
  | '.' :: digits => ((scanDigits atEnd digits).behind '.').relax
  | cs => .nothing [] cs

/-- Scans a sign, if there is one; whether it is a minus. -/
def scanSign (cs : List Char) : Scan 0 Bool cs :=
  match cs with
  | '-' :: cs => ((Scan.nothing true cs).behind '-').relax
  | '+' :: cs => ((Scan.nothing false cs).behind '+').relax
  | cs => .nothing false cs

/-- Scans the exponent of a number, if there is one: its sign and digits. -/
def scanExponent (atEnd : JsonFault) (cs : List Char) : Scan 0 (Bool × List Char) cs :=
  match cs with
  | [] => .nothing (false, []) []
  | c :: cs =>
    if c = 'e' || c = 'E' then
      ((scanSign cs).andThen fun negative rest _ =>
        (scanDigits atEnd rest).mapValue (negative, ·)).behind c |>.relax
    else .nothing (false, []) (c :: cs)

/-- Scans a number without its sign. -/
def scanUnsigned (atEnd : JsonFault) (negative : Bool) (cs : List Char) : Scan 1 NumberText cs :=
  (scanWhole atEnd cs).andThen fun whole rest _ =>
    (scanFraction atEnd rest).andThen fun fraction rest _ =>
      (scanExponent atEnd rest).mapValue fun exponent =>
        ⟨negative, whole, fraction, exponent.1, exponent.2⟩

/-- Whether a character starts a number. -/
def startsNumber (c : Char) : Bool := c = '-' || c.isDigit

/-- Scans a number, given its first character. `atEnd` is the fault if the text ends inside it. -/
def scanNumber (atEnd : JsonFault) (first : Char) (cs : List Char) : Scan 0 NumberText cs :=
  if first = '-' then (scanUnsigned atEnd true cs).relax
  else (scanUnsigned atEnd false (first :: cs)).inside

/-! ## Values -/

/-- The bound of the whole number that digits are gathered into. -/
def digitLimit : Nat := UInt64.size

/-- Gathers digits onto a whole number as long as it stays below the limit, and counts them. -/
def gather (n : Nat) : List Char → Nat × Nat
  | [] => (n, 0)
  | c :: cs =>
    let next := 10 * n + (c.toNat - '0'.toNat)
    if next < digitLimit then
      let (total, count) := gather next cs
      (total, count + 1)
    else (n, 0)

/-- The greatest power of ten that is a factor of its own. -/
def maxScale : Nat := 308

/-- The double nearest to a power of ten. -/
def powerOfTen (n : Nat) : Float := Float.ofScientific 1 false n

/-- Scales a double down by a power of ten, in steps of at most `maxScale` places. -/
def scaleDown (x : Float) (places : Nat) : Float :=
  if places ≤ maxScale then x / powerOfTen places
  else if x == 0.0 then x
  else scaleDown (x / powerOfTen maxScale) (places - maxScale)
termination_by places
decreasing_by simp only [maxScale] at *; omega

/-- Scales a double by a power of ten; there is none if the result is too large. -/
def scale? (x : Float) (exponent : Int) : Option Float :=
  if exponent < 0 then some (scaleDown x exponent.natAbs)
  else if exponent.toNat ≤ maxScale then
    let y := x * powerOfTen exponent.toNat
    if y.isInf then none else some y
  else if x == 0.0 then some x
  else none

/-- The greatest exponent that is still counted, `2 ^ 31 - 1`. -/
def exponentLimit : Nat := 2147483647

/-- The double of a number; there is none if it is too large. An exponent beyond counting is too
    large for every number but zero, or gives zero if it is negative. -/
def NumberText.value? (t : NumberText) : Option Float :=
  let (whole, wholeCount) := gather 0 t.whole
  -- Digits of the whole part that did not fit stay in `place` as zeros.
  let (digits, fractionCount) := gather whole t.fraction
  let place : Int := (t.whole.length : Int) - wholeCount - fractionCount
  let exponent := t.exponent.foldl (fun n c => 10 * n + (c.toNat - '0'.toNat)) 0
  let magnitude? :=
    if exponentLimit < exponent then
      if digits ≠ 0 && !t.exponentNegative then none else some 0.0
    else scale? digits.toUInt64.toFloat
      (place + if t.exponentNegative then -(exponent : Int) else exponent)
  magnitude?.map fun x => if t.negative then -x else x

end LogDrift.Json

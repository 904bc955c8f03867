import LogDrift.Decimal.Shortest

/-! # Writing doubles

A double is written with the shortest digits that read back, in one of two styles: `plain`, which
never uses an exponent, for messages, and `exact`, which always has a point or an exponent, for
JSON.
-/

namespace LogDrift.Decimal

/-- What a way of writing numbers decides. -/
structure NumberStyle where
  /-- Where an exact tie between two shortest digit strings goes. -/
  tie : Tie
  /-- Whether a number whose value is below `10 ^ magnitude`, and not below `10 ^ (magnitude - 1)`,
      is written without an exponent. -/
  positional : (magnitude : Int) → Bool
  /-- What a whole number written without an exponent ends with. -/
  wholeMark : String

/-- Messages write every number without an exponent, and whole numbers without a point. -/
def messageStyle : NumberStyle := ⟨.up, fun _ => true, ""⟩

/-- JSON texts write numbers without an exponent from `10 ^ -5` up to `10 ^ 16`, and whole numbers
    with a fraction of zero. -/
def jsonStyle : NumberStyle :=
  ⟨.even, fun magnitude => -5 < magnitude && magnitude ≤ 16, ".0"⟩

/-- Writes the digits with a point `place` places from their end, or that many zeros after them. -/
def positionalDigits (wholeMark : String) (digits : List Char) (place : Int) : List Char :=
  let fraction := (-place).toNat
  if fraction = 0 then digits ++ List.replicate place.toNat '0' ++ wholeMark.toList
  else if fraction < digits.length then
    let whole := digits.length - fraction
    digits.take whole ++ '.' :: digits.drop whole
  else '0' :: '.' :: (List.replicate (fraction - digits.length) '0' ++ digits)

/-- Writes the digits with a point behind the first and an exponent. -/
def scientificDigits (digits : List Char) (exponent : Int) : List Char :=
  let fraction := digits.drop 1
  digits.take 1 ++ (if fraction.isEmpty then [] else '.' :: fraction)
    ++ 'e' :: (toString exponent).toList

/-- Writes a positive decimal number. -/
def NumberStyle.writeDecimal (style : NumberStyle) (d : Scaled) : List Char :=
  let digits := Nat.toDigits 10 d.digits
  let magnitude := digits.length + d.place
  if style.positional magnitude then positionalDigits style.wholeMark digits d.place
  else scientificDigits digits (magnitude - 1)

/-- Writes a double. -/
def NumberStyle.write (style : NumberStyle) (x : Float) : String :=
  let signed (negative : Bool) (text : String) := if negative then "-" ++ text else text
  match Decoded.ofFloat x with
  | .notANumber => "NaN"
  | .infinite negative => signed negative "inf"
  | .finite negative 0 _ => signed negative ("0" ++ style.wholeMark)
  | .finite negative mantissa exponent =>
    signed negative (String.ofList (style.writeDecimal (shortest style.tie mantissa exponent)))

/-- A double as messages show it. -/
def plain (x : Float) : String := messageStyle.write x

/-- A finite double as a JSON number. -/
def jsonNumber (x : Float) : String := jsonStyle.write x

end LogDrift.Decimal

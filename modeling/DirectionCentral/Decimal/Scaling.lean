import DirectionCentral.Json.Numeral

/-!
# Decimals as binary numbers

The floating-point value of a numeral, by one conversion and one scaling: the digits that fit 64
bits are read as an integer, which is multiplied or divided by the power of ten that is left. Each
of the two steps rounds, so the result can differ in the last place from the nearest number.
-/

namespace DirectionCentral.Decimal

/-- Append decimal digits to a significand as long as it stays below `2 ^ 64`; returns the
significand and the digits left over. -/
def appendDigits (significand : Nat) : List Char → Nat × List Char
  | [] => (significand, [])
  | c :: rest =>
    let next := significand * 10 + (c.toNat - '0'.toNat)
    if next < UInt64.size then appendDigits next rest else (significand, c :: rest)

/-- The floating-point number nearest to a power of ten. -/
def powerOfTen (exponent : Nat) : Float := Float.ofScientific 1 false exponent

/-- Divide by a power of ten, by `10 ^ 308` at a time while the power is larger. -/
def divideByPower (value : Float) (exponent : Nat) : Float :=
  if exponent ≤ 308 then value / powerOfTen exponent
  else if value == 0.0 then value
  else divideByPower (value / powerOfTen 308) (exponent - 308)
termination_by exponent

/-- Multiply by a power of ten; refuses a result that is not finite. -/
def multiplyByPower? (value : Float) (exponent : Nat) : Option Float :=
  if exponent ≤ 308 then
    let product := value * powerOfTen exponent
    if product.isInf then none else some product
  else if value == 0.0 then some value
  else none

/-- The value of `significand * 10 ^ exponent`. -/
def scale? (significand : Nat) (exponent : Int) : Option Float :=
  let value := (UInt64.ofNat significand).toFloat
  match exponent with
  | .ofNat n => multiplyByPower? value n
  | .negSucc n => some (divideByPower value (n + 1))

end DirectionCentral.Decimal

namespace DirectionCentral.Numeral

/-- The floating-point value of a numeral; none if it is too large. -/
def toFloat? (numeral : Numeral) : Option Float :=
  let (whole, dropped) := Decimal.appendDigits 0 numeral.whole
  let (significand, ignored) := Decimal.appendDigits whole numeral.fraction
  let places := numeral.fraction.length - ignored.length
  let exponent := numeral.exponent.getD 0 + dropped.length - places
  (Decimal.scale? significand exponent).map fun value => if numeral.negative then -value else value

end DirectionCentral.Numeral

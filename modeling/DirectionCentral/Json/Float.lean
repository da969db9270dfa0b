import DirectionCentral.Json.Value
import DirectionCentral.Decimal.Scaling
import DirectionCentral.Decimal.Shortest

/-!
# Floating-point numbers in JSON

A finite number is written in its shortest decimal form. JSON has no word for the others, which are
written as `null`; reading takes numbers only, so these do not read back.
-/

namespace DirectionCentral.Json

/-- The value of a floating-point number; `null` if it is not finite. -/
def ofFloat (value : Float) : Json :=
  match Numeral.ofFloat? value with
  | some numeral => .number numeral
  | none => .null

/-- The floating-point value of a number, with or without point and exponent. -/
def float? : Json → Option Float
  | .number numeral => numeral.toFloat?
  | _ => none

end DirectionCentral.Json

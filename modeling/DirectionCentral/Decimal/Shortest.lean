import DirectionCentral.Json.Numeral

/-!
# Shortest decimals

The decimal text of a binary floating-point number. A finite number is decoded into an exact
fraction, together with the reals that round to it; the digits written are those of the point
nearest to the number on the coarsest grid of powers of ten that has a point among these reals. So
no shorter decimal reads back as the number. The layout of the digits is a decision of the format
and stands in `layout`.
-/

namespace DirectionCentral.Decimal

/-- A positive fraction and the reals that round to it, over one denominator. -/
structure RoundingInterval where
  /-- Numerator of the least real. -/
  lower : Nat
  /-- Numerator of the number itself. -/
  middle : Nat
  /-- Numerator of the greatest real. -/
  upper : Nat
  /-- The denominator. -/
  denominator : Nat
  /-- Whether the two ends round to the number. -/
  closed : Bool

/-- The interval of the number `significand * 2 ^ exponent`, whose neighbour below lies half as far
as the one above if `narrow`. -/
def RoundingInterval.ofBinary (significand : Nat) (exponent : Int) (narrow : Bool) :
    RoundingInterval :=
  let quarter := exponent - 2
  let scale := Nat.pow 2 quarter.toNat
  { lower := (4 * significand - if narrow then 1 else 2) * scale
    middle := 4 * significand * scale
    upper := (4 * significand + 2) * scale
    denominator := Nat.pow 2 (-quarter).toNat
    closed := significand % 2 == 0 }

/-- The interval of the magnitude with the given bits, which are those of a finite number other than
zero without its sign. -/
def RoundingInterval.ofMagnitude (bits : Nat) : RoundingInterval :=
  let fraction := bits % 0x10000000000000
  let field : Nat := bits / 0x10000000000000
  if field = 0 then .ofBinary fraction (-1074) false
  else .ofBinary (0x10000000000000 + fraction) ((field : Int) - 1075) (fraction == 0 && field != 1)

/-- The multiple of `10 ^ power` nearest to the number, as a count, if it is among the reals that
round to the number; of two equally near the even one. -/
def RoundingInterval.gridPoint? (i : RoundingInterval) (power : Int) : Option Nat :=
  let up := Nat.pow 10 (-power).toNat
  let unit := i.denominator * Nat.pow 10 power.toNat
  let inside (n : Nat) : Bool :=
    if i.closed then i.lower * up ≤ n * unit && n * unit ≤ i.upper * up
    else i.lower * up < n * unit && n * unit < i.upper * up
  let below := i.middle * up / unit
  let above := below + 1
  let down := i.middle * up - below * unit
  let rise := above * unit - i.middle * up
  match inside below, inside above with
  | true, true =>
    some (if down < rise || (down == rise && below % 2 == 0) then below else above)
  | true, false => if below = 0 then none else some below
  | false, true => some above
  | false, false => none

/-- The digits of the number, as a count and a power of ten: the nearest point of the coarsest grid
that has one. The grids from `10 ^ 309` to `10 ^ -349` leave none of the finite numbers out. -/
def RoundingInterval.shortest (i : RoundingInterval) : Nat × Int :=
  let grid (step : Nat) : Int := 309 - step
  ((List.range 659).findSome? fun step => (i.gridPoint? (grid step)).map (·, grid step)).getD (0, 0)

/-- Write the number `count * 10 ^ power`: positional with at least one digit on both sides of the
point if the point falls behind at most sixteen digits or ahead of at most five zeros, and else with
an exponent after the first digit. -/
def layout (negative : Bool) (count : Nat) (power : Int) : Numeral :=
  let digits := Text.decimal count
  let point := digits.length + power
  if 0 ≤ power ∧ point ≤ 16 then
    ⟨negative, digits ++ List.replicate power.toNat '0', ['0'], none⟩
  else if 0 < point ∧ point ≤ 16 then
    ⟨negative, digits.take point.toNat, digits.drop point.toNat, none⟩
  else if -5 < point ∧ point ≤ 0 then
    ⟨negative, ['0'], List.replicate (-point).toNat '0' ++ digits, none⟩
  else
    ⟨negative, digits.take 1, digits.drop 1, some (point - 1)⟩

end DirectionCentral.Decimal

namespace DirectionCentral.Numeral

/-- The shortest numeral that reads back as the number; none if the number is not finite. -/
def ofFloat? (value : Float) : Option Numeral :=
  let bits := value.toBits.toNat
  let negative := 0x8000000000000000 ≤ bits
  let magnitude := bits % 0x8000000000000000
  if 0x7FF0000000000000 ≤ magnitude then none
  else if magnitude = 0 then some ⟨negative, ['0'], ['0'], none⟩
  else
    let (count, power) := (Decimal.RoundingInterval.ofMagnitude magnitude).shortest
    some (Decimal.layout negative count power)

end DirectionCentral.Numeral

/-!
# The real-time clock

The clock ticks thirty-two times a second of simulated time. Time that does not make a whole tick is
carried on as a fraction of a tick. The clock has no part in the performance of instructions.
-/

namespace DirectionCentral

/-- Whole ticks, and the fraction of a tick carried on. -/
structure Clock where
  /-- Whole ticks since the last reset; the greatest count stays. -/
  ticks : UInt64 := 0
  /-- The fraction of a tick that has passed since the last one. -/
  residue : Float := 0.0

namespace Clock

/-- Ticks in a second. -/
def rate : Float := 32.0

/-- The sum of two counts, or the greatest count if the sum is greater. -/
def addSaturating (a b : UInt64) : UInt64 :=
  if a.toNat + b.toNat < UInt64.size then a + b else 0xFFFFFFFFFFFFFFFF

/-- From this number on, `2 ^ 52`, every number is whole. -/
def leastWhole : Float := 4503599627370496.0

/-- The greatest whole number that is not above a number. The conversion to an integer cuts the
fraction off; of a negative number that is not whole this leaves the whole number above. What is
infinite or not a number stays as it is. -/
def floor (x : Float) : Float :=
  if x.abs < leastWhole then
    let cut := x.abs.toUInt64.toFloat
    if x < 0.0 then if cut == x.abs then x else -(cut + 1.0)
    else if x == 0.0 then x
    else cut
  else x

/-- Let seconds pass. A time that is not finite or not positive is ignored. -/
def advance (c : Clock) (seconds : Float) : Clock :=
  if seconds.isFinite && 0.0 < seconds then
    let elapsed := c.residue + seconds * rate
    let whole := floor elapsed
    { ticks := addSaturating c.ticks whole.toUInt64, residue := elapsed - whole }
  else c

end Clock

end DirectionCentral

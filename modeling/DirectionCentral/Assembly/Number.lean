import DirectionCentral.Text.Digits

/-!
# Numbers in assembly text

A number is written in decimal digits, or in hexadecimal digits after `0x`, with an optional sign in
front. Hexadecimal digits may have a sign of their own after the `0x`. The digits must denote a
signed integer of 64 bits, and what is computed from such integers wraps around (`wrap64`).
-/

namespace DirectionCentral.Assembly

/-- The signed integer of 64 bits that a value is modulo 2 ^ 64. -/
def wrap64 (value : Int) : Int := value.bmod 0x10000000000000000

/-- A signed integer of 64 bits is kept. -/
theorem wrap64_eq_self {value : Int}
    (fits : -0x8000000000000000 ≤ value ∧ value ≤ 0x7FFFFFFFFFFFFFFF) : wrap64 value = value :=
  Int.bmod_eq_of_le (by omega) (by omega)

/-- A value of 64 bits that is too large for a signed integer wraps around to a negative one. -/
theorem wrap64_of_large {value : Int}
    (large : 0x7FFFFFFFFFFFFFFF < value ∧ value < 0x10000000000000000) :
    wrap64 value = value - 0x10000000000000000 := by
  rw [wrap64, Int.bmod_def]
  omega

/-- A value wraps around to a signed integer of 64 bits. -/
theorem wrap64_bounds (value : Int) :
    -0x8000000000000000 ≤ wrap64 value ∧ wrap64 value ≤ 0x7FFFFFFFFFFFFFFF := by
  rw [wrap64, Int.bmod_def]
  omega

/-- The value itself if a signed integer of 64 bits can hold it. -/
def within64? (value : Int) : Option Int :=
  if -0x8000000000000000 ≤ value ∧ value ≤ 0x7FFFFFFFFFFFFFFF then some value else none

/-- The value of hexadecimal digits, which may have a sign in front. -/
def hexNumber? (text : List Char) : Option Int :=
  let value : Option Int :=
    match text with
    | '-' :: digits => (Text.hexadecimal? digits).map fun n => -(n : Int)
    | '+' :: digits => (Text.hexadecimal? digits).map Int.ofNat
    | digits => (Text.hexadecimal? digits).map Int.ofNat
  value.bind within64?

/-- The value of a number without a sign in front. -/
def unsignedNumber? (text : List Char) : Option Int :=
  match text with
  | '0' :: 'x' :: digits => hexNumber? digits
  | '0' :: 'X' :: digits => hexNumber? digits
  | digits => ((Text.decimal? digits).map Int.ofNat).bind within64?

/-- The value of a number. The least signed integer of 64 bits is its own negative. -/
def number? (text : List Char) : Option Int :=
  match text with
  | '-' :: rest => (unsignedNumber? rest).map fun value => wrap64 (-value)
  | '+' :: rest => unsignedNumber? rest
  | _ => unsignedNumber? text

end DirectionCentral.Assembly

import DirectionCentral.Text.Digits

/-!
# Numerals

A JSON number as it is written: sign, digits before and after the point, exponent. Which value it
stands for is decided by the place that reads it, since an integer place takes a numeral without
point and exponent only.
-/

namespace DirectionCentral

/-- A JSON number as it is written. -/
structure Numeral where
  /-- Whether a minus sign stands in front. -/
  negative : Bool
  /-- The decimal digits before the point: at least one, and no zero before others. -/
  whole : List Char
  /-- The decimal digits after the point; empty if there is no point. -/
  fraction : List Char
  /-- The exponent, if one is written. -/
  exponent : Option Int
deriving DecidableEq

namespace Numeral

/-- The numeral of an integer. -/
def ofInt (value : Int) : Numeral where
  negative := decide (value < 0)
  whole := Text.decimal value.natAbs
  fraction := []
  exponent := none

/-- The numeral as written. An exponent follows the letter `e` and has a sign in any case. -/
def render (numeral : Numeral) : List Char :=
  (if numeral.negative then ['-'] else []) ++ numeral.whole ++
    (if numeral.fraction.isEmpty then [] else '.' :: numeral.fraction) ++
    match numeral.exponent with
    | none => []
    | some e => 'e' :: (if e < 0 then '-' else '+') :: Text.decimal e.natAbs

/-- Whether the digits are those of a whole part: at least one, and no zero before others. -/
def isWhole (digits : List Char) : Bool :=
  match digits with
  | [] => false
  | ['0'] => true
  | c :: _ => c != '0'

/-- The exponent after the letter `e`: an optional sign and at least one digit, to the end. -/
def exponent? (text : List Char) : Option Int :=
  match text with
  | '-' :: digits => (Text.decimal? digits).map fun n => -(n : Int)
  | '+' :: digits => (Text.decimal? digits).map Int.ofNat
  | digits => (Text.decimal? digits).map Int.ofNat

/-- The numeral with the given sign, whole part and fraction that ends in `tail`: nothing, or the
letter `e` and an exponent. -/
def finish? (negative : Bool) (whole fraction tail : List Char) : Option Numeral :=
  match tail with
  | [] => some ⟨negative, whole, fraction, none⟩
  | c :: rest =>
    if c = 'e' ∨ c = 'E' then (exponent? rest).map fun e => ⟨negative, whole, fraction, some e⟩
    else none

/-- The numeral that an unsigned text writes, under the given sign. -/
def unsigned? (negative : Bool) (text : List Char) : Option Numeral :=
  let whole := text.takeWhile Char.isDigit
  if isWhole whole then
    match text.dropWhile Char.isDigit with
    | '.' :: rest =>
      let fraction := rest.takeWhile Char.isDigit
      if fraction.isEmpty then none
      else finish? negative whole fraction (rest.dropWhile Char.isDigit)
    | tail => finish? negative whole [] tail
  else none

/-- The numeral that a text writes, if it is one to its end. -/
def ofChars? (text : List Char) : Option Numeral :=
  match text with
  | '-' :: rest => unsigned? true rest
  | _ => unsigned? false text

/-- The digits before the point as a number. -/
def magnitude (numeral : Numeral) : Nat := Nat.ofDigitChars 10 numeral.whole 0

/-- The integer that a numeral without point and exponent stands for. Minus zero is not an
integer. -/
def integer? (numeral : Numeral) : Option Int :=
  if numeral.fraction.isEmpty && numeral.exponent.isNone then
    if numeral.negative then
      if numeral.magnitude = 0 then none else some (-(numeral.magnitude : Int))
    else some numeral.magnitude
  else none

/-- The numeral of an integer stands for that integer. -/
theorem integer?_ofInt (value : Int) : (ofInt value).integer? = some value := by
  have digits : (ofInt value).magnitude = value.natAbs := by
    rw [magnitude, ofInt, Text.decimal, Nat.ofDigitChars_ten_toDigits]
  have plain : ((ofInt value).fraction.isEmpty && (ofInt value).exponent.isNone) = true := rfl
  have sign : (ofInt value).negative = decide (value < 0) := rfl
  rw [integer?, plain, sign, digits, if_pos rfl]
  by_cases h : value < 0
  · have nonzero : value.natAbs ≠ 0 := by omega
    have exact : -(value.natAbs : Int) = value := by omega
    rw [if_pos (decide_eq_true h), if_neg nonzero, exact]
  · have exact : (value.natAbs : Int) = value := by omega
    rw [if_neg (by simpa using h), exact]

end Numeral

end DirectionCentral

/-!
# Digits and columns

Numbers are written in decimal, or in upper-case hexadecimal of a least width; a text is filled up
to a column with spaces. Nothing here cuts: a text longer than its column is left whole.
-/

namespace DirectionCentral.Text

/-- Fill characters before a text that is shorter than `width`. -/
def padStart (width : Nat) (fill : Char) (text : List Char) : List Char :=
  List.replicate (width - text.length) fill ++ text

/-- Spaces after a text that is shorter than `width`. -/
def padEnd (width : Nat) (text : List Char) : List Char :=
  text ++ List.replicate (width - text.length) ' '

/-- The decimal digits of a number. -/
def decimal (n : Nat) : List Char := Nat.toDigits 10 n

/-- The decimal digits of an integer after its minus sign, if it has one. -/
def signedDecimal : Int → List Char
  | .ofNat n => decimal n
  | .negSucc n => '-' :: decimal (n + 1)

/-- At least `width` decimal digits, with zeros in front. -/
def zeroPadded (width n : Nat) : List Char := padStart width '0' (decimal n)

/-- At least `width` hexadecimal digits in upper case, with zeros in front. -/
def hexadecimal (width n : Nat) : List Char :=
  padStart width '0' ((Nat.toDigits 16 n).map Char.toUpper)

/-- The value of a hexadecimal digit of either case. -/
def hexDigit? (c : Char) : Option Nat :=
  if c.isDigit then some (c.toNat - '0'.toNat)
  else if 'a' ≤ c ∧ c ≤ 'f' then some (c.toNat - 'a'.toNat + 10)
  else if 'A' ≤ c ∧ c ≤ 'F' then some (c.toNat - 'A'.toNat + 10)
  else none

/-- The number that hexadecimal digits denote; refuses the empty text and any other character. -/
def hexadecimal? : List Char → Option Nat
  | [] => none
  | c :: cs => (c :: cs).foldlM (fun value d => (hexDigit? d).map (16 * value + ·)) 0

/-- The number that decimal digits denote; refuses the empty text and any other character. -/
def decimal? (text : List Char) : Option Nat :=
  if text.isEmpty || !text.all Char.isDigit then none else some (Nat.ofDigitChars 10 text 0)

end DirectionCentral.Text

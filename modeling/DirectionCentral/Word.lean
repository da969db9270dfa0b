/-!
# Words and the arithmetic of the accumulator

A memory cell holds a word of 32 bits; the accumulator holds the same bits as a signed number in
two's complement. Sums, differences, products and quotients keep the low 32 bits of the exact result.
A zero divisor gives the greatest number instead of a fault.
-/

namespace DirectionCentral

/-- A memory cell: 32 bits. -/
abbrev Word := UInt32

namespace Accumulator

/-- The signed number that a word holds: its top bit is the sign. -/
def ofWord (word : Word) : Int32 := word.toInt32

/-- The word that stores a signed number. -/
def toWord (value : Int32) : Word := value.toUInt32

/-- The low 32 bits of a 64-bit integer as a signed number. -/
def wrap (value : Int64) : Int32 := value.toInt32

/-- The quotient by zero: the greatest signed number of 32 bits. -/
def saturated : Int32 := 0x7FFFFFFF

/-- The low 32 bits of the sum. -/
def add (a b : Int32) : Int32 := a + b

/-- The low 32 bits of the difference. -/
def subtract (a b : Int32) : Int32 := a - b

/-- The low 32 bits of the product. -/
def multiply (a b : Int32) : Int32 := a * b

/-- The quotient, truncated toward zero; `saturated` if the divisor is zero. The one quotient that
needs 33 bits, of the least number by minus one, wraps to the least number. -/
def divide (a b : Int32) : Int32 := if b = 0 then saturated else a / b

/-- The sum is congruent to the exact sum. -/
theorem toInt_add (a b : Int32) : (add a b).toInt = (a.toInt + b.toInt).bmod UInt32.size :=
  Int32.toInt_add a b

/-- The difference is congruent to the exact difference. -/
theorem toInt_subtract (a b : Int32) :
    (subtract a b).toInt = (a.toInt - b.toInt).bmod UInt32.size :=
  Int32.toInt_sub a b

/-- The product is congruent to the exact product. -/
theorem toInt_multiply (a b : Int32) :
    (multiply a b).toInt = (a.toInt * b.toInt).bmod UInt32.size :=
  Int32.toInt_mul a b

/-- A quotient by another number than zero is congruent to the exact quotient toward zero. -/
theorem toInt_divide {a b : Int32} (h : b ≠ 0) :
    (divide a b).toInt = (a.toInt.tdiv b.toInt).bmod UInt32.size := by
  rw [divide, if_neg h, Int32.toInt_div]

end Accumulator

end DirectionCentral

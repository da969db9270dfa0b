import DirectionCentral.Assembly.Statement
import DirectionCentral.Proofs.Assembly.Numeral

/-!
# The digits of a number

The digits that numbers are written in, in decimal or in hexadecimal and with zeros in front, are
digits of the grammar and denote the numbers (`digitsForm_zeroPadded`, `digitsForm_hexadecimal`).
So a number that is written in decimal is read back wherever assembly text has one: by itself, as an
operand, or as one of the two numbers of `TXI`.
-/

namespace DirectionCentral.Assembly

open Text

variable {base n d : Nat} {c : Char} {text : List Char}

/-- The digits of a number in a base denote it. -/
theorem digitsForm_toDigits (large : 1 < base) (n : Nat) :
    DigitsForm base (Nat.toDigits base n) n := by
  induction n using Nat.strongRecOn with
  | ind n ih =>
    by_cases single : n < base
    · rw [Nat.toDigits_of_lt_base single]
      exact .single ⟨single, .inl rfl⟩
    · have shorter : n / base < n := Nat.div_lt_self (by omega) large
      have last : IsDigit base (Nat.digitChar (n % base)) (n % base) :=
        ⟨Nat.mod_lt _ (by omega), .inl rfl⟩
      have whole := (ih _ shorter).more last
      rwa [Nat.div_add_mod, ← Nat.toDigits_of_base_le large (by omega)] at whole

/-- A digit denotes the same number in upper case. -/
theorem IsDigit.toUpper (digit : IsDigit base c d) (bound : base ≤ 16) :
    IsDigit base c.toUpper d ∧ c.toUpper.isLower = false := by
  have all : ∀ d < 16, (Nat.digitChar d).toUpper.toUpper = (Nat.digitChar d).toUpper ∧
      (Nat.digitChar d).toUpper.isLower = false := by decide
  obtain ⟨same, upper⟩ := all d (Nat.lt_of_lt_of_le digit.small bound)
  have large : c.toUpper = (Nat.digitChar d).toUpper := by
    obtain rfl | rfl := digit.digit
    · rfl
    · exact same
  rw [large]
  exact ⟨⟨digit.small, .inr rfl⟩, upper⟩

/-- Digits denote the same number in upper case. -/
theorem DigitsForm.map_toUpper (form : DigitsForm base text n) (bound : base ≤ 16) :
    DigitsForm base (text.map Char.toUpper) n ∧ ∀ c ∈ text, c.toUpper.isLower = false := by
  induction form with
  | single digit =>
    obtain ⟨large, upper⟩ := digit.toUpper bound
    exact ⟨.single large, List.forall_mem_singleton.2 upper⟩
  | more digits digit ih =>
    obtain ⟨large, upper⟩ := digit.toUpper bound
    rw [List.map_append]
    exact ⟨ih.1.more large, List.forall_mem_append.2 ⟨ih.2, List.forall_mem_singleton.2 upper⟩⟩

/-- A zero in front of digits does not change what they denote. -/
theorem DigitsForm.zero (form : DigitsForm base text n) (positive : 0 < base) :
    DigitsForm base ('0' :: text) n := by
  have zero : IsDigit base '0' 0 := ⟨positive, .inl rfl⟩
  induction form with
  | single digit =>
    have both := (DigitsForm.single zero).more digit
    rwa [Nat.mul_zero, Nat.zero_add] at both
  | more digits digit ih => exact ih.more digit

/-- Zeros in front of digits do not change what they denote. -/
theorem DigitsForm.padStart (form : DigitsForm base text n) (positive : 0 < base) (width : Nat) :
    DigitsForm base (padStart width '0' text) n := by
  rw [Text.padStart]
  induction width - text.length with
  | zero => exact form
  | succ count ih => exact ih.zero positive

/-- A number is denoted by its decimal digits with zeros in front. -/
theorem digitsForm_zeroPadded (width n : Nat) : DigitsForm 10 (zeroPadded width n) n :=
  (digitsForm_toDigits (by decide) n).padStart (by decide) width

/-- A number is denoted by its hexadecimal digits with zeros in front. -/
theorem digitsForm_hexadecimal (width n : Nat) : DigitsForm 16 (hexadecimal width n) n :=
  ((digitsForm_toDigits (by decide) n).map_toUpper (by decide)).1.padStart (by decide) width

/-- Hexadecimal digits are written in upper case. -/
theorem isLower_of_mem_hexadecimal {width : Nat} (member : c ∈ hexadecimal width n) :
    c.isLower = false := by
  obtain zero | digit := List.mem_append.1 member
  · rw [List.eq_of_mem_replicate zero]
    rfl
  · obtain ⟨letter, inside, rfl⟩ := List.mem_map.1 digit
    exact ((digitsForm_toDigits (by decide) n).map_toUpper (by decide)).2 letter inside

/-! ## Numbers in decimal -/

/-- A character that is no digit is not in a numeral. -/
theorem not_mem_decimal {n : Nat} {c : Char} (other : c.isDigit = false) : c ∉ decimal n := by
  intro member
  rw [isDigit_of_mem_decimal member] at other
  contradiction

/-- A number is read from its decimal digits. -/
theorem number?_decimal (fits : n ≤ 0x7FFFFFFFFFFFFFFF) : number? (decimal n) = some (n : Int) := by
  have digits : DigitsForm 10 (decimal n) n := digitsForm_toDigits (by decide) n
  exact (NumeralForm.unsigned (.decimal digits)).number? (by omega)

/-- A numeral is an operand. -/
theorem readOperand_decimal {n : Nat} (fits : n ≤ 0x7FFFFFFFFFFFFFFF) :
    readOperand (decimal n) = .ok (.number n) := by
  simp only [readOperand, trim_decimal, number?_decimal fits]

/-- A numeral of at most 255 is one of the two numbers of `TXI`. -/
theorem readCount_decimal {n : Nat} (byte : n ≤ 255) : readCount (decimal n) = .ok n := by
  rw [readCount, readOperand_decimal (by omega)]
  simp only [Except.bind]
  rw [if_pos (by omega), Int.toNat_natCast]

end DirectionCentral.Assembly

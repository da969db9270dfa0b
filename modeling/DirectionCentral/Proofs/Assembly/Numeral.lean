import Mathlib.Algebra.Group.Int.Defs
import Mathlib.Algebra.Group.Nat.Defs
import DirectionCentral.Assembly.Number
import DirectionCentral.Proofs.Text.Digits

/-!
# Numerals

How numbers are written: digits of a base, a mark in front of hexadecimal ones, and an optional sign
in front of all (`NumeralForm`). A numeral is read as its number if that has at most 63 bits
(`NumeralForm.number?`).
-/

namespace DirectionCentral.Assembly

open Text

/-! ## The grammar -/

/-- A character is the digit of a base for a number. -/
structure IsDigit (base : Nat) (c : Char) (d : Nat) : Prop where
  /-- The number is less than the base. -/
  small : d < base
  /-- The digit is of either case. -/
  digit : c = Nat.digitChar d ∨ c = (Nat.digitChar d).toUpper

/-- At least one digit, with the number that the digits denote. -/
inductive DigitsForm (base : Nat) : List Char → Nat → Prop
  | single {c : Char} {d : Nat} (digit : IsDigit base c d) : DigitsForm base [c] d
  | more {front : List Char} {n : Nat} {c : Char} {d : Nat} (digits : DigitsForm base front n)
      (digit : IsDigit base c d) : DigitsForm base (front ++ [c]) (base * n + d)

/-- Decimal digits, or hexadecimal digits after `0x`. -/
inductive UnsignedForm : List Char → Nat → Prop
  | decimal {text : List Char} {n : Nat} (digits : DigitsForm 10 text n) : UnsignedForm text n
  | hexadecimal {text : List Char} {n : Nat} {x : Char} (letter : x = 'x' ∨ x = 'X')
      (digits : DigitsForm 16 text n) : UnsignedForm ('0' :: x :: text) n

/-- A number with an optional sign. -/
inductive NumeralForm : List Char → Int → Prop
  | unsigned {text : List Char} {n : Nat} (digits : UnsignedForm text n) : NumeralForm text n
  | plus {text : List Char} {n : Nat} (digits : UnsignedForm text n) : NumeralForm ('+' :: text) n
  | minus {text : List Char} {n : Nat} (digits : UnsignedForm text n) :
      NumeralForm ('-' :: text) (-n)

variable {text : List Char} {n : Nat} {value : Int}

/-! ## Signs -/

/-- A text does not begin with a sign. -/
structure Unsigned (text : List Char) : Prop where
  /-- Not with a minus sign. -/
  minus : ∀ rest, text ≠ '-' :: rest
  /-- Not with a plus sign. -/
  plus : ∀ rest, text ≠ '+' :: rest

/-- A text begins with one of the two signs or with none. -/
theorem sign_cases (text : List Char) :
    (∃ rest, text = '-' :: rest) ∨ (∃ rest, text = '+' :: rest) ∨ Unsigned text := by
  by_cases minus : ∃ rest, text = '-' :: rest
  · exact .inl minus
  · by_cases plus : ∃ rest, text = '+' :: rest
    · exact .inr (.inl plus)
    · exact .inr (.inr ⟨not_exists.1 minus, not_exists.1 plus⟩)

/-- Letters and digits do not begin with a sign. -/
theorem Unsigned.of_isAlphanum (plain : ∀ c ∈ text, c.isAlphanum = true) : Unsigned text where
  minus rest begins := absurd (plain '-' (by simp [begins])) (by decide)
  plus rest begins := absurd (plain '+' (by simp [begins])) (by decide)

/-- Without a sign there are hexadecimal digits alone. -/
theorem Unsigned.hexNumber? (unsigned : Unsigned text) :
    Assembly.hexNumber? text = ((hexadecimal? text).map Int.ofNat).bind within64? := by
  unfold Assembly.hexNumber?
  dsimp only
  split
  · exact absurd rfl (unsigned.minus _)
  · exact absurd rfl (unsigned.plus _)
  · rfl

/-- Without a sign there is the number alone. -/
theorem Unsigned.number? (unsigned : Unsigned text) :
    Assembly.number? text = unsignedNumber? text := by
  rw [Assembly.number?]
  · exact unsigned.minus
  · exact unsigned.plus

/-- A text without the mark of hexadecimal digits is read as decimal digits. -/
theorem unsignedNumber?_of_decimal
    (other : ∀ x digits, text = '0' :: x :: digits → (x == 'x' || x == 'X') = false) :
    unsignedNumber? text = ((decimal? text).map Int.ofNat).bind within64? := by
  rw [unsignedNumber?]
  · exact fun digits same => Bool.noConfusion (other _ _ same)
  · exact fun digits same => Bool.noConfusion (other _ _ same)

/-! ## Reading -/

/-- A digit of either case is read as its number. -/
theorem IsDigit.hexDigit? {base : Nat} {c : Char} {d : Nat} (digit : IsDigit base c d)
    (bound : base ≤ 16) : Text.hexDigit? c = some d ∧ c.isAlphanum = true := by
  have all : ∀ d < 16, Text.hexDigit? (Nat.digitChar d) = some d ∧
      Text.hexDigit? (Nat.digitChar d).toUpper = some d ∧ (Nat.digitChar d).isAlphanum = true ∧
      (Nat.digitChar d).toUpper.isAlphanum = true := by decide
  have holds := all d (by have := digit.small; omega)
  obtain rfl | rfl := digit.digit
  · exact ⟨holds.1, holds.2.2.1⟩
  · exact ⟨holds.2.1, holds.2.2.2⟩

/-- A decimal digit stands for its distance from zero. -/
theorem IsDigit.decimal {c : Char} {d : Nat} (digit : IsDigit 10 c d) :
    c.isDigit = true ∧ c.toNat - '0'.toNat = d := by
  have all : ∀ d < 10, (Nat.digitChar d).isDigit = true ∧ (Nat.digitChar d).toNat - '0'.toNat = d ∧
      (Nat.digitChar d).toUpper = Nat.digitChar d := by decide
  have holds := all d digit.small
  obtain rfl | rfl := digit.digit
  · exact ⟨holds.1, holds.2.1⟩
  · rw [holds.2.2]
    exact ⟨holds.1, holds.2.1⟩

/-- There is at least one digit, and digits are letters and digits. -/
theorem DigitsForm.isAlphanum {base : Nat} (form : DigitsForm base text n) (bound : base ≤ 16) :
    text ≠ [] ∧ ∀ c ∈ text, c.isAlphanum = true := by
  induction form with
  | single digit => simpa using (digit.hexDigit? bound).2
  | more digits digit ih =>
    refine ⟨by simp, fun c member => ?_⟩
    obtain member | member := List.mem_append.1 member
    · exact ih.2 c member
    · rw [List.mem_singleton.1 member]
      exact (digit.hexDigit? bound).2

/-- Decimal digits are read as their number. -/
theorem DigitsForm.decimal? (form : DigitsForm 10 text n) :
    (∀ c ∈ text, c.isDigit = true) ∧ Text.decimal? text = some n := by
  have each : (∀ c ∈ text, c.isDigit = true) ∧ Nat.ofDigitChars 10 text 0 = n := by
    induction form with
    | single digit => simpa [Nat.ofDigitChars] using digit.decimal
    | more digits digit ih =>
      obtain ⟨isDigit, distance⟩ := digit.decimal
      rw [Nat.ofDigitChars_append, ih.2, List.forall_mem_append]
      refine ⟨⟨ih.1, by simpa using isDigit⟩, ?_⟩
      rw [← distance]
      rfl
  have nonempty := (form.isAlphanum (by decide)).1
  refine ⟨each.1, ?_⟩
  rw [Text.decimal?, List.all_eq_true.2 each.1, List.isEmpty_eq_false_iff.2 nonempty, each.2]
  rfl

/-- Hexadecimal digits are read as their number. -/
theorem DigitsForm.hexadecimal? (form : DigitsForm 16 text n) :
    Text.hexadecimal? text = some n := by
  have each : text.foldlM (fun value d => (Text.hexDigit? d).map (16 * value + ·)) 0 = some n := by
    induction form with
    | single digit => simp [(digit.hexDigit? (Nat.le_refl _)).1]
    | more digits digit ih => simp [ih, (digit.hexDigit? (Nat.le_refl _)).1]
  have nonempty := (form.isAlphanum (Nat.le_refl _)).1
  cases text with
  | nil => contradiction
  | cons c rest => exact each

/-- A value is kept just if it is a signed integer of 64 bits. -/
theorem within64?_eq_some_iff {kept : Int} :
    within64? value = some kept ↔ (-2 ^ 63 ≤ value ∧ value < 2 ^ 63) ∧ value = kept := by
  rw [within64?, Option.ite_none_right_eq_some, Option.some.injEq]
  omega

/-- What is written without a sign consists of letters and digits. -/
theorem UnsignedForm.isAlphanum (form : UnsignedForm text n) :
    text ≠ [] ∧ ∀ c ∈ text, c.isAlphanum = true := by
  cases form with
  | decimal digits => exact digits.isAlphanum (by decide)
  | hexadecimal letter digits =>
    have plain := (digits.isAlphanum (Nat.le_refl _)).2
    refine ⟨by simp, ?_⟩
    obtain rfl | rfl := letter
    · simpa using plain
    · simpa using plain

/-- What is written without a sign is read as its number. -/
theorem UnsignedForm.unsignedNumber? (form : UnsignedForm text n) (fits : n < 2 ^ 63) :
    Assembly.unsignedNumber? text = some (n : Int) := by
  have inside : within64? (n : Int) = some (n : Int) :=
    within64?_eq_some_iff.2 ⟨by omega, rfl⟩
  cases form with
  | decimal form =>
    obtain ⟨isDigit, read⟩ := form.decimal?
    rw [Assembly.unsignedNumber?, read]
    · exact inside
    · rintro rest rfl
      have letter := isDigit 'x' (by simp)
      contradiction
    · rintro rest rfl
      have letter := isDigit 'X' (by simp)
      contradiction
  | @hexadecimal digits _ x letter form =>
    have plain := (form.isAlphanum (Nat.le_refl _)).2
    have unsigned : hexNumber? digits = some (n : Int) := by
      rw [(Unsigned.of_isAlphanum plain).hexNumber?, form.hexadecimal?]
      exact inside
    obtain rfl | rfl := letter
    · exact unsigned
    · exact unsigned

/-- A numeral is read as its number. -/
theorem NumeralForm.number? (form : NumeralForm text value) (fits : value.natAbs < 2 ^ 63) :
    Assembly.number? text = some value := by
  cases form with
  | unsigned form =>
    rw [(Unsigned.of_isAlphanum form.isAlphanum.2).number?]
    exact form.unsignedNumber? (by omega)
  | plus form => exact form.unsignedNumber? (by omega)
  | minus form =>
    rw [Assembly.number?, form.unsignedNumber? (by omega)]
    exact congrArg some (wrap64_eq_self (by omega))

end DirectionCentral.Assembly

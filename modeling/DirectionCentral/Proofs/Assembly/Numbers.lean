import DirectionCentral.Assembly.Draft
import DirectionCentral.Proofs.Assembly.Numeral

/-!
# Texts that are numbers

Digits are read just if the grammar has them (`decimal?_eq_some_iff`, `hexadecimal?_eq_some_iff`),
and a numeral is read as its number if that has at most 63 bits. One kind of text beside the
numerals is read too: hexadecimal digits with a sign of their own after the mark (`InnerSigned`),
whether or not another sign stands before it. These two kinds are the texts that say a number
(`NumberText`), and no other text is read as one (`number?_eq_some_iff`).
-/

namespace DirectionCentral.Assembly

open Text

variable {n d : Nat} {c : Char} {text : List Char} {value : Int}

/-! ## The notation of numbers -/

/-- Hexadecimal digits with a sign in front, for a signed integer of 64 bits. -/
inductive SignedDigits : List Char → Int → Prop
  | plus {digits : List Char} {n : Nat} (form : DigitsForm 16 digits n) (fits : n < 2 ^ 63) :
      SignedDigits ('+' :: digits) n
  | minus {digits : List Char} {n : Nat} (form : DigitsForm 16 digits n) (fits : n ≤ 2 ^ 63) :
      SignedDigits ('-' :: digits) (-n)

/-- A sign between the mark of hexadecimal digits and the digits, where no numeral has one. -/
inductive InnerSigned : List Char → Int → Prop
  | marked {text : List Char} {value : Int} {x : Char} (letter : x = 'x' ∨ x = 'X')
      (digits : SignedDigits text value) : InnerSigned ('0' :: x :: text) value

/-- A sign between the mark and the digits, and another one in front or none. A minus sign in front
leaves the least signed integer of 64 bits as it is, which wraps around to itself. -/
inductive MisplacedSign : List Char → Int → Prop
  | unsigned {text : List Char} {value : Int} (inner : InnerSigned text value) :
      MisplacedSign text value
  | plus {text : List Char} {value : Int} (inner : InnerSigned text value) :
      MisplacedSign ('+' :: text) value
  | minus {text : List Char} {value : Int} (inner : InnerSigned text value) :
      MisplacedSign ('-' :: text) (wrap64 (-value))

/-- A text says a number: it is a numeral whose number has at most 63 bits, or it has a misplaced
sign. -/
def NumberText (text : List Char) (value : Int) : Prop :=
  NumeralForm text value ∧ value.natAbs ≤ 2 ^ 63 - 1 ∨ MisplacedSign text value

/-! ## Digits -/

/-- What is read as a hexadecimal digit is one, of either case. -/
theorem isDigit_of_hexDigit? (read : hexDigit? c = some d) : IsDigit 16 c d := by
  have ascii : c.toNat < 128 := by
    rw [hexDigit?] at read
    split at read
    · rename_i digit
      exact ascii_of_isAlphanum (Bool.or_eq_true_iff.2 (.inr digit))
    · split at read
      · rename_i lower
        have bound : c.toNat ≤ 102 := UInt32.le_iff_toNat_le.1 lower.2
        omega
      · split at read
        · rename_i upper
          have bound : c.toNat ≤ 70 := UInt32.le_iff_toNat_le.1 upper.2
          omega
        · contradiction
  have all : ∀ d ∈ hexDigit? c, d < 16 ∧ (c = Nat.digitChar d ∨ c = (Nat.digitChar d).toUpper) :=
    forall_ascii (P := fun c => ∀ d ∈ hexDigit? c, d < 16 ∧
      (c = Nat.digitChar d ∨ c = (Nat.digitChar d).toUpper)) (by decide +kernel) ascii
  exact ⟨(all d read).1, (all d read).2⟩

/-- A decimal digit is one for its distance from zero. -/
theorem isDigit_of_isDigit (digit : c.isDigit = true) : IsDigit 10 c (c.toNat - '0'.toNat) := by
  have ascii := ascii_of_isAlphanum (Bool.or_eq_true_iff.2 (.inr digit))
  obtain ⟨small, same⟩ := forall_ascii (P := fun c => c.isDigit = true →
    c.toNat - '0'.toNat < 10 ∧ c = Nat.digitChar (c.toNat - '0'.toNat)) (by decide +kernel)
    ascii digit
  exact ⟨small, .inl same⟩

/-- Hexadecimal digits are read just if they denote the number. -/
theorem hexadecimal?_eq_some_iff : hexadecimal? text = some n ↔ DigitsForm 16 text n := by
  -- Reading goes on from a value digit by digit, and the grammar adds the last digit.
  have form : ∀ {n}, text ≠ [] →
      text.foldlM (fun value c => (hexDigit? c).map (16 * value + ·)) 0 = some n →
      DigitsForm 16 text n := by
    induction text using List.reverseRecOn with
    | nil => exact fun nonempty => absurd rfl nonempty
    | append_singleton front c ih =>
      intro n _ read
      rw [List.foldlM_append] at read
      obtain ⟨before, first, last⟩ := Option.bind_eq_some_iff.1 read
      obtain ⟨value, one, same⟩ := Option.bind_eq_some_iff.1 last
      obtain ⟨d, digit, rfl⟩ := Option.map_eq_some_iff.1 one
      obtain rfl := Option.some.inj same
      cases front with
      | nil =>
        obtain rfl := Option.some.inj first
        simpa using DigitsForm.single (isDigit_of_hexDigit? digit)
      | cons => exact .more (ih (List.cons_ne_nil _ _) first) (isDigit_of_hexDigit? digit)
  refine ⟨fun read => ?_, fun digits => digits.hexadecimal?⟩
  cases text with
  | nil => contradiction
  | cons => exact form (List.cons_ne_nil _ _) read

/-- Decimal digits are read just if they denote the number. -/
theorem decimal?_eq_some_iff : decimal? text = some n ↔ DigitsForm 10 text n := by
  have form : text ≠ [] → (∀ c ∈ text, c.isDigit = true) →
      DigitsForm 10 text (Nat.ofDigitChars 10 text 0) := by
    induction text using List.reverseRecOn with
    | nil => exact fun nonempty => absurd rfl nonempty
    | append_singleton front c ih =>
      intro _ digits
      rw [List.forall_mem_append, List.forall_mem_singleton] at digits
      have digit := isDigit_of_isDigit digits.2
      rw [Nat.ofDigitChars_append]
      cases front with
      | nil => simpa [Nat.ofDigitChars] using DigitsForm.single digit
      | cons => exact .more (ih (List.cons_ne_nil _ _) digits.1) digit
  refine ⟨fun read => ?_, fun digits => digits.decimal?.2⟩
  rw [decimal?] at read
  split at read
  · contradiction
  · rename_i numeral
    simp only [Bool.or_eq_true, Bool.not_eq_true', not_or, Bool.not_eq_false,
      List.all_eq_true, List.isEmpty_iff] at numeral
    rw [← Option.some.inj read]
    exact form numeral.1 numeral.2

/-! ## Signs -/

/-- A minus sign behind the mark counts. -/
theorem hexNumber?_minus (digits : List Char) :
    hexNumber? ('-' :: digits) =
      ((hexadecimal? digits).map fun n : Nat => -(n : Int)).bind within64? := by
  -- The cast in the definition is a second step, which the mapping takes together with the first.
  calc
    _ = (((hexadecimal? digits).bind fun n => some (n : Int)).map fun v => -v).bind within64? := rfl
    _ = _ := by cases hexadecimal? digits <;> rfl

/-- A natural number is read from its digits if a signed integer of 64 bits can hold it. -/
theorem natural_eq_some_iff {number? : Option Nat} :
    (number?.map Int.ofNat).bind within64? = some value ↔
      ∃ n : Nat, number? = some n ∧ n < 2 ^ 63 ∧ value = n := by
  rw [Option.bind_eq_some_iff]
  constructor
  · rintro ⟨v, mapped, kept⟩
    obtain ⟨n, found, rfl⟩ := Option.map_eq_some_iff.1 mapped
    obtain ⟨fits, rfl⟩ := within64?_eq_some_iff.1 kept
    exact ⟨n, found, Int.ofNat_lt.1 fits.2, rfl⟩
  · rintro ⟨n, rfl, fits, rfl⟩
    exact ⟨n, rfl, within64?_eq_some_iff.2 ⟨by omega, rfl⟩⟩

/-- Signed digits are read behind the mark. -/
theorem SignedDigits.hexNumber? (signed : SignedDigits text value) :
    Assembly.hexNumber? text = some value := by
  cases signed with
  | plus form fits => exact natural_eq_some_iff.2 ⟨_, form.hexadecimal?, fits, rfl⟩
  | @minus digits n form fits =>
    have inside : -2 ^ 63 ≤ -(n : Int) ∧ -(n : Int) < 2 ^ 63 := by omega
    rw [hexNumber?_minus, form.hexadecimal?]
    exact within64?_eq_some_iff.2 ⟨inside, rfl⟩

/-- What is read behind the mark are digits or signed digits. -/
theorem digits_of_hexNumber? (read : hexNumber? text = some value) :
    (∃ n : Nat, DigitsForm 16 text n ∧ n < 2 ^ 63 ∧ value = n) ∨ SignedDigits text value := by
  obtain ⟨digits, rfl⟩ | ⟨digits, rfl⟩ | unsigned := sign_cases text
  · rw [hexNumber?_minus] at read
    obtain ⟨v, mapped, kept⟩ := Option.bind_eq_some_iff.1 read
    obtain ⟨n, found, rfl⟩ := Option.map_eq_some_iff.1 mapped
    obtain ⟨fits, rfl⟩ := within64?_eq_some_iff.1 kept
    exact .inr (.minus (hexadecimal?_eq_some_iff.1 found) (by omega))
  · obtain ⟨n, found, fits, rfl⟩ := natural_eq_some_iff.1 read
    exact .inr (.plus (hexadecimal?_eq_some_iff.1 found) fits)
  · rw [unsigned.hexNumber?] at read
    obtain ⟨n, found, fits, rfl⟩ := natural_eq_some_iff.1 read
    exact .inl ⟨n, hexadecimal?_eq_some_iff.1 found, fits, rfl⟩

/-- Marked digits with a sign are read. -/
theorem InnerSigned.unsignedNumber? (inner : InnerSigned text value) :
    Assembly.unsignedNumber? text = some value := by
  obtain ⟨rfl | rfl, digits⟩ := inner
  · exact digits.hexNumber?
  · exact digits.hexNumber?

/-- What is read without a sign in front is a numeral or has a sign after the mark. -/
theorem form_of_unsignedNumber? (read : unsignedNumber? text = some value) :
    (∃ n : Nat, UnsignedForm text n ∧ n < 2 ^ 63 ∧ value = n) ∨ InnerSigned text value := by
  by_cases marked : ∃ x digits, text = '0' :: x :: digits ∧ (x = 'x' ∨ x = 'X')
  · obtain ⟨x, digits, rfl, letter⟩ := marked
    have hexadecimal : hexNumber? digits = some value := by
      obtain rfl | rfl := letter
      · exact read
      · exact read
    obtain ⟨n, form, fits, rfl⟩ | signed := digits_of_hexNumber? hexadecimal
    · exact .inl ⟨n, .hexadecimal letter form, fits, rfl⟩
    · exact .inr (.marked letter signed)
  · rw [unsignedNumber?_of_decimal fun x digits same => by
      rw [Bool.eq_false_iff, ne_eq, Bool.or_eq_true, beq_iff_eq, beq_iff_eq]
      exact fun letter => marked ⟨x, digits, same, letter⟩] at read
    obtain ⟨n, found, fits, rfl⟩ := natural_eq_some_iff.1 read
    exact .inl ⟨n, .decimal (decimal?_eq_some_iff.1 found), fits, rfl⟩

/-! ## Numbers -/

/-- Digits with a misplaced sign are read. -/
theorem MisplacedSign.number? (misplaced : MisplacedSign text value) :
    Assembly.number? text = some value := by
  cases misplaced with
  | unsigned inner =>
    have unsigned : Unsigned text := by
      cases inner
      exact ⟨fun _ same => by simp at same, fun _ same => by simp at same⟩
    rw [unsigned.number?, inner.unsignedNumber?]
  | plus inner => exact inner.unsignedNumber?
  | minus inner =>
    rw [Assembly.number?, inner.unsignedNumber?]
    rfl

/-- A text is read as a number just if it says that number. -/
theorem number?_eq_some_iff : number? text = some value ↔ NumberText text value := by
  constructor
  · intro read
    obtain ⟨rest, rfl⟩ | ⟨rest, rfl⟩ | unsigned := sign_cases text
    · obtain ⟨v, inner, rfl⟩ := Option.map_eq_some_iff.1 read
      obtain ⟨n, form, fits, rfl⟩ | inner := form_of_unsignedNumber? inner
      · rw [wrap64_eq_self (by omega)]
        exact .inl ⟨.minus form, by omega⟩
      · exact .inr (.minus inner)
    · obtain ⟨n, form, fits, rfl⟩ | inner := form_of_unsignedNumber? read
      · exact .inl ⟨.plus form, by omega⟩
      · exact .inr (.plus inner)
    · rw [unsigned.number?] at read
      obtain ⟨n, form, fits, rfl⟩ | inner := form_of_unsignedNumber? read
      · exact .inl ⟨.unsigned form, by omega⟩
      · exact .inr (.unsigned inner)
  · rintro (⟨form, fits⟩ | misplaced)
    · exact form.number? (by omega)
    · exact misplaced.number?

/-- A text is not read as a number just if it says none. -/
theorem number?_eq_none_iff : number? text = none ↔ ∀ value, ¬ NumberText text value := by
  rw [Option.eq_none_iff_forall_ne_some]
  exact forall_congr' fun value => not_congr number?_eq_some_iff

/-- A numeral says its number if that has at most 63 bits. -/
theorem NumeralForm.numberText (form : NumeralForm text value) (fits : value.natAbs < 2 ^ 63) :
    NumberText text value :=
  .inl ⟨form, Nat.le_sub_one_of_lt fits⟩

/-- A text says one number. -/
theorem NumberText.unique {other : Int} (one : NumberText text value)
    (also : NumberText text other) : value = other := by
  have read := number?_eq_some_iff.2 one
  rw [number?_eq_some_iff.2 also] at read
  exact (Option.some.inj read).symm

/-- A numeral without a sign has none after the mark either. -/
theorem InnerSigned.not_unsignedForm (inner : InnerSigned text value) : ¬ UnsignedForm text n := by
  intro form
  have plain := form.isAlphanum.2
  obtain ⟨letter, digits⟩ := inner
  cases digits with
  | plus => exact absurd (plain '+' (by simp)) (by decide)
  | minus => exact absurd (plain '-' (by simp)) (by decide)

/-- A numeral has no misplaced sign. -/
theorem MisplacedSign.not_numeralForm {other : Int} (misplaced : MisplacedSign text value) :
    ¬ NumeralForm text other := by
  intro form
  cases misplaced with
  | unsigned inner =>
    cases form with
    | unsigned digits => exact inner.not_unsignedForm digits
    | plus digits => cases inner
    | minus digits => cases inner
  | plus inner =>
    cases form with
    | unsigned digits => exact absurd (digits.isAlphanum.2 '+' List.mem_cons_self) (by decide)
    | plus digits => exact inner.not_unsignedForm digits
  | minus inner =>
    cases form with
    | unsigned digits => exact absurd (digits.isAlphanum.2 '-' List.mem_cons_self) (by decide)
    | minus digits => exact inner.not_unsignedForm digits

/-- Signed digits denote a signed integer of 64 bits. -/
theorem SignedDigits.bounds (signed : SignedDigits text value) :
    -2 ^ 63 ≤ value ∧ value < 2 ^ 63 := by
  cases signed <;> omega

/-- What a text says is a signed integer of 64 bits. -/
theorem NumberText.bounds (said : NumberText text value) :
    -2 ^ 63 ≤ value ∧ value ≤ 2 ^ 63 - 1 := by
  obtain ⟨-, fits⟩ | misplaced := said
  · omega
  · cases misplaced with
    | unsigned inner | plus inner =>
      obtain ⟨-, signed⟩ := inner
      have := signed.bounds
      omega
    | minus => exact wrap64_bounds _

/-- A text is read as a number just if it is a numeral whose number has at most 63 bits, or if it
has a misplaced sign, which no numeral has; any other text is refused. What is read is a signed
integer of 64 bits. -/
theorem read_number_iff (text : List Char) :
    (∀ value, number? text = some value ↔
      NumeralForm text value ∧ value.natAbs ≤ 2 ^ 63 - 1 ∨ MisplacedSign text value) ∧
    (number? text = none ↔ ∀ value,
      ¬ (NumeralForm text value ∧ value.natAbs ≤ 2 ^ 63 - 1) ∧ ¬ MisplacedSign text value) ∧
    (∀ value, number? text = some value → -2 ^ 63 ≤ value ∧ value ≤ 2 ^ 63 - 1) ∧
    ∀ value other, MisplacedSign text value → ¬ NumeralForm text other := by
  refine ⟨fun value => number?_eq_some_iff, ?_, fun value read => ?_,
    fun _ _ misplaced => misplaced.not_numeralForm⟩
  · rw [number?_eq_none_iff]
    exact forall_congr' fun value => not_or
  · exact (number?_eq_some_iff.1 read).bounds

/-- The least number is its own negative. -/
example : number? "-0x-8000000000000000".toList = some (-9223372036854775808) := by decide +kernel

/-- Not everything that is read as a number is a numeral: a sign may stand after the mark of
hexadecimal digits, and then a word is put down. -/
theorem not_numeral_inner_sign :
    number? "0x-5".toList = some (-5) ∧ (∀ value, ¬ NumeralForm "0x-5".toList value) ∧
      assemble "DAT 0x-5" = .ok ⟨[⟨0, [0xFFFFFFFB]⟩]⟩ := by
  have five : DigitsForm 16 ['5'] 5 := .single ⟨by decide, .inl rfl⟩
  have misplaced : MisplacedSign "0x-5".toList (-5) :=
    .unsigned (.marked (.inl rfl) (.minus five (by decide)))
  exact ⟨misplaced.number?, fun _ => misplaced.not_numeralForm, by decide +kernel⟩

end DirectionCentral.Assembly

import DirectionCentral.Json.Token
import DirectionCentral.Proofs.Text.Digits

/-!
# Printed integers

An integer is printed as a word of JSON, of digits after at most one minus sign, and the word is
read back as the numeral of the integer (`word?_render_ofInt`).
-/

namespace DirectionCentral

namespace Numeral

/-- The digits of a number are a whole part. -/
theorem isWhole_decimal (n : Nat) : isWhole (Text.decimal n) = true := by
  cases n with
  | zero => decide
  | succ n =>
    obtain ⟨first, rest, digits, nonzero⟩ := Text.exists_decimal_eq_cons (Nat.succ_pos n)
    rw [digits, isWhole.eq_def]
    split
    · contradiction
    · rfl
    · rename_i same
      obtain ⟨rfl, rfl⟩ := List.cons.inj same
      simpa using nonzero

/-- The digits of a number are read under either sign. -/
theorem unsigned?_decimal (negative : Bool) (n : Nat) :
    unsigned? negative (Text.decimal n) = some ⟨negative, Text.decimal n, [], none⟩ := by
  have digits : ∀ c ∈ Text.decimal n, c.isDigit = true := fun _ => Text.isDigit_of_mem_decimal
  simp only [unsigned?, List.takeWhile_eq_self_iff.2 digits, List.dropWhile_eq_nil_iff.2 digits,
    isWhole_decimal, if_true, finish?]

/-- What is printed of an integer: its digits after its sign. -/
theorem render_ofInt (value : Int) :
    (ofInt value).render =
      if value < 0 then '-' :: Text.decimal value.natAbs else Text.decimal value.natAbs := by
  by_cases negative : value < 0 <;> simp [render, ofInt, negative]

/-- A printed integer has digits and minus signs only. -/
theorem isDigit_of_mem_render {value : Int} {c : Char} (member : c ∈ (ofInt value).render) :
    c.isDigit = true ∨ c = '-' := by
  rw [render_ofInt] at member
  split at member
  · rcases List.mem_cons.1 member with rfl | digit
    · exact .inr rfl
    · exact .inl (Text.isDigit_of_mem_decimal digit)
  · exact .inl (Text.isDigit_of_mem_decimal member)

/-- A printed integer is read as its numeral. -/
theorem ofChars?_render_ofInt (value : Int) :
    ofChars? (ofInt value).render = some (ofInt value) := by
  rw [render_ofInt]
  split
  · rename_i negative
    rw [ofChars?, unsigned?_decimal, ofInt, decide_eq_true negative]
  · rename_i positive
    rw [ofChars?, unsigned?_decimal, ofInt, decide_eq_false positive]
    intro rest signed
    have member : '-' ∈ Text.decimal value.natAbs := by simp [signed]
    exact absurd (Text.isDigit_of_mem_decimal member) (by decide)

end Numeral

namespace Json

/-- The characters of a printed integer may stand in a word. -/
theorem isWordChar_of_mem_render {value : Int} {c : Char}
    (member : c ∈ (Numeral.ofInt value).render) : isWordChar c = true := by
  rcases Numeral.isDigit_of_mem_render member with digit | rfl
  · simp [isWordChar, Char.isAlphanum, digit]
  · decide

/-- A printed integer is a word that writes the integer. -/
theorem word?_render_ofInt (value : Int) :
    word? (Numeral.ofInt value).render = some (ofInt value) := by
  have other (letter : Char) (neither : ¬ (letter.isDigit = true ∨ letter = '-'))
      {text : List Char} (spelled : letter ∈ text) : (Numeral.ofInt value).render ≠ text := by
    rintro rfl
    exact neither (Numeral.isDigit_of_mem_render spelled)
  rw [word?, if_neg (other 'n' (by decide) (by decide)),
    if_neg (other 't' (by decide) (by decide)),
    if_neg (other 'f' (by decide) (by decide)), Numeral.ofChars?_render_ofInt]
  rfl

end Json

end DirectionCentral

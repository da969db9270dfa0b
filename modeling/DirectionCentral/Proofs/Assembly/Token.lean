import Mathlib.Algebra.Group.Nat.Defs
import DirectionCentral.Proofs.Assembly.Grammar
import DirectionCentral.Proofs.Text.Digits

/-!
# Names and numerals

The smallest parts of assembly text. A name is an identifier in capitals and no number. Neither a
name nor a numeral contains a blank, a comma, a colon or a semicolon, and a name contains no sign.
-/

namespace DirectionCentral.Assembly

open Text

/-! ## Characters -/

/-- Whether a character can stand in a name. -/
def isNameChar (c : Char) : Bool := c.isAlphanum || c == '_'

/-- Whether a character can stand in a name or a numeral. -/
def isTokenChar (c : Char) : Bool := isNameChar c || isSign c

/-- The characters of names are ASCII. -/
theorem ascii_of_isNameChar {c : Char} (member : isNameChar c = true) : c.toNat < 128 := by
  rw [isNameChar, Bool.or_eq_true, beq_iff_eq] at member
  obtain alphanumeric | rfl := member
  · exact ascii_of_isAlphanum alphanumeric
  · decide

/-- The characters of names and numerals are ASCII. -/
theorem ascii_of_isTokenChar {c : Char} (member : isTokenChar c = true) : c.toNat < 128 := by
  simp only [isTokenChar, isSign, Bool.or_eq_true, beq_iff_eq] at member
  obtain member | rfl | rfl := member
  · exact ascii_of_isNameChar member
  · decide
  · decide

/-- A character of a name or numeral is not blank and separates nothing. -/
theorem isTokenChar_separates_nothing {c : Char} (member : isTokenChar c = true) :
    isBlank c = false ∧ c ≠ '\n' ∧ c ≠ ';' ∧ c ≠ ':' ∧ c ≠ ',' :=
  forall_ascii (P := fun c => isTokenChar c = true →
    isBlank c = false ∧ c ≠ '\n' ∧ c ≠ ';' ∧ c ≠ ':' ∧ c ≠ ',') (by decide +kernel)
    (ascii_of_isTokenChar member) member

/-- A character of a name is no sign, and its capital is a character of a name. -/
theorem isNameChar_toUpper {c : Char} (member : isNameChar c = true) :
    isSign c = false ∧ isNameChar c.toUpper = true :=
  forall_ascii (P := fun c => isNameChar c = true → isSign c = false ∧ isNameChar c.toUpper = true)
    (by decide +kernel) (ascii_of_isNameChar member) member

/-- A text of ASCII characters has the capitals of its characters. -/
theorem upper_of_ascii {text : List Char} (ascii : ∀ c ∈ text, c.toNat < 128) :
    upper text = text.map Char.toUpper := by
  rw [upper, List.flatMap_congr fun c member => capital_of_ascii (ascii c member)]
  exact List.flatMap_pure_eq_map Char.toUpper text

/-! ## Names -/

variable {first : Char} {rest name text : List Char} {word : String} {n : Nat} {value : Int}

/-- A letter or underscore can stand in a name, and its capital is a letter or underscore. -/
theorem letter_toUpper (letter : first.isAlpha = true ∨ first = '_') :
    isNameChar first = true ∧ (first.toUpper.isAlpha = true ∨ first.toUpper = '_') := by
  have member : isNameChar first = true := by
    obtain letter | rfl := letter
    · simp [isNameChar, Char.isAlphanum, letter]
    · rfl
  refine ⟨member, ?_⟩
  exact forall_ascii (P := fun c => c.isAlpha = true ∨ c = '_' →
    c.toUpper.isAlpha = true ∨ c.toUpper = '_') (by decide +kernel) (ascii_of_isNameChar member)
    letter

/-- A letter or underscore before letters, digits and underscores is a name. -/
theorem isName_of_all {first : Char} {rest : List Char}
    (letter : (first.isAlpha || first == '_') = true)
    (others : rest.all (fun c => c.isAlphanum || c == '_') = true) : IsName (first :: rest) := by
  refine .cons (by simpa using letter) fun c member => ?_
  simpa using List.all_eq_true.1 others c member

/-- A name consists of the characters of names. -/
theorem IsName.isNameChar_of_mem (isName : IsName name) : ∀ c ∈ name, isNameChar c = true := by
  obtain ⟨letter, others⟩ := isName
  intro c member
  obtain rfl | member := List.mem_cons.1 member
  · exact (letter_toUpper letter).1
  · simpa [isNameChar] using others c member

/-- A name in capitals is the label that it stands for. -/
theorem IsName.upper_eq (isName : IsName name) : upper name = name.map Char.toUpper :=
  upper_of_ascii fun c member => ascii_of_isNameChar (isName.isNameChar_of_mem c member)

/-- A name in capitals is an identifier. -/
theorem IsName.isIdentifier_upper (isName : IsName name) : isIdentifier (upper name) = true := by
  rw [isName.upper_eq]
  have members := isName.isNameChar_of_mem
  obtain ⟨letter, others⟩ := isName
  have start := (letter_toUpper letter).2
  rw [List.map_cons, isIdentifier, Bool.and_eq_true, List.all_map, List.all_eq_true]
  refine ⟨by simpa using start, fun c member => ?_⟩
  exact (isNameChar_toUpper (members c (List.mem_cons_of_mem _ member))).2

/-- A text that begins like a name is no number. -/
theorem number?_eq_none (letter : first.isAlpha = true ∨ first = '_') (rest : List Char) :
    number? (first :: rest) = none := by
  have ascii := ascii_of_isNameChar (letter_toUpper letter).1
  obtain ⟨digit, minus, plus, zero⟩ : first.isDigit = false ∧ first ≠ '-' ∧ first ≠ '+' ∧
      first ≠ '0' :=
    forall_ascii (P := fun c => c.isAlpha = true ∨ c = '_' →
      c.isDigit = false ∧ c ≠ '-' ∧ c ≠ '+' ∧ c ≠ '0') (by decide +kernel) ascii letter
  have decimal : decimal? (first :: rest) = none := by simp [decimal?, digit]
  rw [number?, unsignedNumber?, decimal]
  · rfl
  · exact fun _ same => zero (List.cons.inj same).1
  · exact fun _ same => zero (List.cons.inj same).1
  · exact fun _ same => minus (List.cons.inj same).1
  · exact fun _ same => plus (List.cons.inj same).1

/-- A text that spells a word of letters consists of letters, and is the word in capitals. -/
theorem Spells.upper_eq (spells : Spells text word)
    (letters : word.toList.all Char.isAlpha = true) :
    (∀ c ∈ text, isNameChar c = true) ∧ upper text = word.toList := by
  have members : ∀ c ∈ text, isNameChar c = true := by
    intro c member
    have capital : c.toUpper ∈ word.toList := by
      rw [← spells]
      exact List.mem_map_of_mem member
    have letter := List.all_eq_true.1 letters _ capital
    by_cases small : c.val ≥ 'a'.val ∧ c.val ≤ 'z'.val
    · have lower : c.isLower = true :=
        Bool.and_eq_true_iff.2 ⟨decide_eq_true small.1, decide_eq_true small.2⟩
      have letter : c.isAlpha = true := Bool.or_eq_true_iff.2 (.inr lower)
      simp [isNameChar, Char.isAlphanum, letter]
    · have capital : c.toUpper = c := dif_neg small
      rw [capital] at letter
      simp [isNameChar, Char.isAlphanum, letter]
  refine ⟨members, ?_⟩
  rw [upper_of_ascii fun c member => ascii_of_isNameChar (members c member)]
  exact spells

/-! ## Numerals -/

/-- A numeral consists of the characters of numerals. -/
theorem NumeralForm.isTokenChar_of_mem (form : NumeralForm text value) :
    text ≠ [] ∧ ∀ c ∈ text, isTokenChar c = true := by
  have token {c : Char} (alphanumeric : c.isAlphanum = true) : isTokenChar c = true := by
    simp [isTokenChar, isNameChar, alphanumeric]
  cases form with
  | unsigned form => exact ⟨form.isAlphanum.1, fun c member => token (form.isAlphanum.2 c member)⟩
  | plus form | minus form =>
    refine ⟨by simp, List.forall_mem_cons.2 ⟨rfl, fun c member => ?_⟩⟩
    exact token (form.isAlphanum.2 c member)

end DirectionCentral.Assembly

import Mathlib.Tactic.SplitIfs
import DirectionCentral.Json.Printer
import DirectionCentral.Proofs.Json.Tokens

/-!
# Printed values are read back

A text scans as tokens if it adds just these to what was found before, for every text that may
follow it (`Scans`). Only a word has to be followed by a character that ends it (`Breaks`). Texts are
put together by one law (`Scans.append`), and so the indented text of a value scans as the tokens of
the value, and the compact text as well. Hence a value whose strings denote texts and whose numbers read
back (`Legible`) is read back from either text (`parse?_indentedText`, `parse?_compactText`).
-/

namespace DirectionCentral.Json

/-- A text scans as tokens before any text that may follow it. -/
def Scans (follows : List Char → Prop) (text : List Char) (tokens : List Token) : Prop :=
  ∀ (found : List Token) (rest : List Char), follows rest →
    tokensFrom? .between found (text ++ rest) =
      tokensFrom? .between (tokens.reverse ++ found) rest

/-- A text does not go on with a word. -/
def Breaks (text : List Char) : Prop := ∀ c ∈ text.head?, isWordChar c = false

/-- Any text. -/
def Anything (_ : List Char) : Prop := True

variable {follows follows' : List Char → Prop} {text text' : List Char} {ts ts' : List Token}

/-- A text that begins with no character of a word does not go on with a word. -/
theorem breaks_cons {c : Char} (stop : isWordChar c = false) (rest : List Char) :
    Breaks (c :: rest) := by
  intro first member
  obtain rfl := Option.some.inj member
  exact stop

/-- Two texts scan one after the other if the second one may follow the first. -/
theorem Scans.append (first : Scans follows text ts) (second : Scans follows' text' ts')
    (fits : ∀ rest, follows' rest → follows (text' ++ rest)) :
    Scans follows' (text ++ text') (ts ++ ts') := by
  intro found rest may
  rw [List.append_assoc, first _ _ (fits rest may), second _ _ may, List.reverse_append,
    List.append_assoc]

/-- What scans before any text scans before the texts that may follow it. -/
theorem Scans.before (scans : Scans Anything text ts) : Scans follows text ts :=
  fun found rest _ => scans found rest trivial

/-- Two texts scan one after the other if anything may follow the first. -/
theorem Scans.andThen (first : Scans Anything text ts) (second : Scans follows text' ts') :
    Scans follows (text ++ text') (ts ++ ts') :=
  first.append second fun _ _ => trivial

/-! ## Blanks, punctuation and words -/

/-- Blanks are skipped. -/
theorem scans_spaces (spaces : ∀ c ∈ text, isSpace c = true) : Scans Anything text [] := by
  intro found rest _
  induction text with
  | nil => rfl
  | cons c text ih =>
    obtain ⟨first, others⟩ := List.forall_mem_cons.1 spaces
    rw [List.cons_append, tokensFrom?, read?, begin?, if_pos first]
    exact ih others

/-- Punctuation is a token. -/
theorem scans_punctuation {c : Char} {token : Token} (sign : punctuation? c = some token) :
    Scans Anything [c] [token] := by
  intro found rest _
  rw [punctuation?] at sign
  split_ifs at sign with h₁ h₂ h₃ h₄ h₅ h₆ <;> obtain rfl := Option.some.inj sign
  all_goals subst c; rfl

/-- A text that begins with punctuation does not go on with a word. -/
theorem breaks_punctuation {c : Char} {token : Token} (sign : punctuation? c = some token)
    (rest : List Char) : Breaks (c :: rest) := by
  rw [punctuation?] at sign
  split_ifs at sign <;> subst c <;> exact breaks_cons rfl rest

/-- A word goes on to its end. -/
theorem tokensFrom?_word {more : List Char} (word : ∀ c ∈ more, isWordChar c = true)
    (chars : List Char) (found : List Token) (rest : List Char) :
    tokensFrom? (.word chars) found (more ++ rest) =
      tokensFrom? (.word (more.reverse ++ chars)) found rest := by
  induction more generalizing chars with
  | nil => rfl
  | cons c more ih =>
    obtain ⟨first, others⟩ := List.forall_mem_cons.1 word
    rw [List.cons_append, tokensFrom?, read?, if_pos first]
    simp only [ih others, List.reverse_cons, List.append_assoc, List.singleton_append]

/-- A word that writes a value is that value, if it is not followed by more of a word. -/
theorem scans_word {value : Json} (word : ∀ c ∈ text, isWordChar c = true)
    (writes : word? text = some value) : Scans Breaks text [.literal value] := by
  intro found rest breaks
  cases text with
  | nil => cases writes
  | cons c more =>
    obtain ⟨first, others⟩ := List.forall_mem_cons.1 word
    have begins : begin? found c = some (.word [c], found) := by
      have noSpace : isSpace c = false := by
        cases space : isSpace c with
        | false => rfl
        | true =>
          simp only [isSpace, Bool.or_eq_true, beq_iff_eq] at space
          rcases space with ((rfl | rfl) | rfl) | rfl <;> contradiction
      have noQuote : c ≠ '"' := by
        rintro rfl
        contradiction
      rw [begin?, if_neg (by simp [noSpace]), if_neg noQuote, if_pos first]
    rw [List.cons_append, tokensFrom?, read?, begins]
    simp only [tokensFrom?_word others]
    have spelled : (more.reverse ++ [c]).reverse = c :: more := by simp
    cases rest with
    | nil => simp [tokensFrom?, finish?, spelled, writes]
    | cons d rest =>
      have stop : isWordChar d = false := breaks d rfl
      simp [tokensFrom?, read?, stop, spelled, writes]

/-! ## Strings -/

/-- What is read of a printed character: a control character without a short escape is read as the
code of its escape. -/
def pieceOf (c : Char) : Piece :=
  if c.toNat < 0x20 ∧ c ≠ '\n' ∧ c ≠ '\r' ∧ c ≠ '\t' ∧ c.toNat ≠ 0x08 ∧ c.toNat ≠ 0x0C then
    .unit c.toNat
  else .char c

/-- What is read of printed characters denotes the characters. -/
theorem text?_pieceOf (chars : List Char) : Piece.text? (chars.map pieceOf) = some chars := by
  induction chars with
  | nil => rfl
  | cons c chars ih =>
    rw [List.map_cons, pieceOf]
    split
    · rename_i control
      have low : c.toNat < 0x20 := control.1
      rw [Piece.text?.eq_def]
      simp only
      rw [if_neg (by omega), if_neg (by omega), ih, Char.ofNat_toNat]
      rfl
    · rw [Piece.text?, ih]
      rfl

/-- The escape of a control character has four digits that denote its code. -/
theorem escape_digits {n : Nat} (control : n < 0x20) :
    Text.padStart 4 '0' (Nat.toDigits 16 n) =
        ['0', '0', Nat.digitChar (n / 16), Nat.digitChar (n % 16)] ∧
      Text.hexDigit? (Nat.digitChar (n / 16)) = some (n / 16) ∧
      Text.hexDigit? (Nat.digitChar (n % 16)) = some (n % 16) := by
  decide +revert

/-- A printed character inside a string is read as its piece. -/
theorem tokensFrom?_escape (c : Char) (pieces : List Piece) (found : List Token)
    (rest : List Char) :
    tokensFrom? (.string pieces) found (escape c ++ rest) =
      tokensFrom? (.string (pieceOf c :: pieces)) found rest := by
  rw [escape]
  split_ifs with quote backslash control newline return_ tab backspace formFeed
  · subst c; rfl
  · subst c; rfl
  · subst c; rfl
  · subst c; rfl
  · subst c; rfl
  · have same : c = '\x08' := Char.toNat_inj.1 backspace
    subst c; rfl
  · have same : c = '\x0c' := Char.toNat_inj.1 formFeed
    subst c; rfl
  · obtain ⟨spelled, first, second⟩ := escape_digits control
    rw [spelled, pieceOf, if_pos ⟨control, newline, return_, tab, backspace, formFeed⟩]
    have zero : Text.hexDigit? '0' = some 0 := by decide
    have code : 16 * (c.toNat / 16) + c.toNat % 16 = c.toNat := Nat.div_add_mod _ _
    simp [tokensFrom?, read?, zero, first, second, code]
  · have plain : pieceOf c = .char c := by simp [pieceOf, control]
    simp [tokensFrom?, read?, quote, backslash, control, plain]

/-- Printed characters inside a string are read as their pieces. -/
theorem tokensFrom?_flatMap_escape (chars : List Char) (pieces : List Piece)
    (found : List Token) (rest : List Char) :
    tokensFrom? (.string pieces) found (chars.flatMap escape ++ rest) =
      tokensFrom? (.string ((chars.map pieceOf).reverse ++ pieces)) found rest := by
  induction chars generalizing pieces with
  | nil => rfl
  | cons c chars ih =>
    rw [List.flatMap_cons, List.append_assoc, tokensFrom?_escape, ih]
    simp

/-- A printed string is a token. -/
theorem scans_quoted (text : String) :
    Scans Anything (quoted (some text)) [.string (some text)] := by
  intro found rest _
  have opened : tokensFrom? .between found (quoted (some text) ++ rest) =
      tokensFrom? (.string []) found (text.toList.flatMap escape ++ '"' :: rest) := by
    rw [quoted, List.cons_append, List.append_assoc]
    rfl
  rw [opened, tokensFrom?_flatMap_escape, tokensFrom?, read?, if_pos rfl]
  simp only [List.append_nil, List.reverse_reverse, text?_pieceOf, Option.map_some,
    String.ofList_toList]
  rfl

/-! ## Layout -/

section Layout

variable {α : Type} {separator : List Char} {print : α → List Char} {tokensOf : α → List Token}
  {items : List α}

/-- What ends a word still does so with more texts before it, each behind a separator that does. -/
theorem breaks_flatMap (ends : ∀ rest, Breaks (separator ++ rest)) (texts : List (List Char))
    {rest : List Char} (stop : Breaks rest) : Breaks (texts.flatMap (separator ++ ·) ++ rest) := by
  cases texts with
  | nil => exact stop
  | cons text texts =>
    rw [List.flatMap_cons, List.append_assoc, List.append_assoc]
    exact ends _

/-- Texts that each come behind a separator scan as their tokens, each behind a comma. -/
theorem scans_flatMap (comma : Scans Anything separator [.comma])
    (ends : ∀ rest, Breaks (separator ++ rest))
    (each : ∀ item ∈ items, Scans Breaks (print item) (tokensOf item)) :
    Scans Breaks ((items.map print).flatMap (separator ++ ·))
      ((items.map tokensOf).flatMap (Token.comma :: ·)) := by
  induction items with
  | nil => exact (scans_spaces (by simp)).before
  | cons item items ih =>
    obtain ⟨first, others⟩ := List.forall_mem_cons.1 each
    exact (comma.andThen first).append (ih others) fun _ => breaks_flatMap ends _

/-- Texts with separators scan as their tokens with commas. -/
theorem scans_separated (comma : Scans Anything separator [.comma])
    (ends : ∀ rest, Breaks (separator ++ rest))
    (each : ∀ item ∈ items, Scans Breaks (print item) (tokensOf item)) :
    Scans Breaks (separated separator (items.map print)) (commaSeparated (items.map tokensOf)) := by
  cases items with
  | nil => exact (scans_spaces (by simp [separated])).before
  | cons item items =>
    obtain ⟨first, others⟩ := List.forall_mem_cons.1 each
    exact first.append (scans_flatMap comma ends others) fun _ => breaks_flatMap ends _

/-- Texts with commas in brackets scan as the tokens of the texts in brackets. -/
theorem scans_enclosed {opening closing : Char} {first last : Token}
    (opens : punctuation? opening = some first) (closes : punctuation? closing = some last)
    (each : ∀ item ∈ items, Scans Breaks (print item) (tokensOf item)) :
    Scans Anything (opening :: (separated [','] (items.map print) ++ [closing]))
      (first :: (commaSeparated (items.map tokensOf) ++ [last])) := by
  have comma : Scans Anything [','] [.comma] := scans_punctuation rfl
  have texts := scans_separated comma (breaks_cons rfl) each
  have closed := texts.append (scans_punctuation closes) fun _ _ => breaks_punctuation closes _
  exact (scans_punctuation opens).andThen closed

/-- A new line is skipped. -/
theorem scans_newline (depth : Nat) : Scans Anything (newline depth) [] := by
  refine scans_spaces fun c member => ?_
  rcases List.mem_cons.1 member with rfl | blank
  · rfl
  · rw [List.eq_of_mem_replicate blank]
    rfl

/-- Lines in brackets scan as the tokens of the lines in brackets. -/
theorem scans_block (depth : Nat) {opening closing : Char} {first last : Token}
    (opens : punctuation? opening = some first) (closes : punctuation? closing = some last)
    (each : ∀ item ∈ items, Scans Breaks (print item) (tokensOf item)) :
    Scans Anything (block depth opening closing (items.map print))
      (first :: (commaSeparated (items.map tokensOf) ++ [last])) := by
  have comma : Scans Anything (',' :: newline (depth + 1)) [.comma] :=
    (scans_punctuation rfl).andThen (scans_newline (depth + 1))
  have lines := scans_separated comma (breaks_cons rfl) each
  have opened := (scans_punctuation opens).andThen (scans_newline (depth + 1))
  have closed := (scans_newline depth).andThen (scans_punctuation closes)
  have whole := (opened.andThen lines).append closed fun _ _ => breaks_cons rfl _
  simpa [block] using whole

end Layout

/-! ## Values -/

/-- A value that can be read back from its text: strings and names denote texts, and each number is
a word that writes it. -/
inductive Legible : Json → Prop where
  /-- The value `null`. -/
  | null : Legible .null
  /-- A truth value. -/
  | bool (value : Bool) : Legible (.bool value)
  /-- A number that is read back. -/
  | number {numeral : Numeral} (chars : ∀ c ∈ numeral.render, isWordChar c = true)
    (writes : word? numeral.render = some (.number numeral)) : Legible (.number numeral)
  /-- A text. -/
  | string (text : String) : Legible (.string (some text))
  /-- A list of such values. -/
  | array {items : List Json} (each : ∀ item ∈ items, Legible item) : Legible (.array items)
  /-- Such values under names that denote texts. -/
  | object {members : List (Option String × Json)} (named : ∀ m ∈ members, m.1.isSome = true)
    (each : ∀ m ∈ members, Legible m.2) : Legible (.object members)

/-- Whether a value holds no other. -/
def isScalar : Json → Bool
  | .array _ | .object _ => false
  | _ => true

variable {value : Json}

/-- The text of a value that holds no other scans as its tokens. -/
theorem Legible.scans_scalar (legible : Legible value) (alone : value.isScalar = true) :
    Scans Breaks (scalar value) (tokens value) := by
  cases legible with
  | null =>
    simp only [scalar, tokens]
    exact scans_word (List.all_eq_true.1 rfl) rfl
  | bool value =>
    cases value with
    | false =>
      simp only [scalar, tokens]
      exact scans_word (List.all_eq_true.1 rfl) rfl
    | true =>
      simp only [scalar, tokens]
      exact scans_word (List.all_eq_true.1 rfl) rfl
  | number chars writes =>
    simp only [scalar, tokens]
    exact scans_word chars writes
  | string text =>
    simp only [scalar, tokens]
    exact (scans_quoted text).before
  | array | object => contradiction

/-- A member whose name denotes a text scans as its tokens, however it is spaced. -/
theorem scans_member {m : Option String × Json} {colon text : List Char}
    (named : m.1.isSome = true) (sign : Scans Anything colon [.colon])
    (inside : Scans Breaks text (tokens m.2)) :
    Scans Breaks (quoted m.1 ++ (colon ++ text)) (.string m.1 :: .colon :: tokens m.2) := by
  obtain ⟨name, written⟩ := Option.isSome_iff_exists.1 named
  rw [written]
  exact (scans_quoted name).andThen (sign.andThen inside)

/-- The indented text of a value scans as its tokens at every depth. -/
theorem Legible.scans (legible : Legible value) (depth : Nat) :
    Scans Breaks (indented depth value) (tokens value) := by
  induction legible generalizing depth with
  | null | bool | number | string =>
    simp only [indented]
    exact Legible.scans_scalar (by constructor <;> assumption) rfl
  | @array items each ih =>
    rw [indented, tokens]
    split
    · rename_i empty
      obtain rfl := List.isEmpty_iff.1 empty
      exact (scans_punctuation rfl).andThen (scans_punctuation rfl).before
    · exact (scans_block depth rfl rfl fun item member => ih item member (depth + 1)).before
  | @object members named each ih =>
    rw [indented, tokens]
    split
    · rename_i empty
      obtain rfl := List.isEmpty_iff.1 empty
      exact (scans_punctuation rfl).andThen (scans_punctuation rfl).before
    · have colon : Scans Anything [':', ' '] [.colon] :=
        (scans_punctuation rfl).andThen (scans_spaces (List.all_eq_true.1 rfl))
      exact (scans_block depth rfl rfl fun m member =>
        scans_member (named m member) colon (ih m member (depth + 1))).before

/-- The compact text of a value scans as its tokens. -/
theorem Legible.scans_compact (legible : Legible value) :
    Scans Breaks (compact value) (tokens value) := by
  induction legible with
  | null | bool | number | string =>
    simp only [compact]
    exact Legible.scans_scalar (by constructor <;> assumption) rfl
  | array each ih =>
    rw [compact, tokens]
    exact (scans_enclosed rfl rfl ih).before
  | object named each ih =>
    rw [compact, tokens]
    have colon : Scans Anything [':'] [.colon] := scans_punctuation rfl
    exact (scans_enclosed rfl rfl fun m member =>
      scans_member (named m member) colon (ih m member)).before

/-- A text that scans as the tokens of a value is read as the value. -/
theorem ofChars?_of_scans (scans : Scans Breaks text (tokens value)) :
    ofChars? text = some value := by
  have scanned := scans [] [] (by simp [Breaks])
  have found : tokens? text = some (tokens value) := by
    rw [tokens?, ← List.append_nil text, scanned]
    simp [tokensFrom?, finish?]
  rw [ofChars?, found, Option.bind_some, ofTokens?_tokens]

/-- A legible value is read back from its indented text. -/
theorem parse?_indentedText (legible : Legible value) :
    parse? value.indentedText = some value := by
  rw [parse?, indentedText, String.toList_ofList, ofChars?_of_scans (legible.scans 0)]

/-- A legible value is read back from its compact text. -/
theorem parse?_compactText (legible : Legible value) :
    parse? value.compactText = some value := by
  rw [parse?, compactText, String.toList_ofList, ofChars?_of_scans legible.scans_compact]

end DirectionCentral.Json

import Mathlib.Data.Nat.Digits.Defs
import DirectionCentral.Proofs.Disassembly.Shape

/-!
# Listings

A listing is a header of three lines and a line for each word (`ListingLine`). The text of a word
leaves out the bits that mean nothing, so two words may have one text; but the last eight characters
of a line are the digits of its word, and what stands before its first colon are the digits of its
address. Both columns are read back whatever stands between them (`ListingLine.decimal?_location`,
`ListingLine.hexadecimal?_raw`), and no column has a newline. So a listing determines its words and,
if there are any, the address of the first one (`listing_determines_words`).
-/

namespace DirectionCentral.Disassembly

open Text Assembly

/-! ## Columns -/

/-- Filling up in front makes a text as long as its column, unless it is longer. -/
theorem length_padStart (width : Nat) (fill : Char) (text : List Char) :
    (padStart width fill text).length = max width text.length := by
  rw [padStart, List.length_append, List.length_replicate]
  omega

/-- Filling up at the end makes a text as long as its column, unless it is longer. -/
theorem length_padEnd (width : Nat) (text : List Char) :
    (padEnd width text).length = max width text.length := by
  rw [padEnd, List.length_append, List.length_replicate]
  omega

/-- A word has eight hexadecimal digits. -/
theorem length_hexadecimal_word (word : Word) : (hexadecimal 8 word.toNat).length = 8 := by
  have short : (Nat.toDigits 16 word.toNat).length ≤ 8 :=
    Nat.toDigits_length 16 word.toNat 8 (by decide) word.toNat_lt
  rw [hexadecimal, length_padStart, List.length_map]
  omega

/-! ## A line -/

/-- A line of a listing for a word at an address: the decimal digits of the address, five or more,
and a colon; the text of the word, with spaces up to a column of 16; and after a semicolon the eight
hexadecimal digits of the word. -/
inductive ListingLine (address : Nat) (word : Word) : List Char → Prop
  /-- The columns of the line. -/
  | columns {location gap raw : List Char} (digits : DigitsForm 10 location address)
      (five : location.length = max 5 (decimal address).length) (spaces : ∀ c ∈ gap, c = ' ')
      (sixteen : (wordChars word ++ gap).length = max 16 (wordChars word).length)
      (hexadecimalDigits : DigitsForm 16 raw word.toNat) (eight : raw.length = 8)
      (upperCase : ∀ c ∈ raw, c.isLower = false) :
      ListingLine address word
        (location ++ [':', ' '] ++ (wordChars word ++ gap) ++ [' ', ';', ' '] ++ raw)

/-- The line that is written for a word at an address. -/
theorem listingLine_lineChars (address : Nat) (word : Word) :
    ListingLine address word (lineChars address word) :=
  .columns (digitsForm_zeroPadded 5 address) (length_padStart ..)
    (fun _ => List.eq_of_mem_replicate) (length_padEnd 16 (wordChars word))
    (digitsForm_hexadecimal 8 word.toNat) (length_hexadecimal_word word)
    (fun _ => isLower_of_mem_hexadecimal)

namespace ListingLine

variable {address address' : Nat} {word word' : Word} {line : List Char}

/-- What stands before the first colon is read as the address. -/
theorem decimal?_location (shown : ListingLine address word line) :
    decimal? (splitAtFirst (· == ':') line).1 = some address := by
  cases shown with
  | @columns location gap raw digits =>
    have plain := isPlain_of_digitsForm digits (by decide)
    have cut : CutAt (· == ':')
        (location ++ [':', ' '] ++ (wordChars word ++ gap) ++ [' ', ';', ' '] ++ raw) location
        (':' :: ' ' :: (wordChars word ++ gap ++ [' ', ';', ' '] ++ raw)) := by
      refine ⟨by simp, fun c member => ?_, fun c first => ?_⟩
      · have holds := plain c member
        rw [isPlain, Bool.and_eq_true, bne_iff_ne, ← beq_eq_false_iff_ne] at holds
        exact holds.2
      · obtain rfl := Option.some.inj first
        rfl
    rw [cut.fst_splitAtFirst]
    exact digits.decimal?.2

/-- The last eight characters are read as the word. -/
theorem hexadecimal?_raw (shown : ListingLine address word line) :
    hexadecimal? (line.rtake 8) = some word.toNat := by
  cases shown with
  | @columns location gap raw _ _ _ _ hexadecimalDigits eight =>
    have last : (location ++ [':', ' '] ++ (wordChars word ++ gap) ++ [' ', ';', ' '] ++
        raw).rtake 8 = raw := by
      rw [List.rtake, List.length_append, eight, Nat.add_sub_cancel, List.drop_left]
    rw [last]
    exact hexadecimalDigits.hexadecimal?

/-- A line is that of one address and one word. -/
theorem unique (shown : ListingLine address word line) (other : ListingLine address' word' line) :
    address = address' ∧ word = word' := by
  have addresses := Option.some.inj (shown.decimal?_location.symm.trans other.decimal?_location)
  have words := Option.some.inj (shown.hexadecimal?_raw.symm.trans other.hexadecimal?_raw)
  exact ⟨addresses, UInt32.toNat_inj.1 words⟩

/-- A line has no newline. -/
theorem newline_notMem (shown : ListingLine address word line) : '\n' ∉ line := by
  cases shown with
  | @columns location gap raw digits _ spaces _ hexadecimalDigits =>
    have free {text : List Char} (plain : ∀ c ∈ text, isPlain c = true) : '\n' ∉ text :=
      fun member => Bool.false_ne_true (plain '\n' member)
    have left : '\n' ∉ location := free (isPlain_of_digitsForm digits (by decide))
    have middle : '\n' ∉ wordChars word := free (shape_wordChars word).plain
    have right : '\n' ∉ raw := free (isPlain_of_digitsForm hexadecimalDigits (Nat.le_refl _))
    have between : '\n' ∉ gap := fun member => by
      have space := spaces _ member
      contradiction
    simp [left, middle, between, right]

end ListingLine

/-! ## All lines -/

/-- The lines of a listing after its header. -/
def rows (words : List Word) (origin : Nat) : List (List Char) :=
  words.zipIdx.map fun (word, offset) => lineChars (origin + offset) word

/-- The line of a word is that of its place. -/
theorem getElem?_rows (words : List Word) (origin i : Nat) :
    (rows words origin)[i]? = words[i]?.map (lineChars (origin + i)) := by
  rw [rows, List.getElem?_map, List.getElem?_zipIdx, Option.map_map]
  cases words[i]? with
  | none => rfl
  | some word => simp

/-- Every line after the header is that of a word. -/
theorem exists_listingLine {words : List Word} {origin : Nat} {line : List Char}
    (member : line ∈ rows words origin) : ∃ address word, ListingLine address word line := by
  obtain ⟨⟨word, offset⟩, -, rfl⟩ := List.mem_map.1 member
  exact ⟨origin + offset, word, listingLine_lineChars _ word⟩

/-- The lines of a listing are read back. -/
theorem lines_listing (words : List Word) (origin : Nat) :
    lines (listing words origin).toList = header ++ rows words origin := by
  rw [listing, String.toList_ofList]
  apply lines_unlines
  intro line member
  obtain fixed | shown := List.mem_append.1 member
  · have plain : ∀ line ∈ header, '\n' ∉ line := by decide
    exact plain line fixed
  · obtain ⟨address, word, isLine⟩ := exists_listingLine shown
    exact isLine.newline_notMem

/-- The lines after the header determine the words and, if there are any, the first address. -/
theorem rows_inj {words words' : List Word} {origin origin' : Nat}
    (same : rows words origin = rows words' origin') :
    words = words' ∧ (words = [] ∨ origin = origin') := by
  have each (i : Nat) :
      words[i]?.map (lineChars (origin + i)) = words'[i]?.map (lineChars (origin' + i)) := by
    rw [← getElem?_rows, ← getElem?_rows, same]
  have unique {i : Nat} {word word' : Word} (here : words[i]? = some word)
      (there : words'[i]? = some word') : origin + i = origin' + i ∧ word = word' := by
    have line := each i
    rw [here, there, Option.map_some, Option.map_some, Option.some.injEq] at line
    have other := listingLine_lineChars (origin' + i) word'
    rw [← line] at other
    exact (listingLine_lineChars (origin + i) word).unique other
  constructor
  · apply List.ext_getElem?
    intro i
    have line := each i
    cases here : words[i]? with
    | none =>
      rw [here, Option.map_none] at line
      exact (Option.map_eq_none_iff.1 line.symm).symm
    | some word =>
      rw [here, Option.map_some] at line
      obtain ⟨word', there, -⟩ := Option.map_eq_some_iff.1 line.symm
      rw [there, (unique here there).2]
  · cases first : words with
    | nil => exact .inl rfl
    | cons word rest =>
      have line := each 0
      have here : words[0]? = some word := by rw [first]; rfl
      rw [here, Option.map_some] at line
      obtain ⟨word', there, -⟩ := Option.map_eq_some_iff.1 line.symm
      exact .inr (unique here there).1

/-- A listing is a header of three lines and one line for each word in order, each ended by a
newline; and two listings are the same just if their words are, and the addresses from which they
are listed, unless there are no words. -/
theorem listing_determines_words (words words' : List Word) (origin origin' : Nat) :
    (∃ rows : List (List Char),
      (listing words origin).toList = unlines (header ++ rows) ∧
        lines (listing words origin).toList = header ++ rows ∧ header.length = 3 ∧
        rows.length = words.length ∧
        ∀ i (inside : i < words.length),
          ∃ line, rows[i]? = some line ∧ ListingLine (origin + i) words[i] line) ∧
      (listing words origin = listing words' origin' ↔
        words = words' ∧ (words = [] ∨ origin = origin')) := by
  refine ⟨⟨rows words origin, ?_, lines_listing words origin, rfl, ?_, ?_⟩, ?_⟩
  · rw [listing, String.toList_ofList]
    rfl
  · rw [rows, List.length_map, List.length_zipIdx]
  · intro i inside
    refine ⟨lineChars (origin + i) words[i], ?_, listingLine_lineChars ..⟩
    rw [getElem?_rows, List.getElem?_eq_getElem inside, Option.map_some]
  · constructor
    · intro same
      have all : header ++ rows words origin = header ++ rows words' origin' := by
        rw [← lines_listing, ← lines_listing, same]
      exact rows_inj (List.append_cancel_left all)
    · rintro ⟨rfl, rfl | rfl⟩
      · rfl
      · rfl

/-- Two words may have one text; their lines differ in the last column. -/
example : wordText 0x00010000 = wordText 0 := by decide

end DirectionCentral.Disassembly

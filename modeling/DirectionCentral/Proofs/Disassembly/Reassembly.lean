import DirectionCentral.Proofs.Assembly.Drafting
import DirectionCentral.Proofs.Disassembly.Reading

/-!
# Reassembly

Assembling the texts of a list of words, a line to each, gives the words back from address zero on,
without the bits that mean nothing; a word without an operation is refused on its line
(`assemble_wordTexts`). So the words that come back as they were are those that encode an operation.
-/

namespace DirectionCentral.Disassembly

open Text Assembly

/-- Whether the byte of a word stands for no operation. -/
def isUnknown (word : Word) : Bool := (Instruction.decode word).operation?.isNone

/-- A word without bits 16 and 18 to 23. -/
def cleared (word : Word) : Word := word &&& 0xFF02FFFF

/-- The place of a word that waits for no label. -/
def plainCell (word : Word) : Cell := { word := cleared word }

/-- Whether a word encodes an operation with an address. -/
def IsEncoded (word : Word) : Prop :=
  ∃ op address indexed, Instruction.encodeOperation op address indexed = word

/-- The texts of words with newlines between them. -/
def wordTexts (words : List Word) : String := "\n".intercalate (words.map wordText)

/-- The image of words from address zero on, with no segment if there are none. -/
def imageAtZero (words : List Word) : Image := if words = [] then {} else .ofWords 0 words

/-! ## Words -/

/-- An operation with the fields of a word is the word without the bits that mean nothing. -/
theorem encodeOperation_decode {word : Word} {op : Operation}
    (performs : (Instruction.decode word).operation? = some op) :
    Instruction.encodeOperation op (Instruction.decode word).address.toUInt32
      (Instruction.decode word).indexed = cleared word := by
  have code : op.byte = (Instruction.decode word).code := Operation.ofByte?_eq_some_iff.1 performs
  rw [Instruction.encodeOperation, code, cleared, ← Instruction.toWord_decode]
  rfl

/-- The words that encode an operation are those that have one and no other bits. -/
theorem isEncoded_iff {word : Word} :
    IsEncoded word ↔ isUnknown word = false ∧ cleared word = word := by
  constructor
  · rintro ⟨op, address, indexed, rfl⟩
    refine ⟨?_, Instruction.encode_mask ..⟩
    have performs :
        (Instruction.decode (Instruction.encodeOperation op address indexed)).operation? =
          some op := by
      rw [Instruction.encodeOperation, Instruction.decode_encode]
      exact Operation.ofByte?_eq_some_iff.2 rfl
    rw [isUnknown, performs]
    rfl
  · rintro ⟨known, same⟩
    rw [isUnknown, Option.isNone_eq_false_iff, Option.isSome_iff_exists] at known
    obtain ⟨op, performs⟩ := known
    exact ⟨op, _, _, (encodeOperation_decode performs).trans same⟩

/-! ## Lines -/

/-- The text of a word puts down the word, or is refused. -/
theorem addLine_wordChars (d : Draft) (number : Nat) (word : Word) :
    d.addLine number (wordChars word) =
      if isUnknown word then .error ⟨number, .unknownMnemonic "???"⟩
      else .ok (d.emit (plainCell word)) := by
  rw [Draft.addLine, readLine_wordChars]
  cases performs : (Instruction.decode word).operation? with
  | none =>
    have unknown : isUnknown word = true := by rw [isUnknown, performs]; rfl
    rw [if_pos unknown, statementOf, performs]
    rfl
  | some op =>
    have known : ¬ isUnknown word = true := by simp [isUnknown, performs]
    rw [if_neg known, statementOf, performs, plainCell, ← encodeOperation_decode performs]
    rfl

/-- The texts of words put down the words after those of a draft, up to the first one that is
refused. -/
theorem addLines_wordChars (d : Draft) (number : Nat) (words : List Word) :
    d.addLines number (words.map wordChars) =
      match words.findIdx? isUnknown with
      | none => .ok { d with current := { d.current with
          cells := d.current.cells ++ words.map plainCell } }
      | some k => .error ⟨number + k, .unknownMnemonic "???"⟩ := by
  induction words generalizing d number with
  | nil => simp [Draft.addLines]
  | cons word rest ih =>
    rw [List.map_cons, Draft.addLines, addLine_wordChars, List.findIdx?_cons]
    split
    · rfl
    · simp only [Except.bind, ih]
      cases rest.findIdx? isUnknown with
      | none => simp [Draft.emit]
      | some k => simp [add_assoc, add_comm 1 k]

/-! ## Programs -/

/-- The texts of words are read back as lines. -/
theorem lines_wordTexts (words : List Word) :
    lines (wordTexts words).toList = words.map wordChars := by
  have texts : (words.map wordText).map String.toList = words.map wordChars := by
    simp [wordText, Function.comp_def]
  have newline : "\n".toList = ['\n'] := rfl
  rw [wordTexts, String.toList_intercalate, texts, newline, lines_intercalate]
  intro line member
  obtain ⟨word, -, rfl⟩ := List.mem_map.1 member
  have shape := shape_wordChars word
  refine ⟨fun newline => ?_, shape.ne_nil⟩
  have plain := shape.plain _ newline
  contradiction

/-- A draft of plain places is completed to the words there. -/
theorem complete_plainCells (words : List Word) :
    Draft.complete { current := { cells := (#[] : Array Cell) ++ words.map plainCell } } =
      .ok (imageAtZero (words.map cleared)) := by
  have places : (words.map plainCell).mapM (Cell.complete []) = .ok (words.map cleared) := by
    rw [mapM_eq_ok_iff, List.forall₂_map_left_iff, List.forall₂_map_right_iff, List.forall₂_same]
    exact fun _ _ => rfl
  let segment : DraftSegment := { cells := (#[] : Array Cell) ++ words.map plainCell }
  have complete : segment.complete [] = .ok ⟨0, words.map cleared⟩ := by
    refine map_eq_ok_iff.2 ⟨words.map cleared, ?_, rfl⟩
    simpa [segment] using places
  cases words with
  | nil => rfl
  | cons word rest =>
    have filled : Draft.filled { current := segment } = [segment] := by
      simp [Draft.filled, Draft.segments, segment]
    refine map_eq_ok_iff.2 ⟨[⟨0, (word :: rest).map cleared⟩], ?_, rfl⟩
    rw [filled]
    exact mapM_eq_ok_iff.2 (.cons complete .nil)

/-- Images from address zero on are the same just if the words are. -/
theorem imageAtZero_injective {words others : List Word}
    (same : imageAtZero words = imageAtZero others) : words = others := by
  cases words with
  | nil =>
    cases others with
    | nil => rfl
    | cons => simp [imageAtZero, Image.ofWords] at same
  | cons word rest =>
    cases others with
    | nil => simp [imageAtZero, Image.ofWords] at same
    | cons other more => simpa [imageAtZero, Image.ofWords] using same

/-- Assembling the texts of words gives the words from address zero on, without the bits that mean
nothing, or refuses the first word without an operation on its line. The words come back as they
were just if each of them encodes an operation. -/
theorem assemble_wordTexts (words : List Word) :
    assemble (wordTexts words) =
        (match words.findIdx? isUnknown with
        | none => .ok (imageAtZero (words.map cleared))
        | some k => .error ⟨k + 1, .unknownMnemonic "???"⟩) ∧
      (assemble (wordTexts words) = .ok (imageAtZero words) ↔ ∀ word ∈ words, IsEncoded word) := by
  have result : assemble (wordTexts words) =
      match words.findIdx? isUnknown with
      | none => .ok (imageAtZero (words.map cleared))
      | some k => .error ⟨k + 1, .unknownMnemonic "???"⟩ := by
    rw [assemble, assembleChars, Draft.ofSource, lines_wordTexts, addLines_wordChars]
    cases words.findIdx? isUnknown with
    | none => exact complete_plainCells words
    | some k => simp [Except.bind, add_comm]
  refine ⟨result, ?_⟩
  constructor
  · intro same
    rw [result] at same
    cases found : words.findIdx? isUnknown with
    | some k => simp [found] at same
    | none =>
      simp only [found, Except.ok.injEq] at same
      have back := imageAtZero_injective same
      intro word member
      exact isEncoded_iff.2 ⟨List.findIdx?_eq_none_iff.1 found word member,
        List.map_inj_left.1 (back.trans (List.map_id words).symm) word member⟩
  · intro encoded
    have known : words.findIdx? isUnknown = none :=
      List.findIdx?_eq_none_iff.2 fun word member => (isEncoded_iff.1 (encoded word member)).1
    have back : words.map cleared = words := by
      conv_rhs => rw [← List.map_id words]
      exact List.map_inj_left.2 fun word member => (isEncoded_iff.1 (encoded word member)).2
    rw [result, known, back]

example : assemble (wordTexts [0x15000A02, 0x07000000]) = .error ⟨2, .unknownMnemonic "???"⟩ := rfl

end DirectionCentral.Disassembly

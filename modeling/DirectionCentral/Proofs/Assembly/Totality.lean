import DirectionCentral.Proofs.Assembly.Completion
import DirectionCentral.Proofs.Assembly.Denotation

/-!
# Every well-formed program is assembled

However a well-formed program is written down, assembling the text returns an image, and it is the
one image that the program denotes (`assemble_wellFormed`).
-/

namespace DirectionCentral.Assembly

open Text

variable {program : List Line} {source text : List Char} {line : Line}

/-! ## One image -/

section Unique

variable {addressOf : String → Int → Prop}

/-- A directive puts down one word, if labels have one address each. -/
theorem WordDenotes.unique {d : Directive} {word word' : Word}
    (single : ∀ label address address', addressOf label address → addressOf label address' →
      address = address')
    (one : WordDenotes addressOf word d) (other : WordDenotes addressOf word' d) :
    word = word' := by
  cases one with
  | data comes low =>
    cases other with
    | data comes' low' =>
      obtain rfl := comes.unique single comes'
      rw [← UInt32.toNat_inj]
      omega
  | instruction comes _ operation address index unused =>
    cases other with
    | instruction comes' _ operation' address' index' unused' =>
      obtain rfl := comes.unique single comes'
      have code : (Instruction.decode word).code = (Instruction.decode word').code :=
        (Operation.ofByte?_eq_some_iff.1 operation).symm.trans
          (Operation.ofByte?_eq_some_iff.1 operation')
      have field : (Instruction.decode word).address = (Instruction.decode word').address := by
        rw [← UInt16.toNat_inj]
        omega
      calc word
        _ = (Instruction.decode word).toWord := (Instruction.toWord_decode_of_unused unused).symm
        _ = (Instruction.decode word').toWord := by
          rw [Instruction.toWord, Instruction.toWord, code, field, index, index']
        _ = word' := Instruction.toWord_decode_of_unused unused'

/-- Lines put down one word each, if labels have one address each. -/
theorem LineDenotes.unique
    (single : ∀ label address address', addressOf label address → addressOf label address' →
      address = address') : Relator.RightUnique (LineDenotes addressOf) := by
  rintro line word word' ⟨d, asks, one⟩ ⟨d', asks', other⟩
  obtain rfl := Option.some.inj (asks.symm.trans asks')
  exact one.unique single other

end Unique

/-- A program whose labels are defined once each denotes one image. -/
theorem ImageDenotes.unique {image image' : Image} (distinct : (Layout.labels program).Nodup)
    (one : ImageDenotes program image) (other : ImageDenotes program image') : image = image' := by
  have words : Relator.RightUnique (LineDenotes (Layout.LabelAt program)) :=
    LineDenotes.unique fun _ _ _ => Layout.LabelAt.unique distinct
  have segments : Relator.RightUnique (RunDenotes program) := by
    rintro run ⟨start, held⟩ ⟨start', held'⟩ one other
    have starts : start = start' := by
      have left := one.start
      have right := other.start
      dsimp only at left right
      rw [← UInt64.toNat_inj]
      omega
    have same : held = held' := List.right_unique_forall₂' words one.words other.words
    rw [starts, same]
  obtain ⟨list⟩ := image
  obtain ⟨list'⟩ := image'
  rw [Image.mk.injEq]
  exact List.right_unique_forall₂' segments one.segments other.segments

/-! ## Texts of programs -/

/-- A line that the grammar makes has no newline in it. -/
theorem LineForm.newline_not_mem (form : LineForm text line) : '\n' ∉ text := by
  obtain ⟨left, code, right, comment⟩ := form
  simp only [List.mem_append, not_or]
  refine ⟨⟨⟨fun member => (left _ member).2 rfl, fun member =>
    (code.plain_of_mem _ member).1 rfl⟩, fun member => (right _ member).2 rfl⟩, ?_⟩
  cases comment with
  | none => exact List.not_mem_nil
  | some free =>
    rw [List.mem_cons, not_or]
    exact ⟨by decide, free⟩

/-- An empty line says nothing. -/
theorem LineForm.eq_of_nil (form : LineForm text line) (empty : text = []) :
    line = ⟨none, none⟩ := by
  obtain ⟨left, code, right, comment⟩ := form
  simp only [List.append_eq_nil_iff] at empty
  obtain ⟨⟨⟨-, inner⟩, -⟩, -⟩ := empty
  cases code with
  | plain body =>
    cases body with
    | none => rfl
    | some statement => exact absurd inner statement.tight.1.nonempty
  | labelled => simp at inner

/-- Lines that the grammar makes say what they stand for. -/
theorem lineTexts_of_lineForms {texts : List (List Char)} {lines : List Line}
    (forms : List.Forall₂ LineForm texts lines)
    (fits : ∀ line ∈ lines, ∀ n ∈ line.numbers, n.natAbs < 2 ^ 63) :
    List.Forall₂ LineText texts lines := by
  induction forms with
  | nil => exact .nil
  | cons form _ ih =>
    obtain ⟨first, others⟩ := List.forall_mem_cons.1 fits
    exact .cons (form.lineText first) (ih others)

/-- The lines of a text are those of the program, but for an empty one at the end. -/
theorem SourceForm.lines (form : SourceForm source program) :
    ∃ rest, List.Forall₂ LineForm (Text.lines source) rest ∧
      (program = rest ∨ program = rest ++ [⟨none, none⟩]) := by
  induction form with
  | nil => exact ⟨[], .nil, .inl rfl⟩
  | @last text line form =>
    by_cases empty : text = []
    · rw [form.eq_of_nil empty, empty]
      exact ⟨[], .nil, .inr rfl⟩
    · rw [lines_of_free form.newline_not_mem empty]
      exact ⟨[line], .cons form .nil, .inl rfl⟩
  | @cons text more line others form _ ih =>
    obtain ⟨rest, lines, shape⟩ := ih
    refine ⟨line :: rest, ?_, shape.imp (congrArg _) (congrArg _)⟩
    rw [lines_append form.newline_not_mem]
    exact .cons form lines

/-- The lines of a text of a well-formed program are read into a draft that holds the program. -/
theorem exists_ofSource (wellFormed : WellFormed program) (form : SourceForm source program)
    (small : source.length < 2 ^ 63) :
    ∃ d, Draft.ofSource source = .ok d ∧ Drafted program d ∧ Completable program d := by
  have few : 3 * program.countP Line.emits < 2 ^ 63 := by
    have size := form.countP_emits
    omega
  obtain ⟨rest, lines, shape⟩ := form.lines
  have subset : ∀ line ∈ rest, line ∈ program := by
    obtain rfl | rfl := shape
    · exact fun _ => id
    · exact fun _ => List.mem_append_left _
  have distinct : (Layout.labels rest).Nodup := by
    have whole := wellFormed.distinct
    obtain rfl | rfl := shape
    · exact whole
    · simpa [Layout.labels] using whole
  have said := lineTexts_of_lineForms lines fun line member =>
    wellFormed.numbers_fit few (subset line member)
  obtain ⟨d, read, drafted, completable⟩ := exists_addLines said
    (fun line member => wellFormed.exists_realizes (subset line member)) drafted_nil
    (fun cell member => by contradiction) distinct 1
  refine ⟨d, read, ?_⟩
  obtain rfl | rfl := shape
  · exact ⟨drafted, completable⟩
  · have skipped : Drafted (rest ++ [⟨none, none⟩]) d := by
      have statement : SourceLine.statement {} = .ok none := rfl
      have added : d.addSourceLine 0 {} = .ok d := rfl
      refine drafted.addSourceLine ?_ statement .none added
      rfl
    refine ⟨skipped, fun cell member => ?_⟩
    obtain ⟨line, present, completes⟩ := completable cell member
    exact ⟨line, List.mem_append_left _ present, completes⟩

/-- However a well-formed program is written down, the text is accepted, and its image is the one
that the program denotes. The bound on the text is one that every text in memory keeps: a signed
integer of 64 bits then holds the offset of any label from any other. -/
theorem assemble_wellFormed {source : String} {program : List Line}
    (written : SourceForm source.toList program) (wellFormed : WellFormed program)
    (small : source.length < 2 ^ 63) :
    ∃ image, assemble source = .ok image ∧
      ∀ other, ImageDenotes program other ↔ other = image := by
  obtain ⟨d, read, drafted, completable⟩ :=
    exists_ofSource wellFormed written (String.length_toList ▸ small)
  obtain ⟨image, complete⟩ := exists_complete wellFormed drafted completable
  have denotes := imageDenotes_of_segments (segments_of_complete drafted complete)
  refine ⟨image, bind_eq_ok_iff.2 ⟨d, read, complete⟩, fun other => ⟨fun also => ?_, ?_⟩⟩
  · exact also.unique wellFormed.distinct denotes
  · rintro rfl
    exact denotes

/-- A text in a mixed hand: letters of both cases in one label, spacing wherever it may stand,
numbers of both bases with and without a sign, a sign after a sign, a colon in a comment and a
carriage return. -/
def mixedText : String :=
  "Loop : tsx lOOp - 0x0 , x ; a:b\r\n\tB2:DAT\t+0xFf\norg 40\nTXI 010 ,\t255,X\nDATA b2+-1;"

/-- The program of the text in a mixed hand. -/
def mixedProgram : List Line := [
  ⟨some "LOOP", some (.instruction .tsx (.operand (.reference ⟨"LOOP", 0⟩)) true)⟩,
  ⟨some "B2", some (.data (.number 255))⟩,
  ⟨none, some (.origin 40)⟩,
  ⟨none, some (.instruction .txi (.counts 10 255) true)⟩,
  ⟨none, some (.data (.reference ⟨"B2", -1⟩))⟩]

/-- A label and a call with an index suffix, with spaces wherever they may stand. -/
theorem lineForm_call : LineForm "Loop : tsx lOOp - 0x0 , x ; a:b\r".toList mixedProgram[0] := by
  have space : Spacing [' '] := spacing_of_all rfl
  have tsx : Spells "tsx".toList Operation.tsx.mnemonic := rfl
  have loop : IsName "Loop".toList := isName_of_all rfl rfl
  have operand : IsName "lOOp".toList := isName_of_all rfl rfl
  have zero : NumeralForm "0x0".toList 0 :=
    .unsigned (.hexadecimal (.inl rfl) (hexadecimal?_eq_some_iff.1 rfl))
  have back : ArgumentForm .tsx "lOOp - 0x0".toList (.operand (.reference ⟨"LOOP", 0⟩)) :=
    .operand (by decide) (OperandForm.minus operand space space zero)
  have index : SuffixForm " , x".toList true := SuffixForm.index space space (.inl rfl)
  have remark : CommentForm "; a:b\r".toList := .some (by decide)
  have statement := StatementForm.instruction tsx ⟨by decide, space⟩ back index
  exact LineForm.line spacing_nil (.labelled loop space space (.some statement)) space remark

/-- A label and a number, with tabs. -/
theorem lineForm_number : LineForm "\tB2:DAT\t+0xFf".toList mixedProgram[1] := by
  have tab : Spacing ['\t'] := spacing_of_all rfl
  have dat : Spells "DAT".toList "DAT" := rfl
  have label : IsName "B2".toList := isName_of_all rfl rfl
  have byte : NumeralForm "+0xFf".toList 255 :=
    .plus (.hexadecimal (.inl rfl) (hexadecimal?_eq_some_iff.1 (by decide +kernel)))
  have statement := StatementForm.data (.inl dat) ⟨by decide, tab⟩ (.number byte)
  exact LineForm.line tab (.labelled label spacing_nil spacing_nil (.some statement)) spacing_nil
    .none

/-- An origin in lower case. -/
theorem lineForm_origin : LineForm "org 40".toList mixedProgram[2] := by
  have space : Spacing [' '] := spacing_of_all rfl
  have org : Spells "org".toList "ORG" := rfl
  have forty : NumeralForm "40".toList 40 := .unsigned (.decimal (decimal?_eq_some_iff.1 rfl))
  have statement := StatementForm.origin org ⟨by decide, space⟩ forty
  exact LineForm.line spacing_nil (.plain (.some statement)) spacing_nil .none

/-- Two counts with a zero in front and an index suffix. -/
theorem lineForm_counts : LineForm "TXI 010 ,\t255,X".toList mixedProgram[3] := by
  have space : Spacing [' '] := spacing_of_all rfl
  have tab : Spacing ['\t'] := spacing_of_all rfl
  have txi : Spells "TXI".toList Operation.txi.mnemonic := rfl
  have ten : NumeralForm "010".toList 10 := .unsigned (.decimal (decimal?_eq_some_iff.1 rfl))
  have limit : NumeralForm "255".toList 255 := .unsigned (.decimal (decimal?_eq_some_iff.1 rfl))
  have counts : ArgumentForm .txi "010 ,\t255".toList (.counts 10 255) :=
    ArgumentForm.counts rfl ten space tab limit
  have index : SuffixForm ",X".toList true := SuffixForm.index spacing_nil spacing_nil (.inr rfl)
  have statement := StatementForm.instruction txi ⟨by decide, space⟩ counts index
  exact LineForm.line spacing_nil (.plain (.some statement)) spacing_nil .none

/-- A reference with two signs and an empty comment. -/
theorem lineForm_reference : LineForm "DATA b2+-1;".toList mixedProgram[4] := by
  have space : Spacing [' '] := spacing_of_all rfl
  have data : Spells "DATA".toList "DATA" := rfl
  have label : IsName "b2".toList := isName_of_all rfl rfl
  have minusOne : NumeralForm "-1".toList (-1) := .minus (.decimal (decimal?_eq_some_iff.1 rfl))
  have operand : OperandForm "b2+-1".toList (.reference ⟨"B2", -1⟩) :=
    OperandForm.plus label spacing_nil spacing_nil minusOne
  have statement := StatementForm.data (.inr data) ⟨by decide, space⟩ operand
  exact LineForm.line spacing_nil (.plain (.some statement)) spacing_nil (.some (by decide))

/-- The text in a mixed hand is a form of the program. -/
theorem sourceForm_mixed : SourceForm mixedText.toList mixedProgram := by
  have lines : mixedText.toList = "Loop : tsx lOOp - 0x0 , x ; a:b\r".toList ++ '\n' ::
      ("\tB2:DAT\t+0xFf".toList ++ '\n' :: ("org 40".toList ++ '\n' ::
        ("TXI 010 ,\t255,X".toList ++ '\n' :: "DATA b2+-1;".toList))) := by simp [mixedText]
  rw [lines]
  exact .cons lineForm_call (.cons lineForm_number (.cons lineForm_origin
    (.cons lineForm_counts (.last lineForm_reference))))

/-- The program of the text in a mixed hand is well formed. -/
theorem wellFormed_mixed : WellFormed mixedProgram := by
  refine ⟨by decide, fun line member d asks => ?_⟩
  have loopAt : Layout.LabelAt mixedProgram "LOOP" 0 := ⟨[], _, _, rfl, rfl, rfl⟩
  have b2At : Layout.LabelAt mixedProgram "B2" 1 := ⟨[mixedProgram[0]], _, _, rfl, rfl, rfl⟩
  simp only [mixedProgram, List.mem_cons, List.not_mem_nil, or_false] at member
  obtain rfl | rfl | rfl | rfl | rfl := member
  · obtain rfl := Option.some.inj asks
    exact .instruction (.operand (.reference loopAt)) (by decide)
  · obtain rfl := Option.some.inj asks
    exact .number (by decide)
  · obtain rfl := Option.some.inj asks
    exact .origin (by decide)
  · obtain rfl := Option.some.inj asks
    exact .instruction (.counts (by decide) (by decide)) (by decide)
  · obtain rfl := Option.some.inj asks
    exact .reference (.reference b2At) (by decide)

/-- The text in a mixed hand is accepted, and its image is the one that the program denotes. -/
theorem assemble_wellFormed_mixed :
    SourceForm mixedText.toList mixedProgram ∧ WellFormed mixedProgram ∧
      mixedText.length < 2 ^ 63 ∧
      assemble mixedText = .ok ⟨[⟨0, [0x13020000, 0xFF]⟩, ⟨40, [0x15020AFF, 0]⟩]⟩ ∧
      ∃ image, assemble mixedText = .ok image ∧
        ∀ other, ImageDenotes mixedProgram other ↔ other = image := by
  have small : mixedText.length < 2 ^ 63 := by decide
  exact ⟨sourceForm_mixed, wellFormed_mixed, small, rfl,
    assemble_wellFormed sourceForm_mixed wellFormed_mixed small⟩

end DirectionCentral.Assembly

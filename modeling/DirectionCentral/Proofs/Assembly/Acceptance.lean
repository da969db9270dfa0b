import DirectionCentral.Proofs.Assembly.Reading

/-!
# Accepting the notation

Whatever a text says, the reader of lines accepts, if there is a statement that can hold it
(`readLine_of_lineText`). With `lineText_of_readLine`, which is the other direction, the lines that
are read without a fault are exactly those that say a line whose numbers fit their fields.
-/

namespace DirectionCentral.Assembly

open Text

variable {text : List Char} {s : Statement}

/-! ## Operands -/

/-- An operand that the trimmed text says is read. -/
theorem readOperand_of_operandText {o : Operand} (said : OperandText (trim text) o) :
    readOperand text = .ok o := by
  have signs : (fun c => !(c == '+' || c == '-')) = (!isSign ·) := rfl
  unfold readOperand
  dsimp only
  cases said with
  | number number => rw [number?_eq_some_iff.2 number]
  | @reference name rest offset other cut identifier tail =>
    rw [number?_eq_none_iff.2 other]
    simp only [signs, cut.eq.1, cut.eq.2, identifier, if_true]
    cases tail with
    | none => rfl
    | plus number =>
      simp only [number?_eq_some_iff.2 number]
      rfl
    | minus number =>
      simp only [number?_eq_some_iff.2 number]
      rfl

/-- The index suffix that a text has is split off. -/
theorem splitIndex_of_indexText {body : List Char} {indexed : Bool}
    (said : IndexText text body indexed) : splitIndex text = (body, indexed) := by
  obtain ⟨front, flag⟩ := (indexText_splitIndex text).unique said
  rw [← front, ← flag]

/-- A number of one byte is read as one of the two numbers of `TXI`. -/
theorem readCount_of_operandText {value : Int} (said : OperandText (trim text) (.number value))
    (byte : 0 ≤ value ∧ value ≤ 255) : readCount text = .ok value.toNat := by
  rw [readCount, readOperand_of_operandText said]
  exact if_pos byte

/-- Two numbers of one byte on the sides of the first comma are read as the numbers of `TXI`. -/
theorem readCounts_of_cutAt {first second : List Char} {increment limit : Int}
    (cut : CutAt (· == ',') text first (',' :: second))
    (left : OperandText (trim first) (.number increment))
    (right : OperandText (trim second) (.number limit)) (high : 0 ≤ increment ∧ increment ≤ 255)
    (low : 0 ≤ limit ∧ limit ≤ 255) :
    readCounts text = .ok (UInt16.ofNat (256 * increment.toNat + limit.toNat)) := by
  have split := splitAtFirst_eq_some_iff.2 ⟨',', cut⟩
  rw [readCounts, split]
  simp only [readCount_of_operandText left high, readCount_of_operandText right low]
  rfl

/-! ## Statements -/

/-- A text that is not empty is an operand text. -/
theorem asOperand_of_ne_nil (present : text ≠ []) : asOperand text = some text := if_neg present

/-- An argument that a text says is read as an instruction that can hold it. -/
theorem readInstruction_of_argumentText {op : Operation} {a : Argument} {indexed : Bool}
    (said : ArgumentText op text a indexed) (realizes : Realizes (.instruction op a indexed) s) :
    readInstruction op (asOperand text) = .ok s := by
  cases realizes with
  | instructionReference =>
    cases said with
    | operand other present index operand =>
      rw [asOperand_of_ne_nil present, readInstruction, splitIndex_of_indexText index]
      simp only [other, if_false, readOperand_of_operandText operand]
      rfl
  | @instruction _ _ _ address argument =>
    -- The argument comes to the same value wherever labels are, so it refers to none.
    have value := argument fun _ _ => False
    generalize same : (address.toNat : Int) = n at value
    cases value with
    | none =>
      cases said with
      | none halts missing =>
        obtain rfl : address = 0 := UInt16.toNat_inj.1 (Int.natCast_eq_zero.1 same)
        rw [halts, missing]
        rfl
    | operand comes =>
      cases comes with
      | reference found => contradiction
      | number =>
        cases said with
        | operand other present index operand =>
          rw [asOperand_of_ne_nil present, readInstruction, splitIndex_of_indexText index]
          simp only [other, if_false, readOperand_of_operandText operand]
          change (toAddress n).bind _ = _
          rw [toAddress_eq_ok_iff.2 same]
          rfl
    | @counts increment limit high low =>
      cases said with
      | counts counts present index cut left right =>
        have field : UInt16.ofNat (256 * increment.toNat + limit.toNat) = address := by
          rw [← UInt16.toNat_inj, UInt16.toNat_ofNat']
          omega
        rw [asOperand_of_ne_nil present, readInstruction, splitIndex_of_indexText index]
        simp only [counts, if_true, readCounts_of_cutAt cut left right high low, field]
        rfl

/-- A number that is an address is read as the operand of `ORG`. -/
theorem readOrigin_of_operandText {address : Int}
    (said : OperandText (trim text) (.number address)) (realizes : Realizes (.origin address) s)
    (present : text ≠ []) : readOrigin (asOperand text) = .ok s := by
  rw [asOperand_of_ne_nil present, readOrigin, readOperand_of_operandText said]
  cases realizes with
  | origin start =>
    change (toAddress (start.toNat : Int)).bind _ = _
    rw [toAddress_eq_ok_iff.2 rfl]
    rfl

/-- The statement for an operand of data: a number must fit a word, and a reference is kept. -/
def dataStatement : Operand → Except Fault Statement
  | .number value =>
    if -0x80000000 ≤ value ∧ value ≤ 0xFFFFFFFF then .ok (.data value)
    else .error (.outOfRange value)
  | .reference reference => .ok (.dataReference reference)

/-- The operand of `DAT` is read as the statement for it. -/
theorem readData_of_operandText {o : Operand} (said : OperandText (trim text) o)
    (present : text ≠ []) : readData (asOperand text) = dataStatement o := by
  rw [asOperand_of_ne_nil present, readData, readOperand_of_operandText said]
  rfl

/-- What holds data is the statement for its operand. -/
theorem dataStatement_of_realizes {o : Operand} (realizes : Realizes (.data o) s) :
    dataStatement o = .ok s := by
  cases realizes with
  | data fits => exact if_pos fits
  | dataReference r => rfl

/-- The empty text says no operand. -/
theorem ne_nil_of_operandText {o : Operand} (said : OperandText text o) : text ≠ [] := by
  rintro rfl
  cases said with
  | number number =>
    have read := number?_eq_some_iff.2 number
    contradiction
  | reference other cut identifier tail =>
    have parts := List.append_eq_nil_iff.1 cut.whole.symm
    rw [parts.1] at identifier
    contradiction

/-- A statement is read by its mnemonic, which ends at the first blank. -/
theorem readStatement_eq {first rest : List Char} (cut : CutAt isBlank text first rest) :
    readStatement text =
      if upper first = "ORG".toList then readOrigin (asOperand (trim rest))
      else if upper first = "DAT".toList ∨ upper first = "DATA".toList then
        readData (asOperand (trim rest))
      else
        match Operation.ofMnemonic? (upper first) with
        | some op => readInstruction op (asOperand (trim rest))
        | none => .error (.unknownMnemonic (String.ofList (upper first))) := by
  obtain ⟨rest', found, operand⟩ := cutAt_blank text
  obtain ⟨rfl, rfl⟩ := found.unique cut
  unfold readStatement
  dsimp only
  generalize ((splitAtFirst isBlank text).2.map trim).filter (!·.isEmpty) = after at operand ⊢
  subst operand
  rfl

/-- A text that says data is read as the statement for its operand. -/
theorem readStatement_of_data {o : Operand} (said : StatementText text (.data o)) :
    readStatement text = dataStatement o := by
  cases said with
  | @data first rest _ cut name said =>
    have present := ne_nil_of_operandText said
    have other : upper first ≠ "ORG".toList := by
      intro origin
      rw [origin] at name
      revert name
      decide
    rw [← trim_trim] at said
    rw [readStatement_eq cut, if_neg other, if_pos name]
    exact readData_of_operandText said present

/-- A directive that a text says is read as a statement that can hold it. -/
theorem readStatement_of_statementText {d : Directive} (said : StatementText text d)
    (realizes : Realizes d s) : readStatement text = .ok s := by
  cases said with
  | origin cut name said =>
    have present := ne_nil_of_operandText said
    rw [← trim_trim] at said
    rw [readStatement_eq cut, if_pos name]
    exact readOrigin_of_operandText said realizes present
  | data cut name said =>
    rw [readStatement_of_data (.data cut name said), dataStatement_of_realizes realizes]
  | instruction cut name said =>
    obtain ⟨noOrigin, noData⟩ := not_directive_of_mnemonic name
    rw [readStatement_eq cut]
    simp only [noOrigin, noData, if_false, name]
    exact readInstruction_of_argumentText said realizes

/-- A directive that a text says, or nothing, is read. -/
theorem readOptionalStatement_of_optionalText {d? : Option Directive} {s? : Option Statement}
    (said : OptionalText text d?) (realizes : Option.Rel Realizes d? s?) :
    readOptionalStatement text = .ok s? := by
  cases said with
  | none missing =>
    cases realizes
    rw [missing]
    rfl
  | some present said =>
    cases realizes with
    | some realizes =>
      rw [readOptionalStatement, if_neg (by simpa using present),
        readStatement_of_statementText said realizes]
      rfl

/-- A line that a text says is read, if a statement can hold its directive. -/
theorem readLine_of_lineText {line : Line} {s? : Option Statement} (said : LineText text line)
    (realizes : Option.Rel Realizes line.directive? s?) :
    readLine text = .ok ⟨line.label?, .ok s?⟩ := by
  cases said with
  | plain cut said =>
    rw [readLine, splitAtFirst_eq_none_iff.2 cut]
    simp only [readOptionalStatement_of_optionalText said realizes]
  | labelled cut identifier said =>
    rw [readLine, splitAtFirst_eq_some_iff.2 ⟨':', cut⟩]
    simp only [identifier, if_true, readOptionalStatement_of_optionalText said realizes]

end DirectionCentral.Assembly

import DirectionCentral.Proofs.Assembly.Reading
import DirectionCentral.Proofs.Disassembly.Shape
import DirectionCentral.Proofs.Instruction.Fields

/-!
# Reading a disassembled word

The reader of assembly text reads the text of a word as the instruction with the fields of the word,
and refuses it if the word has no operation, since question marks are no mnemonic
(`readLine_wordChars`). The suffix `,X` and the comma between two counts are told apart by what
follows the last comma.
-/

namespace DirectionCentral.Disassembly

open Text Assembly

/-! ## Operands -/

/-- A numeral has no comma. -/
theorem free_comma (n : Nat) : ∀ c ∈ decimal n, (c == ',') = false := by
  intro c member
  rw [beq_eq_false_iff_ne]
  rintro rfl
  exact not_mem_decimal rfl member

/-- A numeral is no index suffix. -/
theorem sameLetters_decimal (n : Nat) : sameLetters (decimal n) ['X'] = false := by
  rw [sameLetters, beq_eq_false_iff_ne]
  intro same
  cases digits : decimal n with
  | nil => exact decimal_ne_nil n digits
  | cons c rest =>
    rw [digits, List.map_cons, List.map_cons] at same
    have digit : c.isDigit = true := isDigit_of_mem_decimal (n := n) (by simp [digits])
    have letter : c.toLower = 'x' := (List.cons.inj same).1
    have lower : c.toLower = c := by
      simp only [Char.isDigit, Bool.and_eq_true, decide_eq_true_eq] at digit
      refine dif_neg fun upper => ?_
      have := UInt32.le_trans upper.1 digit.2
      contradiction
    rw [lower] at letter
    rw [letter] at digit
    contradiction

/-- The suffix of a body without one is split off. -/
theorem splitIndex_suffix {body : List Char} (trimmed : trim body = body)
    (direct : splitIndex body = (body, false)) (indexed : Bool) :
    splitIndex (body ++ suffix indexed) = (body, indexed) := by
  cases indexed with
  | false => rw [suffix, if_neg (by decide), List.append_nil, direct]
  | true =>
    have split : splitAtLast (· == ',') (body ++ [',', 'X']) = some (body, ['X']) :=
      splitAtLast_eq_some_iff.2 ⟨',', rfl, rfl, by simp⟩
    have x : sameLetters (trim ['X']) ['X'] = true := by decide
    rw [suffix, if_pos rfl, splitIndex, split]
    simp only [x, if_true, trimmed]

/-- A numeral has no index suffix. -/
theorem splitIndex_decimal (n : Nat) : splitIndex (decimal n) = (decimal n, false) := by
  rw [splitIndex, splitAtLast_eq_none_iff.2 (free_comma n)]

/-- Two numerals have no index suffix. -/
theorem splitIndex_counts (increment limit : Nat) :
    splitIndex (decimal increment ++ ',' :: decimal limit) =
      (decimal increment ++ ',' :: decimal limit, false) := by
  have split : splitAtLast (· == ',') (decimal increment ++ ',' :: decimal limit) =
      some (decimal increment, decimal limit) :=
    splitAtLast_eq_some_iff.2 ⟨',', rfl, rfl, free_comma limit⟩
  rw [splitIndex, split]
  simp only [trim_decimal, sameLetters_decimal, Bool.false_eq_true, if_false]

/-- The two counts are the bytes of the address. -/
theorem counts_eq_address (i : Instruction) :
    UInt16.ofNat (256 * i.increment.toNat + i.limit.toNat) = i.address := by
  rw [Instruction.toNat_increment, Instruction.toNat_limit, Nat.div_add_mod, UInt16.ofNat_toNat]

/-- Two numerals are read as the bytes of an address. -/
theorem readCounts_counts (i : Instruction) :
    readCounts (decimal i.increment.toNat ++ ',' :: decimal i.limit.toNat) = .ok i.address := by
  have split : splitAtFirst (· == ',') (decimal i.increment.toNat ++ ',' :: decimal i.limit.toNat) =
      (decimal i.increment.toNat, some (decimal i.limit.toNat)) := by
    refine splitAtFirst_eq_some_iff.2 ⟨',', rfl, free_comma _, fun c first => ?_⟩
    obtain rfl := Option.some.inj first
    rfl
  have high := i.increment.toNat_lt
  have low := i.limit.toNat_lt
  rw [readCounts, split]
  simp only [readCount_decimal (Nat.le_of_lt_succ high), readCount_decimal (Nat.le_of_lt_succ low),
    Except.bind, counts_eq_address]

/-- A numeral of 16 bits is read as an address. -/
theorem readInstruction_operand {op : Operation} (other : op ≠ .txi) (address : UInt16)
    (indexed : Bool) :
    readInstruction op (some (decimal address.toNat ++ suffix indexed)) =
      .ok (.instruction op address indexed) := by
  have bound := address.toNat_lt
  have inside : toAddress address.toNat = .ok address := toAddress_eq_ok_iff.2 rfl
  rw [readInstruction, splitIndex_suffix (trim_decimal _) (splitIndex_decimal _)]
  simp only [other, if_false, readOperand_decimal (n := address.toNat) (by omega), Except.bind,
    inside]

/-- Two numerals are read as the counts of `TXI`. -/
theorem readInstruction_counts (i : Instruction) :
    readInstruction .txi
        (some (decimal i.increment.toNat ++ ',' :: decimal i.limit.toNat ++ suffix i.indexed)) =
      .ok (.instruction .txi i.address i.indexed) := by
  have trimmed : Text.trim (decimal i.increment.toNat ++ ',' :: decimal i.limit.toNat) =
      decimal i.increment.toNat ++ ',' :: decimal i.limit.toNat := by
    refine trim_of_free fun c member => ?_
    obtain member | rfl | member : c ∈ decimal i.increment.toNat ∨ c = ',' ∨
        c ∈ decimal i.limit.toNat := by simpa using member
    · exact isBlank_of_isDigit (isDigit_of_mem_decimal member)
    · rfl
    · exact isBlank_of_isDigit (isDigit_of_mem_decimal member)
  rw [readInstruction, splitIndex_suffix trimmed (splitIndex_counts _ _)]
  simp only [if_true, readCounts_counts, Except.bind]

/-! ## Statements -/

/-- A name without blanks is split off at the blank after it. -/
theorem splitAtFirst_name {name : List Char} (free : ∀ c ∈ name, isBlank c = false)
    (operand : List Char) :
    splitAtFirst isBlank (name ++ ' ' :: operand) = (name, some operand) := by
  refine splitAtFirst_eq_some_iff.2 ⟨' ', rfl, free, fun c first => ?_⟩
  obtain rfl := Option.some.inj first
  rfl

/-- A mnemonic and an operand without blanks are read as an operation with the operand. -/
theorem readStatement_mnemonic (op : Operation) {operand : List Char} (present : operand ≠ [])
    (free : ∀ c ∈ operand, isBlank c = false) :
    readStatement (op.mnemonic.toList ++ ' ' :: operand) = readInstruction op (some operand) := by
  obtain ⟨-, nonblank, capitals⟩ := mnemonic_plain op
  have mnemonic := Operation.ofMnemonic?_mnemonic op
  obtain ⟨noOrigin, noData⟩ := not_directive_of_mnemonic mnemonic
  have nonempty : operand.isEmpty = false := List.isEmpty_eq_false_iff.2 present
  rw [readStatement, splitAtFirst_name nonblank]
  simp only [capitals, noOrigin, noData, if_false, mnemonic, Option.map_some, trim_of_free free,
    Option.filter_some, nonempty, Bool.not_false, if_true]

/-- Question marks are no mnemonic. -/
theorem readStatement_unknown (operand : List Char) :
    readStatement ("???".toList ++ ' ' :: operand) = .error (.unknownMnemonic "???") := by
  have free : ∀ c ∈ "???".toList, isBlank c = false := by
    have nonblank : "???".toList.all (!isBlank ·) = true := rfl
    simpa using nonblank
  have capitals : upper "???".toList = "???".toList := by decide
  have noOrigin : "???".toList ≠ "ORG".toList := by decide
  have noData : ¬ ("???".toList = "DAT".toList ∨ "???".toList = "DATA".toList) := by decide
  have noMnemonic : Operation.ofMnemonic? "???".toList = none := by decide
  rw [readStatement, splitAtFirst_name free]
  simp only [capitals, noOrigin, noData, if_false, noMnemonic, String.ofList_toList]

/-- The statement that an instruction is read as. -/
def statementOf (i : Instruction) : Except Fault Statement :=
  match i.operation? with
  | some op => .ok (.instruction op i.address i.indexed)
  | none => .error (.unknownMnemonic "???")

/-- The text of an instruction is read as that instruction. -/
theorem Shape.readStatement {i : Instruction} {text : List Char} (shape : Shape i text) :
    Assembly.readStatement text = statementOf i := by
  have noBlank : ∀ c ∈ suffix i.indexed, isBlank c = false := by
    have nonblank : (suffix i.indexed).all (!isBlank ·) = true := by cases i.indexed <;> rfl
    simpa using nonblank
  have digits : ∀ n, ∀ c ∈ decimal n, isBlank c = false :=
    fun n c member => isBlank_of_isDigit (isDigit_of_mem_decimal member)
  cases shape with
  | halt performs zero direct =>
    rw [statementOf, performs, zero, direct]
    rfl
  | @operand op performs other =>
    rw [readStatement_mnemonic op, readInstruction_operand other, statementOf, performs]
    · simp [decimal_ne_nil]
    · rw [List.forall_mem_append]
      exact ⟨digits _, noBlank⟩
  | counts performs =>
    rw [readStatement_mnemonic .txi, readInstruction_counts, statementOf, performs]
    · simp
    · rw [List.forall_mem_append, List.forall_mem_append, List.forall_mem_cons]
      exact ⟨⟨digits _, rfl, digits _⟩, noBlank⟩
  | unknown performs => rw [readStatement_unknown, statementOf, performs]

/-- The text of a word is read as a line with the statement of its fields. -/
theorem readLine_wordChars (word : Word) :
    readLine (wordChars word) =
      .ok { statement := (statementOf (Instruction.decode word)).map some } := by
  have shape := shape_wordChars word
  have plain := shape.plain
  simp only [isPlain, Bool.and_eq_true, bne_iff_ne] at plain
  have noComment : splitAtFirst (· == ';') (wordChars word) = (wordChars word, none) := by
    refine splitAtFirst_eq_none_iff.2 ⟨(List.append_nil _).symm, fun c member => ?_, by simp⟩
    exact beq_eq_false_iff_ne.2 (plain c member).1.2
  have noLabel : splitAtFirst (· == ':') (wordChars word) = (wordChars word, none) := by
    refine splitAtFirst_eq_none_iff.2 ⟨(List.append_nil _).symm, fun c member => ?_, by simp⟩
    exact beq_eq_false_iff_ne.2 (plain c member).2
  have nonempty : (wordChars word).isEmpty = false := List.isEmpty_eq_false_iff.2 shape.ne_nil
  rw [readLine, code, noComment, shape.trim, noLabel]
  simp only [readOptionalStatement, nonempty, Bool.false_eq_true, if_false, shape.readStatement]

end DirectionCentral.Disassembly

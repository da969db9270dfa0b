import DirectionCentral.Proofs.Assembly.Layout
import DirectionCentral.Proofs.Outcome

/-!
# Reading the notation

Whatever the reader of lines accepts, the text says. A statement realizes a directive when its
fields hold the numbers of the directive, so that nothing is cut off (`Realizes`). A line that is
read without a fault says one line of the notation, with its label and with a directive that its
statement realizes (`lineText_of_readLine`).
-/

namespace DirectionCentral.Assembly

open Text

/-- A statement holds what a directive asks for. -/
inductive Realizes : Directive → Statement → Prop
  /-- An origin is an address. -/
  | origin (address : UInt16) : Realizes (.origin address.toNat) (.origin address)
  /-- A number fits a word, signed or not. -/
  | data {value : Int} (fits : -0x80000000 ≤ value ∧ value ≤ 0xFFFFFFFF) :
      Realizes (.data (.number value)) (.data value)
  /-- A reference is kept. -/
  | dataReference (r : Reference) : Realizes (.data (.reference r)) (.dataReference r)
  /-- The address of an instruction is what its argument comes to, wherever labels are. -/
  | instruction {op : Operation} {a : Argument} {indexed : Bool} {address : UInt16}
      (argument : ∀ addressOf, ArgumentValue addressOf a address.toNat) :
      Realizes (.instruction op a indexed) (.instruction op address indexed)
  /-- A reference is kept. -/
  | instructionReference (op : Operation) (r : Reference) (indexed : Bool) :
      Realizes (.instruction op (.operand (.reference r)) indexed)
        (.instructionReference op r indexed)

/-- A number that is taken for an address is that address. -/
theorem toAddress_eq_ok_iff {value : Int} {address : UInt16} :
    toAddress value = .ok address ↔ (address.toNat : Int) = value := by
  have bound := address.toNat_lt
  rw [toAddress]
  split
  · rename_i inside
    rw [Except.ok.injEq, ← UInt16.toNat_inj, UInt16.toNat_ofNat']
    omega
  · rename_i outside
    simp only [reduceCtorEq, false_iff]
    omega

/-! ## Operands -/

/-- The reader of operands reads what the trimmed text says. -/
theorem operandText_of_readOperand {text : List Char} {o : Operand}
    (read : readOperand text = .ok o) : OperandText (trim text) o := by
  unfold readOperand at read
  dsimp only at read
  cases number : number? (trim text) with
  | some value =>
    simp only [number, Except.ok.injEq] at read
    exact read ▸ .number (number?_eq_some_iff.1 number)
  | none =>
    simp only [number] at read
    obtain ⟨offset, tail, read⟩ := bind_eq_ok_iff.1 read
    split at read
    · rename_i identifier
      obtain rfl := Except.ok.inj read
      have cut := cutAt_takeWhile isSign (trim text)
      refine .reference (number?_eq_none_iff.1 number) cut identifier ?_
      have signs : (fun c => !(c == '+' || c == '-')) = (!isSign ·) := rfl
      rw [signs] at tail
      cases dropped : (trim text).dropWhile (!isSign ·) with
      | nil =>
        simp only [dropped, Except.ok.injEq] at tail
        exact tail ▸ .none
      | cons sign rest =>
        have stop := cut.stopped sign (by rw [dropped]; rfl)
        simp only [dropped] at tail
        cases value : number? (trim rest) with
        | none => simp [value, refuse] at tail
        | some n =>
          simp only [value, Except.ok.injEq] at tail
          simp only [isSign, Bool.or_eq_true, beq_iff_eq] at stop
          obtain rfl | rfl := stop
          · exact tail ▸ .plus (number?_eq_some_iff.1 value)
          · exact tail ▸ .minus (number?_eq_some_iff.1 value)
    · contradiction

/-- The index suffix is split off where the text has it. -/
theorem indexText_splitIndex (text : List Char) :
    IndexText text (splitIndex text).1 (splitIndex text).2 := by
  rw [splitIndex]
  cases split : splitAtLast (· == ',') text with
  | none =>
    refine .direct fun front suffix whole _ => ?_
    have free := splitAtLast_eq_none_iff.1 split ',' (by simp [whole])
    contradiction
  | some parts =>
    obtain ⟨front, suffix⟩ := parts
    obtain ⟨c, stops, whole, last⟩ := splitAtLast_eq_some_iff.1 split
    obtain rfl : c = ',' := by simpa using stops
    cases x : sameLetters (trim suffix) ['X'] with
    | true =>
      simp only [x, if_true]
      exact .indexed whole last x
    | false =>
      simp only [x, Bool.false_eq_true, if_false]
      refine .direct fun front' suffix' whole' last' => ?_
      have split' := splitAtLast_eq_some_iff.2 ⟨',', by decide, whole', last'⟩
      obtain ⟨rfl, rfl⟩ := Prod.mk.inj (Option.some.inj (split.symm.trans split'))
      exact x

/-- One of the two numbers of `TXI` is a byte. -/
theorem operandText_of_readCount {text : List Char} {n : Nat} (read : readCount text = .ok n) :
    OperandText (trim text) (.number n) ∧ n ≤ 255 := by
  obtain ⟨o, operand, read⟩ := bind_eq_ok_iff.1 read
  cases o with
  | reference r => simp [refuse] at read
  | number value =>
    simp only at read
    split at read
    · rename_i byte
      obtain rfl := Except.ok.inj read
      have same : ((value.toNat : Nat) : Int) = value := Int.toNat_of_nonneg byte.1
      rw [same]
      exact ⟨operandText_of_readOperand operand, by omega⟩
    · contradiction

/-- The two numbers of `TXI` are read on the sides of the first comma. -/
theorem counts_of_readCounts {text : List Char} {address : UInt16}
    (read : readCounts text = .ok address) :
    ∃ first second, ∃ increment limit : Int, CutAt (· == ',') text first (',' :: second) ∧
      OperandText (trim first) (.number increment) ∧ OperandText (trim second) (.number limit) ∧
      ∀ addressOf, ArgumentValue addressOf (.counts increment limit) address.toNat := by
  rw [readCounts] at read
  split at read
  · simp [refuse] at read
  · rename_i first second parts
    obtain ⟨c, cut⟩ := splitAtFirst_eq_some_iff.1 parts
    obtain rfl : c = ',' := by simpa using cut.stopped c rfl
    obtain ⟨increment, left, read⟩ := bind_eq_ok_iff.1 read
    obtain ⟨limit, right, read⟩ := bind_eq_ok_iff.1 read
    obtain ⟨left, high⟩ := operandText_of_readCount left
    obtain ⟨right, low⟩ := operandText_of_readCount right
    refine ⟨first, second, increment, limit, cut, left, right, fun addressOf => ?_⟩
    obtain rfl := Except.ok.inj read
    have same : (UInt16.ofNat (256 * increment + limit)).toNat = 256 * increment + limit := by
      rw [UInt16.toNat_ofNat']
      omega
    rw [same]
    push_cast
    exact .counts (by omega) (by omega)

/-! ## Statements -/

/-- An operand text, unless it is empty. -/
def asOperand (text : List Char) : Option (List Char) := if text = [] then none else some text

/-- Reading an instruction reads what its argument says. -/
theorem argumentText_of_readInstruction {op : Operation} {text : List Char} {s : Statement}
    (read : readInstruction op (asOperand text) = .ok s) :
    ∃ a indexed, ArgumentText op text a indexed ∧ Realizes (.instruction op a indexed) s := by
  by_cases missing : text = []
  · simp only [asOperand, missing, if_true, readInstruction] at read
    split at read
    · simp [refuse] at read
    · rename_i halts
      obtain rfl := Except.ok.inj read
      have halts : op = .hlt := by simpa [Operation.takesAddress] using halts
      exact ⟨.none, false, .none halts missing, .instruction fun _ => .none⟩
  · simp only [asOperand, missing, if_false, readInstruction] at read
    have index := indexText_splitIndex text
    split at read
    · rename_i counts
      obtain ⟨address, parts, read⟩ := bind_eq_ok_iff.1 read
      obtain rfl := Except.ok.inj read
      obtain ⟨first, second, increment, limit, cut, left, right, argument⟩ :=
        counts_of_readCounts parts
      exact ⟨.counts increment limit, _, .counts counts missing index cut left right,
        .instruction argument⟩
    · rename_i other
      obtain ⟨o, operand, read⟩ := bind_eq_ok_iff.1 read
      have said := operandText_of_readOperand operand
      refine ⟨.operand o, _, .operand other missing index said, ?_⟩
      cases o with
      | reference r =>
        obtain rfl := Except.ok.inj read
        exact .instructionReference op r _
      | number value =>
        obtain ⟨address, inside, read⟩ := bind_eq_ok_iff.1 read
        obtain rfl := Except.ok.inj read
        obtain rfl := toAddress_eq_ok_iff.1 inside
        exact .instruction fun _ => .operand (.number _)

/-- Reading the operand of `ORG` reads the number that it says. -/
theorem operandText_of_readOrigin {text : List Char} {s : Statement}
    (read : readOrigin (asOperand text) = .ok s) :
    ∃ address, OperandText (trim text) (.number address) ∧ Realizes (.origin address) s := by
  by_cases missing : text = []
  · simp [asOperand, missing, readOrigin, refuse] at read
  · simp only [asOperand, missing, if_false, readOrigin] at read
    obtain ⟨o, operand, read⟩ := bind_eq_ok_iff.1 read
    cases o with
    | reference r => simp [refuse] at read
    | number value =>
      obtain ⟨address, inside, read⟩ := bind_eq_ok_iff.1 read
      obtain rfl := Except.ok.inj read
      obtain rfl := toAddress_eq_ok_iff.1 inside
      exact ⟨_, operandText_of_readOperand operand, .origin address⟩

/-- Reading the operand of `DAT` reads what it says. -/
theorem operandText_of_readData {text : List Char} {s : Statement}
    (read : readData (asOperand text) = .ok s) :
    ∃ o, OperandText (trim text) o ∧ Realizes (.data o) s := by
  by_cases missing : text = []
  · simp [asOperand, missing, readData, refuse] at read
  · simp only [asOperand, missing, if_false, readData] at read
    obtain ⟨o, operand, read⟩ := bind_eq_ok_iff.1 read
    refine ⟨o, operandText_of_readOperand operand, ?_⟩
    cases o with
    | reference r =>
      obtain rfl := Except.ok.inj read
      exact .dataReference r
    | number value =>
      simp only at read
      split at read
      · rename_i fits
        obtain rfl := Except.ok.inj read
        exact .data fits
      · contradiction

/-- A statement is cut at its first blank, and what follows is its operand. -/
theorem cutAt_blank (text : List Char) :
    ∃ rest, CutAt isBlank text (splitAtFirst isBlank text).1 rest ∧
      ((splitAtFirst isBlank text).2.map trim).filter (!·.isEmpty) = asOperand (trim rest) := by
  cases parts : splitAtFirst isBlank text with
  | mk first rest? =>
    cases rest? with
    | none => exact ⟨[], splitAtFirst_eq_none_iff.1 parts, rfl⟩
    | some rest =>
      obtain ⟨blank, cut⟩ := splitAtFirst_eq_some_iff.1 parts
      refine ⟨blank :: rest, cut, ?_⟩
      have same : trim (blank :: rest) = trim rest := by
        rw [trim, List.dropWhile_cons_of_pos (cut.stopped blank rfl), trim]
      rw [same, Option.map_some, asOperand]
      cases trim rest with
      | nil => rfl
      | cons c tail => rfl

/-- The reader of statements reads what the text says. -/
theorem statementText_of_readStatement {text : List Char} {s : Statement}
    (read : readStatement text = .ok s) : ∃ d, StatementText text d ∧ Realizes d s := by
  obtain ⟨rest, cut, operand⟩ := cutAt_blank text
  unfold readStatement at read
  dsimp only at read
  rw [operand] at read
  split at read
  · rename_i name
    obtain ⟨address, said, realizes⟩ := operandText_of_readOrigin read
    rw [trim_trim] at said
    exact ⟨_, .origin cut name said, realizes⟩
  · split at read
    · rename_i name
      obtain ⟨o, said, realizes⟩ := operandText_of_readData read
      rw [trim_trim] at said
      exact ⟨_, .data cut name said, realizes⟩
    · split at read
      · rename_i op name
        obtain ⟨a, indexed, said, realizes⟩ := argumentText_of_readInstruction read
        exact ⟨_, .instruction cut name said, realizes⟩
      · contradiction

/-- A text without a fault says a directive or nothing. -/
theorem optionalText_of_readOptionalStatement {text : List Char} {s? : Option Statement}
    (read : readOptionalStatement text = .ok s?) :
    ∃ d?, OptionalText text d? ∧ Option.Rel Realizes d? s? := by
  rw [readOptionalStatement] at read
  split at read
  · rename_i missing
    obtain rfl := Except.ok.inj read
    exact ⟨none, .none (List.isEmpty_iff.1 missing), .none⟩
  · rename_i present
    obtain ⟨s, accepted, rfl⟩ := map_eq_ok_iff.1 read
    obtain ⟨d, said, realizes⟩ := statementText_of_readStatement accepted
    exact ⟨some d, .some (fun missing => present (List.isEmpty_iff.2 missing)) said,
      .some realizes⟩

/-- A line that is read without a fault says a line with the same label and a directive that the
statement realizes. -/
theorem lineText_of_readLine {text : List Char} {source : SourceLine} {s? : Option Statement}
    (read : readLine text = .ok source) (statement : source.statement = .ok s?) :
    ∃ line, LineText text line ∧ line.label? = source.label? ∧
      Option.Rel Realizes line.directive? s? := by
  rw [readLine] at read
  split at read
  · rename_i whole parts
    obtain rfl := Except.ok.inj read
    have cut := splitAtFirst_eq_none_iff.1 parts
    obtain rfl : code text = whole := by simpa using cut.whole
    obtain ⟨d?, said, realizes⟩ := optionalText_of_readOptionalStatement statement
    exact ⟨⟨none, d?⟩, .plain cut said, rfl, realizes⟩
  · rename_i before after parts
    obtain ⟨c, cut⟩ := splitAtFirst_eq_some_iff.1 parts
    obtain rfl : c = ':' := by simpa using cut.stopped c rfl
    simp only at read
    split at read
    · rename_i identifier
      obtain rfl := Except.ok.inj read
      obtain ⟨d?, said, realizes⟩ := optionalText_of_readOptionalStatement statement
      exact ⟨⟨some _, d?⟩, .labelled cut identifier said, rfl, realizes⟩
    · simp [refuse] at read

end DirectionCentral.Assembly

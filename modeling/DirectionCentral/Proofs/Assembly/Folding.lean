import DirectionCentral.Assembly.Draft
import DirectionCentral.Proofs.Assembly.Numeral
import DirectionCentral.Proofs.Outcome
import DirectionCentral.Proofs.Text.LetterCase

/-!
# Reading folded text

Reading text in lower case is reading the text: whatever is read, from numbers to whole lines, is
the same, and what is refused is refused for the same fault (`readLine_fold`, `addLines_fold`). Only
the operand that a fault quotes is in lower case then (`Fault.folded`); labels and mnemonics are
quoted in capitals either way.
-/

namespace DirectionCentral.Assembly

open Text

/-! ## Faults -/

/-- A fault of form with the operand that it quotes in lower case. -/
def SyntaxFault.folded : SyntaxFault → SyntaxFault
  | .invalidOffset operand => .invalidOffset (String.ofList (fold operand.toList))
  | .invalidOperand operand => .invalidOperand (String.ofList (fold operand.toList))
  | fault => fault

/-- A fault with the operand that it quotes in lower case. -/
def Fault.folded : Fault → Fault
  | .form fault => .form fault.folded
  | fault => fault

/-- An error with the operand that it quotes in lower case. -/
def Error.folded (e : Error) : Error := { e with fault := e.fault.folded }

/-- What a line says, with the fault of its statement folded. -/
def SourceLine.folded (source : SourceLine) : SourceLine :=
  { source with statement := source.statement.mapError Fault.folded }

variable {α β : Type}

/-- A step whose faults quote no operand, in front of which another one is read. -/
theorem bind_folded {first : Except Fault α} {second : α → Except Fault β}
    (plain : ∀ a, (second a).mapError Fault.folded = second a) :
    (first.mapError Fault.folded).bind second = (first.bind second).mapError Fault.folded := by
  rw [mapError_bind]
  simp only [plain]

/-! ## Numbers -/

/-- A folded text does not begin with a sign if the text does not. -/
theorem Unsigned.fold {text : List Char} (unsigned : Unsigned text) : Unsigned (fold text) where
  minus _ begins :=
    have ⟨tail, same, _⟩ := (fold_eq_cons_iff rfl).1 begins
    unsigned.minus tail same
  plus _ begins :=
    have ⟨tail, same, _⟩ := (fold_eq_cons_iff rfl).1 begins
    unsigned.plus tail same

/-- Hexadecimal digits behind `0x` are read in lower case as they are. -/
theorem hexNumber?_fold (text : List Char) : hexNumber? (fold text) = hexNumber? text := by
  obtain ⟨rest, rfl⟩ | ⟨rest, rfl⟩ | unsigned := sign_cases text
  · exact congrArg (fun n? => (n?.map fun n => -(n : Int)).bind within64?) (hexadecimal?_fold rest)
  · exact congrArg (fun n? => (n?.map Int.ofNat).bind within64?) (hexadecimal?_fold rest)
  · rw [unsigned.fold.hexNumber?, unsigned.hexNumber?, hexadecimal?_fold]

/-- A number without a sign is read in lower case as it is. -/
theorem unsignedNumber?_fold (text : List Char) :
    unsignedNumber? (fold text) = unsignedNumber? text := by
  by_cases marked : ∃ x digits, text = '0' :: x :: digits ∧ (x = 'x' ∨ x = 'X')
  · obtain ⟨x, digits, rfl, rfl | rfl⟩ := marked
    · exact hexNumber?_fold digits
    · exact hexNumber?_fold digits
  · have other (x : Char) (digits : List Char) (same : text = '0' :: x :: digits) :
        (x == 'x' || x == 'X') = false := by
      rw [Bool.eq_false_iff, ne_eq, Bool.or_eq_true, beq_iff_eq, beq_iff_eq]
      exact fun letter => marked ⟨x, digits, same, letter⟩
    have folded (x : Char) (digits : List Char) (same : fold text = '0' :: x :: digits) :
        (x == 'x' || x == 'X') = false := by
      obtain ⟨tail, whole, rest⟩ := (fold_eq_cons_iff rfl).1 same
      obtain ⟨y, more, rfl, rfl, -⟩ := List.map_eq_cons_iff.1 rest
      have caseless : Caseless fun c => c == 'x' || c == 'X' :=
        toLower_invariant (fun c => c == 'x' || c == 'X') (by decide +kernel)
      exact (caseless y).trans (other y more whole)
    rw [unsignedNumber?_of_decimal folded, unsignedNumber?_of_decimal other, decimal?_fold]

/-- A number is read in lower case as it is. -/
theorem number?_fold (text : List Char) : number? (fold text) = number? text := by
  obtain ⟨rest, rfl⟩ | ⟨rest, rfl⟩ | unsigned := sign_cases text
  · exact congrArg (·.map fun value => wrap64 (-value)) (unsignedNumber?_fold rest)
  · exact unsignedNumber?_fold rest
  · rw [unsigned.fold.number?, unsigned.number?, unsignedNumber?_fold]

/-! ## Operands -/

/-- An operand is read in lower case as it is. -/
theorem readOperand_fold (text : List Char) :
    readOperand (fold text) = (readOperand text).mapError Fault.folded := by
  have signs : Caseless fun c => c == '+' || c == '-' :=
    toLower_invariant (fun c => c == '+' || c == '-') (by decide +kernel)
  have quoted : String.ofList (fold (trim text)) =
      String.ofList (fold (String.ofList (trim text)).toList) := by rw [String.toList_ofList]
  unfold readOperand
  dsimp only
  rw [trim_fold, number?_fold, takeWhile_fold signs.not, dropWhile_fold signs.not]
  cases number? (trim text) with
  | some value => rfl
  | none =>
    dsimp only
    rw [mapError_bind, trim_fold, upper_fold]
    congr 1
    · cases (trim text).dropWhile fun c => !(c == '+' || c == '-') with
      | nil => rfl
      | cons sign rest =>
        have minus : sign.toLower = '-' ↔ sign = '-' := toLower_eq_iff rfl
        have folded : fold (sign :: rest) = sign.toLower :: fold rest := rfl
        simp only [folded, trim_fold, number?_fold, minus]
        cases number? (trim rest) with
        | some n => rfl
        | none => exact congrArg (refuse <| .invalidOffset ·) quoted
    · funext offset
      split
      · rfl
      · exact congrArg (refuse <| .invalidOperand ·) quoted

/-- A number of `TXI` is read in lower case as it is. -/
theorem readCount_fold (text : List Char) :
    readCount (fold text) = (readCount text).mapError Fault.folded := by
  rw [readCount, readOperand_fold]
  refine bind_folded fun o => ?_
  cases o with
  | reference r => rfl
  | number value =>
    dsimp only
    split <;> rfl

/-- The numbers of `TXI` are read in lower case as they are. -/
theorem readCounts_fold (text : List Char) :
    readCounts (fold text) = (readCounts text).mapError Fault.folded := by
  rw [readCounts, splitAtFirst_fold (caseless_beq rfl), readCounts]
  cases splitAtFirst (· == ',') text with
  | mk first second =>
    cases second with
    | none => rfl
    | some second =>
      simp only [Option.map_some, readCount_fold, mapError_bind]
      rfl

/-- The index suffix is split off in lower case as it is. -/
theorem splitIndex_fold (text : List Char) :
    splitIndex (fold text) = (fold (splitIndex text).1, (splitIndex text).2) := by
  rw [splitIndex, splitAtLast_fold (caseless_beq rfl), splitIndex]
  cases splitAtLast (· == ',') text with
  | none => rfl
  | some parts =>
    simp only [Option.map_some, trim_fold, sameLetters_fold]
    split <;> rfl

/-! ## Statements -/

/-- An address is refused without a quotation. -/
theorem toAddress_folded (value : Int) :
    (toAddress value).mapError Fault.folded = toAddress value := by
  rw [toAddress]
  split <;> rfl

/-- An instruction is read in lower case as it is. -/
theorem readInstruction_fold (op : Operation) (operand : Option (List Char)) :
    readInstruction op (operand.map fold) =
      (readInstruction op operand).mapError Fault.folded := by
  cases operand with
  | none =>
    rw [Option.map_none, readInstruction]
    split <;> rfl
  | some text =>
    rw [Option.map_some, readInstruction, readInstruction, splitIndex_fold]
    dsimp only
    split
    · rw [readCounts_fold]
      exact bind_folded fun _ => rfl
    · rw [readOperand_fold]
      refine bind_folded fun o => ?_
      cases o with
      | reference r => rfl
      | number value =>
        dsimp only
        rw [mapError_bind, toAddress_folded]
        rfl

/-- The operand of `ORG` is read in lower case as it is. -/
theorem readOrigin_fold (operand : Option (List Char)) :
    readOrigin (operand.map fold) = (readOrigin operand).mapError Fault.folded := by
  cases operand with
  | none => rfl
  | some text =>
    rw [Option.map_some, readOrigin, readOperand_fold]
    refine bind_folded fun o => ?_
    cases o with
    | reference r => rfl
    | number value =>
      dsimp only
      rw [mapError_bind, toAddress_folded]
      rfl

/-- The operand of `DAT` is read in lower case as it is. -/
theorem readData_fold (operand : Option (List Char)) :
    readData (operand.map fold) = (readData operand).mapError Fault.folded := by
  cases operand with
  | none => rfl
  | some text =>
    rw [Option.map_some, readData, readOperand_fold]
    refine bind_folded fun o => ?_
    cases o with
    | reference r => rfl
    | number value =>
      dsimp only
      split <;> rfl

/-- A statement is read in lower case as it is. -/
theorem readStatement_fold (text : List Char) :
    readStatement (fold text) = (readStatement text).mapError Fault.folded := by
  unfold readStatement
  rw [splitAtFirst_fold caseless_isBlank]
  dsimp only
  have operand : (((splitAtFirst isBlank text).2.map fold).map trim).filter (!·.isEmpty) =
      (((splitAtFirst isBlank text).2.map trim).filter (!·.isEmpty)).map fold := by
    have trimmed : trim ∘ fold = fold ∘ trim := funext trim_fold
    have nonempty : ((!·.isEmpty) ∘ fold : List Char → Bool) = (!·.isEmpty) :=
      funext fun text => congrArg Bool.not (isEmpty_fold text)
    rw [Option.map_map, trimmed, ← Option.map_map, Option.filter_map, nonempty]
  rw [operand, upper_fold, readOrigin_fold, readData_fold]
  split
  · rfl
  · split
    · rfl
    · cases Operation.ofMnemonic? (upper (splitAtFirst isBlank text).1) with
      | none => rfl
      | some op => exact readInstruction_fold op _

/-- A statement or nothing is read in lower case as it is. -/
theorem readOptionalStatement_fold (text : List Char) :
    readOptionalStatement (fold text) =
      (readOptionalStatement text).mapError Fault.folded := by
  rw [readOptionalStatement, isEmpty_fold, readOptionalStatement]
  split
  · rfl
  · rw [readStatement_fold, mapError_map]

/-! ## Lines -/

/-- The code of a line in lower case is its code in lower case. -/
theorem code_fold (line : List Char) : code (fold line) = fold (code line) := by
  rw [code, splitAtFirst_fold (caseless_beq rfl), trim_fold, code]

/-- A line is read in lower case as it is. -/
theorem readLine_fold (line : List Char) :
    readLine (fold line) = ((readLine line).map SourceLine.folded).mapError Fault.folded := by
  rw [readLine, code_fold, splitAtFirst_fold (caseless_beq rfl), readLine]
  cases splitAtFirst (· == ':') (code line) with
  | mk before after =>
    cases after with
    | none =>
      simp only [Option.map_none, readOptionalStatement_fold]
      rfl
    | some after =>
      simp only [Option.map_some, trim_fold, upper_fold, readOptionalStatement_fold]
      split <;> rfl

variable (d : Draft) (number : Nat)

/-- A label is refused in capitals. -/
theorem define_folded (label : String) :
    (d.define label).mapError Fault.folded = d.define label := by
  rw [Draft.define]
  split <;> rfl

/-- What a line says is added with a folded fault as it is. -/
theorem addSourceLine_folded (source : SourceLine) :
    d.addSourceLine number source.folded =
      (d.addSourceLine number source).mapError Fault.folded := by
  rw [Draft.addSourceLine, Draft.addSourceLine, mapError_bind]
  simp only [mapError_map]
  congr 1
  obtain ⟨_ | label, statement⟩ := source
  · rfl
  · exact (define_folded d label).symm

/-- A line is added in lower case as it is. -/
theorem addLine_fold (line : List Char) :
    d.addLine number (fold line) = (d.addLine number line).mapError Error.folded := by
  rw [Draft.addLine, readLine_fold, Draft.addLine]
  cases readLine line with
  | error fault => rfl
  | ok source =>
    change ((d.addSourceLine number source.folded).mapError _) = _
    rw [addSourceLine_folded]
    change _ = ((d.addSourceLine number source).mapError _).mapError _
    cases d.addSourceLine number source <;> rfl

/-- Lines are added in lower case as they are. -/
theorem addLines_fold (lines : List (List Char)) :
    d.addLines number (lines.map fold) =
      (d.addLines number lines).mapError Error.folded := by
  induction lines generalizing d number with
  | nil => rfl
  | cons line rest ih =>
    rw [List.map_cons, Draft.addLines, addLine_fold, Draft.addLines, mapError_bind]
    simp only [ih]

end DirectionCentral.Assembly

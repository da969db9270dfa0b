import DirectionCentral.Assembly.Error
import DirectionCentral.Assembly.Number
import DirectionCentral.Text.Blank
import DirectionCentral.Text.Lines
import DirectionCentral.Text.UpperCase

/-!
# Statements

What a line of assembly text says: an optional label, and at most one statement. A statement opens a
segment, or puts down one word, whose address field or value is a number or refers to a label.

Blanks around the parts of a line, the case of letters and what follows a semicolon mean nothing.
-/

namespace DirectionCentral.Assembly

/-- The address of a label plus a number. -/
structure Reference where
  /-- The label, in capitals. -/
  label : String
  /-- What is added to the address of the label. -/
  offset : Int
deriving DecidableEq

/-- An operand. -/
inductive Operand where
  /-- A number. -/
  | number (value : Int)
  /-- A reference to a label. -/
  | reference (reference : Reference)
deriving DecidableEq

/-- A statement. -/
inductive Statement where
  /-- Open a segment at an address. -/
  | origin (address : UInt16)
  /-- Put down a number as a word; negative numbers in two's complement. -/
  | data (value : Int)
  /-- Put down what a reference comes to. -/
  | dataReference (reference : Reference)
  /-- Put down an operation with an address. -/
  | instruction (op : Operation) (address : UInt16) (indexed : Bool)
  /-- Put down an operation with the address that a reference comes to. -/
  | instructionReference (op : Operation) (reference : Reference) (indexed : Bool)
deriving DecidableEq

/-- What a line says. The statement is read only after the label is defined, so a fault in it is
kept here. -/
structure SourceLine where
  /-- The label that the line defines, in capitals. -/
  label? : Option String := none
  /-- The statement, if there is one, or why it is refused. -/
  statement : Except Fault (Option Statement) := .ok none

/-- Refuse a line for its form. -/
def refuse {α : Type} (fault : SyntaxFault) : Except Fault α := .error (.form fault)

/-- Whether a text is a letter or underscore followed by letters, digits and underscores, all
ASCII. -/
def isIdentifier : List Char → Bool
  | [] => false
  | c :: rest => (c.isAlpha || c == '_') && rest.all fun c => c.isAlphanum || c == '_'

/-- An address: a number from 0 to 65535. -/
def toAddress (value : Int) : Except Fault UInt16 :=
  if 0 ≤ value ∧ value ≤ 0xFFFF then .ok (UInt16.ofNat value.toNat) else .error (.outOfRange value)

/-- Read an operand: a number, or a label, which a sign and a number may follow. -/
def readOperand (text : List Char) : Except Fault Operand :=
  let text := Text.trim text
  match number? text with
  | some value => .ok (.number value)
  | none =>
    let isSign (c : Char) : Bool := c == '+' || c == '-'
    let offset : Except Fault Int :=
      match text.dropWhile (!isSign ·) with
      | [] => .ok 0
      | sign :: rest =>
        match number? (Text.trim rest) with
        | some n => .ok (if sign = '-' then wrap64 (-n) else n)
        | none => refuse (.invalidOffset (String.ofList text))
    offset.bind fun offset =>
      let label := Text.upper (Text.trim (text.takeWhile (!isSign ·)))
      if isIdentifier label then .ok (.reference ⟨String.ofList label, offset⟩)
      else refuse (.invalidOperand (String.ofList text))

/-- Read one of the two numbers of `TXI`, from 0 to 255. -/
def readCount (text : List Char) : Except Fault Nat :=
  (readOperand text).bind fun
    | .number value =>
      if 0 ≤ value ∧ value ≤ 0xFF then .ok value.toNat else .error (.outOfRange value)
    | .reference _ => refuse .countNotNumeric

/-- Read the two numbers of `TXI`, which share its address field. -/
def readCounts (text : List Char) : Except Fault UInt16 :=
  match Text.splitAtFirst (· == ',') text with
  | (_, none) => refuse .countMissing
  | (increment, some limit) =>
    (readCount increment).bind fun increment =>
      (readCount limit).bind fun limit => .ok (UInt16.ofNat (256 * increment + limit))

/-- The operand without the index suffix: a last comma with an `X` of either case after it. -/
def splitIndex (text : List Char) : List Char × Bool :=
  match Text.splitAtLast (· == ',') text with
  | some (body, suffix) =>
    if Text.sameLetters (Text.trim suffix) ['X'] then (Text.trim body, true) else (text, false)
  | none => (text, false)

/-- Read the operand of an operation. -/
def readInstruction (op : Operation) (operand : Option (List Char)) : Except Fault Statement :=
  match operand with
  | none => if op.takesAddress then refuse (.operandMissing op) else .ok (.instruction op 0 false)
  | some text =>
    let (body, indexed) := splitIndex text
    if op = .txi then (readCounts body).bind fun counts => .ok (.instruction op counts indexed)
    else
      (readOperand body).bind fun
        | .number value => (toAddress value).bind fun a => .ok (.instruction op a indexed)
        | .reference reference => .ok (.instructionReference op reference indexed)

/-- Read the operand of `ORG`. -/
def readOrigin (operand : Option (List Char)) : Except Fault Statement :=
  match operand with
  | none => refuse .originMissing
  | some text =>
    (readOperand text).bind fun
      | .number value => (toAddress value).bind fun a => .ok (.origin a)
      | .reference _ => refuse .originNotNumeric

/-- Read the operand of `DAT`. -/
def readData (operand : Option (List Char)) : Except Fault Statement :=
  match operand with
  | none => refuse .dataMissing
  | some text =>
    (readOperand text).bind fun
      | .number value =>
        if -0x80000000 ≤ value ∧ value ≤ 0xFFFFFFFF then .ok (.data value)
        else .error (.outOfRange value)
      | .reference reference => .ok (.dataReference reference)

/-- Read a statement: a mnemonic, and after a blank its operand. -/
def readStatement (text : List Char) : Except Fault Statement :=
  let (first, rest) := Text.splitAtFirst Text.isBlank text
  let mnemonic := Text.upper first
  let operand := (rest.map Text.trim).filter (!·.isEmpty)
  if mnemonic = "ORG".toList then readOrigin operand
  else if mnemonic = "DAT".toList ∨ mnemonic = "DATA".toList then readData operand
  else
    match Operation.ofMnemonic? mnemonic with
    | some op => readInstruction op operand
    | none => .error (.unknownMnemonic (String.ofList mnemonic))

/-- Read a statement, or nothing if the text is empty. -/
def readOptionalStatement (text : List Char) : Except Fault (Option Statement) :=
  if text.isEmpty then .ok none else (readStatement text).map some

/-- The part of a line before its comment, without the blanks around it. -/
def code (line : List Char) : List Char := Text.trim (Text.splitAtFirst (· == ';') line).1

/-- Read a line. -/
def readLine (line : List Char) : Except Fault SourceLine :=
  match Text.splitAtFirst (· == ':') (code line) with
  | (text, none) => .ok { statement := readOptionalStatement text }
  | (before, some after) =>
    let label := Text.upper (Text.trim before)
    if isIdentifier label then
      .ok { label? := some (String.ofList label)
            statement := readOptionalStatement (Text.trim after) }
    else refuse (.invalidLabel (String.ofList label))

end DirectionCentral.Assembly

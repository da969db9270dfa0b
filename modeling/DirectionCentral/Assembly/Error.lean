import DirectionCentral.Instruction

/-!
# Assembly errors

Why a source text is refused, and on which line. Lines count from one.
-/

namespace DirectionCentral.Assembly

/-- What is wrong with the form of a line. -/
inductive SyntaxFault where
  /-- The text before the colon, in capitals, is no identifier. -/
  | invalidLabel (text : String)
  /-- The label was defined on an earlier line. -/
  | duplicateLabel (label : String)
  /-- `ORG` without an operand. -/
  | originMissing
  /-- `ORG` with a label for an operand. -/
  | originNotNumeric
  /-- `DAT` or `DATA` without an operand. -/
  | dataMissing
  /-- An operation that refers to its address, without an operand. -/
  | operandMissing (op : Operation)
  /-- `TXI` without a comma between two numbers. -/
  | countMissing
  /-- `TXI` with a label for a number. -/
  | countNotNumeric
  /-- What follows the sign after a label is no number. -/
  | invalidOffset (operand : String)
  /-- An operand is neither a number nor a label. -/
  | invalidOperand (operand : String)
deriving DecidableEq

/-- What is wrong with a line. -/
inductive Fault where
  /-- Its form. -/
  | form (fault : SyntaxFault)
  /-- Its first word, in capitals, is neither an operation nor a directive. -/
  | unknownMnemonic (text : String)
  /-- A label that it refers to is defined nowhere. -/
  | undefinedLabel (label : String)
  /-- A number does not fit its place. -/
  | outOfRange (value : Int)
deriving DecidableEq

/-- Why a source text is refused. -/
structure Error where
  /-- The number of the line. -/
  line : Nat
  /-- What is wrong with it. -/
  fault : Fault
deriving DecidableEq

/-- The fault in words. -/
def SyntaxFault.message : SyntaxFault → String
  | invalidLabel text => s!"invalid label '{text}'"
  | duplicateLabel label => s!"duplicate label '{label}'"
  | originMissing => "ORG requires address"
  | originNotNumeric => "ORG requires a numeric address"
  | dataMissing => "DAT requires value"
  | operandMissing op => s!"{op.mnemonic} requires an operand"
  | countMissing => "TXI requires increment,limit"
  | countNotNumeric => "TXI fields must be numeric"
  | invalidOffset operand => s!"invalid offset in '{operand}'"
  | invalidOperand operand => s!"invalid operand '{operand}'"

/-- The error in words: what kind it is, on which line, and what about. -/
def Error.message (e : Error) : String :=
  match e.fault with
  | .form fault => s!"syntax error on line {e.line}: {fault.message}"
  | .unknownMnemonic text => s!"unknown mnemonic on line {e.line}: {text}"
  | .undefinedLabel label => s!"undefined label on line {e.line}: {label}"
  | .outOfRange value => s!"value out of range on line {e.line}: {value}"

end DirectionCentral.Assembly

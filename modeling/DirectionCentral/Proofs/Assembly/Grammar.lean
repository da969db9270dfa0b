import DirectionCentral.Proofs.Assembly.Notation

/-!
# The grammar of assembly text

How a program may be written, from names and numerals up to the whole text. Every form makes a text
from the texts of its parts, with spacing wherever spacing may stand, and tells what it stands for.
Letters may be of either case. No form looks for a comma, a colon or a blank in a text that is
already there: a form makes texts, and the notation (`LineText`) takes them apart.
-/

namespace DirectionCentral.Assembly

open Text

/-! ## Words -/

/-- Blanks within a line, or nothing. -/
def Spacing (text : List Char) : Prop := ∀ c ∈ text, isBlank c = true ∧ c ≠ '\n'

/-- Blanks within a line, at least one. -/
structure Gap (text : List Char) : Prop where
  /-- There is a blank. -/
  nonempty : text ≠ []
  /-- There is nothing else. -/
  spacing : Spacing text

/-- A text is a word in letters of either case. -/
def Spells (text : List Char) (word : String) : Prop := text.map Char.toUpper = word.toList

/-- A name is a letter or underscore followed by letters, digits and underscores, all ASCII. -/
inductive IsName : List Char → Prop
  | cons {first : Char} {rest : List Char} (letter : first.isAlpha = true ∨ first = '_')
      (others : ∀ c ∈ rest, c.isAlphanum = true ∨ c = '_') : IsName (first :: rest)

/-- The label that a name stands for. -/
def labelOf (name : List Char) : String := String.ofList (name.map Char.toUpper)

/-! ## Statements -/

/-- An operand: a number, or a name, which a sign and a number may follow. -/
inductive OperandForm : List Char → Operand → Prop
  | number {text : List Char} {value : Int} (numeral : NumeralForm text value) :
      OperandForm text (.number value)
  | name {name : List Char} (isName : IsName name) :
      OperandForm name (.reference ⟨labelOf name, 0⟩)
  | plus {name before after digits : List Char} {n : Int} (isName : IsName name)
      (left : Spacing before) (right : Spacing after) (numeral : NumeralForm digits n) :
      OperandForm (name ++ before ++ '+' :: (after ++ digits)) (.reference ⟨labelOf name, n⟩)
  | minus {name before after digits : List Char} {n : Int} (isName : IsName name)
      (left : Spacing before) (right : Spacing after) (numeral : NumeralForm digits n) :
      OperandForm (name ++ before ++ '-' :: (after ++ digits)) (.reference ⟨labelOf name, -n⟩)

/-- What may follow the operand of an instruction: a comma and an `X`, or nothing. -/
inductive SuffixForm : List Char → Bool → Prop
  | none : SuffixForm [] false
  | index {before after : List Char} {x : Char} (left : Spacing before) (right : Spacing after)
      (letter : x = 'x' ∨ x = 'X') : SuffixForm (before ++ ',' :: (after ++ [x])) true

/-- What follows the mnemonic of an instruction and the gap after it. -/
inductive ArgumentForm (op : Operation) : List Char → Argument → Prop
  | operand {text : List Char} {o : Operand} (other : op ≠ .txi) (operand : OperandForm text o) :
      ArgumentForm op text (.operand o)
  | counts {first before after second : List Char} {increment limit : Int} (counts : op = .txi)
      (high : NumeralForm first increment) (left : Spacing before) (right : Spacing after)
      (low : NumeralForm second limit) :
      ArgumentForm op (first ++ before ++ ',' :: (after ++ second)) (.counts increment limit)

/-- A statement. -/
inductive StatementForm : List Char → Directive → Prop
  | origin {name gap digits : List Char} {address : Int} (spells : Spells name "ORG")
      (blank : Gap gap) (numeral : NumeralForm digits address) :
      StatementForm (name ++ (gap ++ digits)) (.origin address)
  | data {name gap text : List Char} {o : Operand}
      (spells : Spells name "DAT" ∨ Spells name "DATA") (blank : Gap gap)
      (operand : OperandForm text o) : StatementForm (name ++ (gap ++ text)) (.data o)
  | halt {name : List Char} (spells : Spells name Operation.hlt.mnemonic) :
      StatementForm name (.instruction .hlt .none false)
  | instruction {op : Operation} {name gap text suffix : List Char} {a : Argument} {indexed : Bool}
      (spells : Spells name op.mnemonic) (blank : Gap gap) (argument : ArgumentForm op text a)
      (index : SuffixForm suffix indexed) :
      StatementForm (name ++ (gap ++ (text ++ suffix))) (.instruction op a indexed)

/-! ## Lines -/

/-- A statement or nothing. -/
inductive BodyForm : List Char → Option Directive → Prop
  | none : BodyForm [] .none
  | some {text : List Char} {d : Directive} (statement : StatementForm text d) :
      BodyForm text (.some d)

/-- A comment, which goes on to the end of the line, or nothing. -/
inductive CommentForm : List Char → Prop
  | none : CommentForm []
  | some {text : List Char} (free : '\n' ∉ text) : CommentForm (';' :: text)

/-- What stands in a line before its comment, between the spacing at its ends. -/
inductive CodeForm : List Char → Line → Prop
  | plain {text : List Char} {directive? : Option Directive} (body : BodyForm text directive?) :
      CodeForm text ⟨none, directive?⟩
  /-- A label with its colon, and what follows it in the line. -/
  | labelled {name before after text : List Char} {directive? : Option Directive}
      (isName : IsName name) (left : Spacing before) (right : Spacing after)
      (body : BodyForm text directive?) :
      CodeForm (name ++ before ++ ':' :: (after ++ text)) ⟨some (labelOf name), directive?⟩

/-- A line. -/
inductive LineForm : List Char → Line → Prop
  | line {before text after remark : List Char} {line : Line} (left : Spacing before)
      (code : CodeForm text line) (right : Spacing after) (comment : CommentForm remark) :
      LineForm (before ++ text ++ after ++ remark) line

/-- A program, a line to each of its entries; the last line may go without its newline. -/
inductive SourceForm : List Char → List Line → Prop
  | nil : SourceForm [] []
  | last {text : List Char} {line : Line} (form : LineForm text line) : SourceForm text [line]
  | cons {text more : List Char} {line : Line} {rest : List Line} (form : LineForm text line)
      (others : SourceForm more rest) : SourceForm (text ++ '\n' :: more) (line :: rest)

end DirectionCentral.Assembly

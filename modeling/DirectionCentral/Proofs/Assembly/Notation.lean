import DirectionCentral.Proofs.Assembly.Numbers
import DirectionCentral.Proofs.Text.Cut

/-!
# The notation of assembly text

What a line says, stated on its characters. A line has a comment after its first semicolon, a label
before its first colon, a mnemonic before its first blank, an index suffix after its last comma and
an offset after the first sign of an operand. What it says is a `Line`: a label and a directive with
the numbers that the text gives, whatever their size. A text says at most one thing
(`LineText.unique`).
-/

namespace DirectionCentral.Assembly

open Text

/-- What follows a mnemonic, without the index suffix. -/
inductive Argument where
  | none
  | operand (operand : Operand)
  | counts (increment limit : Int)

/-- What a statement asks for. -/
inductive Directive where
  | origin (address : Int)
  | data (operand : Operand)
  | instruction (op : Operation) (argument : Argument) (indexed : Bool)

/-- What a line says. -/
structure Line where
  /-- The label that the line defines, in capitals. -/
  label? : Option String
  /-- The statement, if there is one. -/
  directive? : Option Directive

/-- Whether a character is a sign. -/
def isSign (c : Char) : Bool := c == '+' || c == '-'

/-- The text after the name in an operand says an offset, which is a signed integer of 64 bits: the
least one is its own negative. -/
inductive OffsetText : List Char → Int → Prop
  | none : OffsetText [] 0
  | plus {digits : List Char} {n : Int} (number : NumberText (trim digits) n) :
      OffsetText ('+' :: digits) n
  | minus {digits : List Char} {n : Int} (number : NumberText (trim digits) n) :
      OffsetText ('-' :: digits) (wrap64 (-n))

/-- A text says an operand: a number, or else a name with an offset. -/
inductive OperandText (text : List Char) : Operand → Prop
  | number {value : Int} (number : NumberText text value) : OperandText text (.number value)
  /-- The name of a label with an offset. -/
  | reference {name rest : List Char} {offset : Int} (other : ∀ value, ¬ NumberText text value)
      (cut : CutAt isSign text name rest) (identifier : isIdentifier (upper (trim name)) = true)
      (tail : OffsetText rest offset) :
      OperandText text (.reference ⟨String.ofList (upper (trim name)), offset⟩)

/-- A text says an operand text and whether the index suffix follows it. -/
inductive IndexText (text : List Char) : List Char → Bool → Prop
  /-- The text after the last comma is the index suffix. -/
  | indexed {front suffix : List Char} (whole : text = front ++ ',' :: suffix)
      (last : ∀ c ∈ suffix, (c == ',') = false) (x : sameLetters (trim suffix) ['X'] = true) :
      IndexText text (trim front) true
  /-- No comma, or another text after the last one. -/
  | direct (other : ∀ front suffix, text = front ++ ',' :: suffix →
      (∀ c ∈ suffix, (c == ',') = false) → sameLetters (trim suffix) ['X'] = false) :
      IndexText text text false

/-- The text after a mnemonic says an argument and whether the index suffix follows it. -/
inductive ArgumentText (op : Operation) (text : List Char) : Argument → Bool → Prop
  /-- Nothing, which is enough for halting. -/
  | none (halts : op = .hlt) (missing : text = []) : ArgumentText op text .none false
  | operand {body : List Char} {o : Operand} {indexed : Bool} (other : op ≠ .txi)
      (present : text ≠ []) (index : IndexText text body indexed)
      (operand : OperandText (trim body) o) : ArgumentText op text (.operand o) indexed
  | counts {body first second : List Char} {increment limit : Int} {indexed : Bool}
      (counts : op = .txi) (present : text ≠ []) (index : IndexText text body indexed)
      (cut : CutAt (· == ',') body first (',' :: second))
      (left : OperandText (trim first) (.number increment))
      (right : OperandText (trim second) (.number limit)) :
      ArgumentText op text (.counts increment limit) indexed

/-- A text says a directive. -/
inductive StatementText (text : List Char) : Directive → Prop
  /-- `ORG` and a number. -/
  | origin {first rest : List Char} {address : Int} (cut : CutAt isBlank text first rest)
      (name : upper first = "ORG".toList) (operand : OperandText (trim rest) (.number address)) :
      StatementText text (.origin address)
  /-- `DAT` or `DATA` and an operand. -/
  | data {first rest : List Char} {o : Operand} (cut : CutAt isBlank text first rest)
      (name : upper first = "DAT".toList ∨ upper first = "DATA".toList)
      (operand : OperandText (trim rest) o) : StatementText text (.data o)
  /-- A mnemonic and its argument. -/
  | instruction {first rest : List Char} {op : Operation} {a : Argument} {indexed : Bool}
      (cut : CutAt isBlank text first rest) (name : Operation.ofMnemonic? (upper first) = some op)
      (argument : ArgumentText op (trim rest) a indexed) :
      StatementText text (.instruction op a indexed)

/-- A text says a directive or nothing. -/
inductive OptionalText (text : List Char) : Option Directive → Prop
  | none (missing : text = []) : OptionalText text .none
  | some {d : Directive} (present : text ≠ []) (statement : StatementText text d) :
      OptionalText text (.some d)

/-- A line says a label and a directive, each of which may be missing. -/
inductive LineText (text : List Char) : Line → Prop
  | plain {directive? : Option Directive} (cut : CutAt (· == ':') (code text) (code text) [])
      (statement : OptionalText (code text) directive?) : LineText text ⟨none, directive?⟩
  /-- A label before the first colon. -/
  | labelled {before after : List Char} {directive? : Option Directive}
      (cut : CutAt (· == ':') (code text) before (':' :: after))
      (identifier : isIdentifier (upper (trim before)) = true)
      (statement : OptionalText (trim after) directive?) :
      LineText text ⟨some (String.ofList (upper (trim before))), directive?⟩

/-- The code of a line is what stands before its first semicolon, trimmed. -/
theorem code_of_cutAt {line left right : List Char} (cut : CutAt (· == ';') line left right) :
    code line = trim left := by
  rw [code, cut.fst_splitAtFirst]

/-! ## A text says one thing -/

/-- A text says one offset. -/
theorem OffsetText.unique {text : List Char} {n n' : Int} (one : OffsetText text n)
    (other : OffsetText text n') : n = n' := by
  cases one with
  | none => cases other; rfl
  | plus number =>
    cases other with
    | plus number' => exact number.unique number'
  | minus number =>
    cases other with
    | minus number' => rw [number.unique number']

/-- An offset is a signed integer of 64 bits. -/
theorem OffsetText.bounds {text : List Char} {n : Int} (said : OffsetText text n) :
    -2 ^ 63 ≤ n ∧ n ≤ 2 ^ 63 - 1 := by
  cases said with
  | none => decide
  | plus number => exact number.bounds
  | minus => exact wrap64_bounds _

/-- A text says one operand. -/
theorem OperandText.unique {text : List Char} {o o' : Operand} (one : OperandText text o)
    (other : OperandText text o') : o = o' := by
  cases one with
  | number number =>
    cases other with
    | number number' => rw [number.unique number']
    | reference none => exact absurd number (none _)
  | reference none cut _ tail =>
    cases other with
    | number number' => exact absurd number' (none _)
    | reference _ cut' _ tail' =>
      obtain ⟨rfl, rfl⟩ := cut.unique cut'
      rw [tail.unique tail']

/-- A text has one index suffix or none. -/
theorem IndexText.unique {text body body' : List Char} {indexed indexed' : Bool}
    (one : IndexText text body indexed) (other : IndexText text body' indexed') :
    body = body' ∧ indexed = indexed' := by
  cases one with
  | indexed whole last x =>
    cases other with
    | indexed whole' last' =>
      have found := splitAtLast_eq_some_iff.2 ⟨',', by decide, whole, last⟩
      have found' := splitAtLast_eq_some_iff.2 ⟨',', by decide, whole', last'⟩
      obtain ⟨rfl, rfl⟩ := Prod.mk.inj (Option.some.inj (found.symm.trans found'))
      exact ⟨rfl, rfl⟩
    | direct none => simp [none _ _ whole last] at x
  | direct none =>
    cases other with
    | indexed whole last x => simp [none _ _ whole last] at x
    | direct => exact ⟨rfl, rfl⟩

/-- A text says one argument. -/
theorem ArgumentText.unique {op : Operation} {text : List Char} {a a' : Argument}
    {indexed indexed' : Bool} (one : ArgumentText op text a indexed)
    (other : ArgumentText op text a' indexed') : a = a' ∧ indexed = indexed' := by
  cases one with
  | none halts missing =>
    cases other with
    | none => exact ⟨rfl, rfl⟩
    | operand _ present => exact absurd missing present
    | counts _ present => exact absurd missing present
  | operand notCounts present index operand =>
    cases other with
    | none _ missing => exact absurd missing present
    | operand _ _ index' operand' =>
      obtain ⟨rfl, rfl⟩ := index.unique index'
      rw [operand.unique operand']
      exact ⟨rfl, rfl⟩
    | counts counts => exact absurd counts notCounts
  | counts counts present index cut left right =>
    cases other with
    | none _ missing => exact absurd missing present
    | operand notCounts => exact absurd counts notCounts
    | counts _ _ index' cut' left' right' =>
      obtain ⟨rfl, rfl⟩ := index.unique index'
      obtain ⟨rfl, same⟩ := cut.unique cut'
      obtain rfl := (List.cons.inj same).2
      obtain ⟨rfl⟩ := left.unique left'
      obtain ⟨rfl⟩ := right.unique right'
      exact ⟨rfl, rfl⟩

/-- A mnemonic is no name of a directive. -/
theorem not_directive_of_mnemonic {name : List Char} {op : Operation}
    (mnemonic : Operation.ofMnemonic? name = some op) :
    name ≠ "ORG".toList ∧ ¬ (name = "DAT".toList ∨ name = "DATA".toList) := by
  have none : Operation.ofMnemonic? "ORG".toList = none ∧
      Operation.ofMnemonic? "DAT".toList = none ∧ Operation.ofMnemonic? "DATA".toList = none := by
    decide
  refine ⟨?_, ?_⟩
  · rintro rfl
    rw [none.1] at mnemonic
    contradiction
  · rintro (rfl | rfl)
    · rw [none.2.1] at mnemonic
      contradiction
    · rw [none.2.2] at mnemonic
      contradiction

/-- A text says one directive. -/
theorem StatementText.unique {text : List Char} {d d' : Directive} (one : StatementText text d)
    (other : StatementText text d') : d = d' := by
  cases one with
  | origin cut name operand =>
    cases other with
    | origin cut' _ operand' =>
      obtain ⟨rfl, rfl⟩ := cut.unique cut'
      obtain ⟨rfl⟩ := operand.unique operand'
      rfl
    | data cut' name' =>
      obtain ⟨rfl, rfl⟩ := cut.unique cut'
      rw [name] at name'
      exact absurd name' (by decide)
    | instruction cut' name' =>
      obtain ⟨rfl, rfl⟩ := cut.unique cut'
      exact absurd name (not_directive_of_mnemonic name').1
  | data cut name operand =>
    cases other with
    | origin cut' name' =>
      obtain ⟨rfl, rfl⟩ := cut.unique cut'
      rw [name'] at name
      exact absurd name (by decide)
    | data cut' _ operand' =>
      obtain ⟨rfl, rfl⟩ := cut.unique cut'
      rw [operand.unique operand']
    | instruction cut' name' =>
      obtain ⟨rfl, rfl⟩ := cut.unique cut'
      exact absurd name (not_directive_of_mnemonic name').2
  | instruction cut name argument =>
    cases other with
    | origin cut' name' =>
      obtain ⟨rfl, rfl⟩ := cut.unique cut'
      exact absurd name' (not_directive_of_mnemonic name).1
    | data cut' name' =>
      obtain ⟨rfl, rfl⟩ := cut.unique cut'
      exact absurd name' (not_directive_of_mnemonic name).2
    | instruction cut' name' argument' =>
      obtain ⟨rfl, rfl⟩ := cut.unique cut'
      obtain rfl := Option.some.inj (name.symm.trans name')
      obtain ⟨rfl, rfl⟩ := argument.unique argument'
      rfl

/-- A text says one directive or nothing. -/
theorem OptionalText.unique {text : List Char} {d? d?' : Option Directive}
    (one : OptionalText text d?) (other : OptionalText text d?') : d? = d?' := by
  cases one with
  | none missing =>
    cases other with
    | none => rfl
    | some present => exact absurd missing present
  | some present statement =>
    cases other with
    | none missing => exact absurd missing present
    | some _ statement' => rw [statement.unique statement']

/-- A line says one thing. -/
theorem LineText.unique {text : List Char} {line line' : Line} (one : LineText text line)
    (other : LineText text line') : line = line' := by
  cases one with
  | plain cut statement =>
    cases other with
    | plain _ statement' => rw [statement.unique statement']
    | labelled cut' => exact absurd (cut.unique cut').2 (by simp)
  | labelled cut _ statement =>
    cases other with
    | plain cut' => exact absurd (cut.unique cut').2 (by simp)
    | labelled cut' _ statement' =>
      obtain ⟨rfl, same⟩ := cut.unique cut'
      obtain rfl := (List.cons.inj same).2
      rw [statement.unique statement']

end DirectionCentral.Assembly

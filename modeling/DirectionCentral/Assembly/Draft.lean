import DirectionCentral.Assembly.Statement
import DirectionCentral.Image

/-!
# Drafts

Assembly goes over the lines once and leaves a draft: the segments with a word in every place, the
addresses of the labels, and at each word that waits for a label a note of what goes there. All
lines are then known, and the draft is completed: each note is resolved in the order of the places.
A draft keeps the address of the next word implicit, as the start of its open segment and the number
of words there.
-/

namespace DirectionCentral.Assembly

/-- Which part of a word a reference fills. -/
inductive Field where
  /-- The address field, bits 15 to 0. -/
  | address
  /-- The whole word. -/
  | word
deriving DecidableEq

/-- What a word waits for. -/
structure Pending where
  /-- The reference that fills it. -/
  reference : Reference
  /-- The part that is filled. -/
  field : Field
  /-- The line of the statement. -/
  line : Nat
deriving DecidableEq

/-- A place in a draft. -/
structure Cell where
  /-- The word, with zero in the part that is still to be filled. -/
  word : Word
  /-- What it waits for, if it does. -/
  pending? : Option Pending := none
deriving DecidableEq

/-- A segment of a draft. -/
structure DraftSegment where
  /-- The address of the first place. -/
  start : UInt16 := 0
  /-- The places in the order of their addresses. -/
  cells : Array Cell := #[]
deriving DecidableEq

/-- What has been read of a program. -/
structure Draft where
  /-- The segments that are finished, in order. -/
  closed : Array DraftSegment := #[]
  /-- The segment that is still open. -/
  current : DraftSegment := {}
  /-- The labels with their addresses, the last one first. -/
  labels : List (String × Nat) := []
deriving DecidableEq

namespace Draft

/-- The address of the next word. -/
def nextAddress (d : Draft) : Nat := d.current.start.toNat + d.current.cells.size

/-- The segments in order. -/
def segments (d : Draft) : List DraftSegment := d.closed.toList ++ [d.current]

/-- Put down a word. -/
def emit (d : Draft) (cell : Cell) : Draft :=
  { d with current := { d.current with cells := d.current.cells.push cell } }

/-- Close the open segment and open one at an address. -/
def openSegment (d : Draft) (start : UInt16) : Draft :=
  { d with closed := d.closed.push d.current, current := { start } }

/-- Give a label the address of the next word. -/
def define (d : Draft) (label : String) : Except Fault Draft :=
  match d.labels.lookup label with
  | some _ => refuse (.duplicateLabel label)
  | none => .ok { d with labels := (label, d.nextAddress) :: d.labels }

/-- Do what a statement on a line says. -/
def place (d : Draft) (line : Nat) : Statement → Draft
  | .origin start => d.openSegment start
  | .data value => d.emit { word := UInt32.ofInt value }
  | .dataReference reference => d.emit { word := 0, pending? := some ⟨reference, .word, line⟩ }
  | .instruction op address indexed =>
    d.emit { word := Instruction.encodeOperation op address.toUInt32 indexed }
  | .instructionReference op reference indexed =>
    d.emit
      { word := Instruction.encodeOperation op 0 indexed
        pending? := some ⟨reference, .address, line⟩ }

/-- Read a line into a draft: first its label, then its statement. -/
def addSourceLine (d : Draft) (line : Nat) (source : SourceLine) : Except Fault Draft :=
  (match source.label? with
    | some label => d.define label
    | none => .ok d).bind fun d =>
    source.statement.map fun
      | some statement => d.place line statement
      | none => d

/-- Read the text of a line into a draft. -/
def addLine (d : Draft) (line : Nat) (text : List Char) : Except Error Draft :=
  ((readLine text).bind (d.addSourceLine line)).mapError fun fault => ⟨line, fault⟩

/-- Read lines into a draft, where the first of them has the given number. -/
def addLines (d : Draft) (number : Nat) : List (List Char) → Except Error Draft
  | [] => .ok d
  | text :: rest => (d.addLine number text).bind fun d => d.addLines (number + 1) rest

/-- The draft of a source text. -/
def ofSource (source : List Char) : Except Error Draft := ({} : Draft).addLines 1 (Text.lines source)

end Draft

/-- What a reference comes to: the address of its label plus its offset. A sum that is too large for
a signed integer of 64 bits wraps around to a negative number, which fits no field, so it is refused
here as that number. -/
def Reference.resolve (labels : List (String × Nat)) (r : Reference) : Except Fault Int :=
  match labels.lookup r.label with
  | some address =>
    let sum : Int := address + r.offset
    match within64? sum with
    | some value => .ok value
    | none => .error (.outOfRange (wrap64 sum))
  | none => .error (.undefinedLabel r.label)

/-- Fill a value into a word: an address must be one of 16 bits; a whole word takes the low 32 bits
of any value that is not negative. -/
def Field.fill (field : Field) (word : Word) (value : Int) : Except Fault Word :=
  match field with
  | .address => (toAddress value).map fun a => word &&& ~~~Instruction.addressMask ||| a.toUInt32
  | .word => if value < 0 then .error (.outOfRange value) else .ok (UInt32.ofInt value)

/-- The word that a place holds in the end. -/
def Cell.complete (labels : List (String × Nat)) (c : Cell) : Except Error Word :=
  match c.pending? with
  | none => .ok c.word
  | some p =>
    ((p.reference.resolve labels).bind (p.field.fill c.word)).mapError fun fault =>
      ⟨p.line, fault⟩

/-- The words that a segment holds in the end. -/
def DraftSegment.complete (labels : List (String × Nat)) (s : DraftSegment) :
    Except Error Segment :=
  (s.cells.toList.mapM (Cell.complete labels)).map fun words => ⟨s.start.toUInt64, words⟩

namespace Draft

/-- The segments that have words. -/
def filled (d : Draft) : List DraftSegment := d.segments.filter (!·.cells.isEmpty)

/-- The image of a draft: its segments that have words, with every note resolved. -/
def complete (d : Draft) : Except Error Image :=
  (d.filled.mapM (DraftSegment.complete d.labels)).map Image.mk

end Draft

/-- The image of a program in assembly text. -/
def assembleChars (source : List Char) : Except Error Image :=
  (Draft.ofSource source).bind Draft.complete

/-- The image of a program in assembly text. -/
def assemble (source : String) : Except Error Image := assembleChars source.toList

end DirectionCentral.Assembly

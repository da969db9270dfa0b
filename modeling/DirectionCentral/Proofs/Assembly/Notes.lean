import Mathlib.Data.List.Basic
import DirectionCentral.Proofs.Assembly.Faults

/-!
# The notes of a draft

A place that waits for a label has a note of what goes there. The notes of a draft are those of the
lines that were read, in the order of the lines (`notes_addLines`), and completing the draft fails
for the first of them that fails (`error?_complete_notes`). So the earliest line whose reference
fails is the one that is reported (`exists_failing_line`).
-/

namespace DirectionCentral.Assembly

/-- The reference that a line makes to a label, with the part of its word that the reference
fills. -/
def Line.reference? (line : Line) : Option (Reference × Field) :=
  match line.directive? with
  | some (.data (.reference r)) => some (r, .word)
  | some (.instruction _ (.operand (.reference r)) _) => some (r, .address)
  | _ => none

/-- The note that a line with a number leaves, if it refers to a label. -/
def Line.note? (number : Nat) (line : Line) : Option Pending :=
  line.reference?.map fun (r, field) => ⟨r, field, number⟩

/-- The notes that lines leave, the first of which has a number. -/
def notesFrom (number : Nat) (program : List Line) : List Pending :=
  (program.zipIdx number).filterMap fun place => place.1.note? place.2

/-- The notes of a draft in the order of the places. -/
def Draft.notes (d : Draft) : List Pending := d.cells.filterMap (·.pending?)

variable {d d' : Draft} {number : Nat} {labels : List (String × Nat)}

/-! ## The notes of the lines -/

/-- The notes of lines are those of the first one and those of the others. -/
theorem notesFrom_cons (number : Nat) (line : Line) (rest : List Line) :
    notesFrom number (line :: rest) =
      (line.note? number).toList ++ notesFrom (number + 1) rest := by
  rw [notesFrom, List.zipIdx_cons, List.filterMap_cons, notesFrom]
  cases note : line.note? number <;> rfl

/-- A word that is put down adds its note. -/
theorem notes_emit (d : Draft) (cell : Cell) :
    (d.emit cell).notes = d.notes ++ cell.pending?.toList := by
  rw [Draft.notes, cells_emit, List.filterMap_append, Draft.notes, List.filterMap_cons]
  cases cell.pending? <;> rfl

/-- A statement adds the note of the directive that it realizes. -/
theorem notes_place {directive : Directive} {s : Statement} (realizes : Realizes directive s)
    (d : Draft) (number : Nat) (label? : Option String) :
    (d.place number s).notes =
      d.notes ++ ((Line.mk label? (some directive)).note? number).toList := by
  cases realizes with
  | origin start =>
    rw [Draft.place, Draft.notes, cells_openSegment]
    exact (List.append_nil _).symm
  | data => exact notes_emit d _
  | dataReference r => exact notes_emit d _
  | instructionReference op r indexed => exact notes_emit d _
  | @instruction op a indexed address argument =>
    -- The argument comes to the same value wherever labels are, so it refers to none.
    have none : (Line.mk label? (some (.instruction op a indexed))).note? number = none := by
      have value := argument fun _ _ => False
      generalize (address.toNat : Int) = n at value
      cases value with
      | none => rfl
      | counts => rfl
      | operand comes =>
        cases comes with
        | number => rfl
        | reference found => contradiction
    rw [none]
    exact notes_emit d _

/-- A line that is read adds its note. -/
theorem notes_addLine {text : List Char} {line : Line} (said : LineText text line)
    (read : d.addLine number text = .ok d') :
    d'.notes = d.notes ++ (line.note? number).toList := by
  obtain ⟨source, readable, added⟩ := bind_eq_ok_iff.1 (mapError_eq_ok_iff.1 read)
  obtain ⟨labelled, s?, same, statement, rfl⟩ := exists_labelled added
  obtain ⟨⟨label?, directive?⟩, also, -, realizes⟩ := lineText_of_readLine readable statement
  obtain rfl := said.unique also
  have kept : labelled.notes = d.notes := by rw [Draft.notes, same, Draft.notes]
  cases realizes with
  | none => exact kept.trans (List.append_nil _).symm
  | some realizes => exact kept ▸ notes_place realizes labelled number label?

/-- Lines that are read add their notes in the order of the lines. -/
theorem notes_addLines {texts : List (List Char)} {program : List Line}
    (said : List.Forall₂ LineText texts program) (read : d.addLines number texts = .ok d') :
    d'.notes = d.notes ++ notesFrom number program := by
  induction said generalizing d number with
  | nil =>
    obtain rfl := Except.ok.inj read
    exact (List.append_nil _).symm
  | cons first _ ih =>
    obtain ⟨next, one, others⟩ := bind_eq_ok_iff.1 read
    rw [ih others, notes_addLine first one, notesFrom_cons, List.append_assoc]

/-! ## Notes that fail -/

/-- Why a reference cannot be filled into a field, if it cannot. That does not depend on the rest of
the word. -/
def Reference.fault? (labels : List (String × Nat)) (r : Reference) (field : Field) :
    Option Fault :=
  error? ((r.resolve labels).bind (field.fill 0))

/-- A value is refused for any word or for none. -/
theorem error?_fill (field : Field) (word : Word) (value : Int) :
    error? (field.fill word value) = error? (field.fill 0 value) := by
  cases field with
  | address => rw [Field.fill, Field.fill, error?_map, error?_map]
  | word => rfl

/-- What is reported of a note, if it fails. -/
def Pending.error? (labels : List (String × Nat)) (p : Pending) : Option Error :=
  (p.reference.fault? labels p.field).map fun fault => ⟨p.line, fault⟩

/-- A place fails for its note, on the line of the note. -/
theorem error?_complete_cell (labels : List (String × Nat)) (cell : Cell) :
    error? (cell.complete labels) = cell.pending?.bind (Pending.error? labels) := by
  obtain ⟨word, _ | p⟩ := cell
  · rfl
  · rw [Cell.complete, error?_mapError, Option.bind_some, Pending.error?, Reference.fault?]
    cases p.reference.resolve labels with
    | error fault => rfl
    | ok value => exact congrArg _ (error?_fill p.field word value)

/-- A draft fails to be completed for its first note that fails. -/
theorem error?_complete_notes (d : Draft) :
    error? d.complete = d.notes.findSome? (Pending.error? d.labels) := by
  have cells : (fun cell : Cell => error? (cell.complete d.labels)) =
      fun cell => cell.pending?.bind (Pending.error? d.labels) :=
    funext (error?_complete_cell d.labels)
  rw [error?_complete, cells, Draft.notes, ← List.head?_filterMap, ← List.head?_filterMap,
    List.filterMap_filterMap]

/-- The first of the notes of some lines that fails is that of a line after lines whose references
do not fail. -/
theorem exists_failing_line {program : List Line} {e : Error}
    (first : (notesFrom number program).findSome? (Pending.error? labels) = some e) :
    ∃ before line after r field, program = before ++ line :: after ∧
      e.line = number + before.length ∧ line.reference? = some (r, field) ∧
      r.fault? labels field = some e.fault ∧
      ∀ other ∈ before, ∀ r field, other.reference? = some (r, field) →
        r.fault? labels field = none := by
  rw [notesFrom, ← List.head?_filterMap, List.filterMap_filterMap, List.head?_filterMap,
    List.findSome?_eq_some_iff] at first
  obtain ⟨front, ⟨line, n⟩, back, split, here, earlier⟩ := first
  obtain ⟨before, rest, rfl, rfl, tail⟩ := List.zipIdx_eq_append_iff.1 split
  obtain ⟨_, after, rfl, same, -⟩ := List.zipIdx_eq_cons_iff.1 tail.symm
  obtain ⟨rfl, rfl⟩ := Prod.mk.inj same
  obtain ⟨p, note, failing⟩ := Option.bind_eq_some_iff.1 here
  obtain ⟨⟨r, field⟩, refers, rfl⟩ := Option.map_eq_some_iff.1 note
  obtain ⟨fault, found, rfl⟩ := Option.map_eq_some_iff.1 failing
  refine ⟨before, line, after, r, field, rfl, rfl, refers, found, ?_⟩
  intro other member r field refers
  obtain ⟨k, place⟩ := List.getElem?_of_mem member
  have clean := earlier (other, number + k) (List.mk_add_mem_zipIdx_iff_getElem?.2 place)
  rw [Line.note?, refers] at clean
  exact Option.map_eq_none_iff.1 clean

end DirectionCentral.Assembly

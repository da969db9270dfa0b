import DirectionCentral.Proofs.Assembly.ObjectCode

/-!
# Drafts as object code

A draft keeps a note in the cell of the word that waits; object code keeps it apart from the words,
with the position of the word (`Draft.objectCode`). Reading lines into a draft does what placing
their statements in object code does (`objectCode_ofSource`), and completing the draft has the
outcome of filling in the fixups (`image_objectCode`). So what holds of the fixups of object code
holds of the assembly of every text whose lines are all read (`secondPass_of_read`).
-/

namespace DirectionCentral.Assembly

open Text

variable {d d' : Draft} {number : Nat} {labels : List (String × Nat)} {p : Position}

/-! ## Object code of drafts -/

/-- The words of a segment before anything is filled in. -/
def DraftSegment.blank (s : DraftSegment) : Segment :=
  ⟨s.start.toUInt64, s.cells.toList.map (·.word)⟩

/-- The notes of a segment with a number, each with the position of its word. -/
def DraftSegment.fixups (s : DraftSegment) (segment : Nat) : List Fixup :=
  s.cells.toList.zipIdx.filterMap fun place =>
    place.1.pending?.map (Fixup.mk ⟨segment, place.2⟩)

/-- The words of a draft before anything is filled in, with its notes apart. -/
def Draft.objectCode (d : Draft) : ObjectCode where
  closed := d.closed.toList.map DraftSegment.blank
  current := d.current.blank
  fixups := d.segments.zipIdx.flatMap fun place => place.1.fixups place.2

/-- The fixups of the open segment are the last ones. -/
theorem fixups_objectCode (d : Draft) :
    d.objectCode.fixups =
      (d.closed.toList.zipIdx.flatMap fun place => place.1.fixups place.2) ++
        d.current.fixups d.closed.size := by
  simp [Draft.objectCode, Draft.segments, List.zipIdx_append]

/-- A cell at the end of a segment adds its note, with the number of cells before it. -/
theorem fixups_push (s : DraftSegment) (cell : Cell) (segment : Nat) :
    DraftSegment.fixups { s with cells := s.cells.push cell } segment =
      s.fixups segment ++
        (cell.pending?.map (Fixup.mk ⟨segment, s.cells.size⟩)).toList := by
  cases note : cell.pending? <;> simp [DraftSegment.fixups, List.zipIdx_append, note]

/-- Putting down a cell is deferring its note, if it has one, and then putting down its word. -/
theorem objectCode_emit (d : Draft) (cell : Cell) :
    (d.emit cell).objectCode =
      (cell.pending?.elim d.objectCode d.objectCode.defer).emit cell.word := by
  have fixups : (d.emit cell).objectCode.fixups =
      d.objectCode.fixups ++ (cell.pending?.map (Fixup.mk d.objectCode.next)).toList := by
    have next : d.objectCode.next = ⟨d.closed.size, d.current.cells.size⟩ := by
      simp [ObjectCode.next, Draft.objectCode, DraftSegment.blank]
    rw [fixups_objectCode, fixups_objectCode, next, List.append_assoc, ← fixups_push]
    rfl
  have current : (d.emit cell).current.blank =
      { d.current.blank with words := d.current.blank.words ++ [cell.word] } := by
    simp [Draft.emit, DraftSegment.blank]
  obtain ⟨word, _ | note⟩ := cell
  · refine (ObjectCode.mk.injEq ..).mpr ⟨rfl, current, ?_⟩
    exact fixups.trans (List.append_nil _)
  · exact (ObjectCode.mk.injEq ..).mpr ⟨rfl, current, fixups⟩

/-- Opening a segment leaves the words and the fixups as they are. -/
theorem objectCode_openSegment (d : Draft) (start : UInt16) :
    (d.openSegment start).objectCode = d.objectCode.openSegment start := by
  simp [Draft.objectCode, Draft.openSegment, ObjectCode.openSegment, Draft.segments,
    DraftSegment.blank, DraftSegment.fixups, List.zipIdx_append]

/-- A statement does the same to a draft and to its object code. -/
theorem objectCode_place (d : Draft) (line : Nat) (s : Statement) :
    (d.place line s).objectCode = d.objectCode.place line s := by
  cases s with
  | origin start => exact objectCode_openSegment d start
  | data | dataReference | instruction | instructionReference => exact objectCode_emit d _

/-! ## Lines -/

/-- The statement that the text of a line says, if it says one. -/
def statement? (text : List Char) : Option Statement :=
  match readLine text with
  | .ok ⟨_, .ok s?⟩ => s?
  | _ => none

/-- The statements that texts say, with the numbers of their lines from a number on. -/
def statementsFrom (number : Nat) (texts : List (List Char)) : List (Nat × Statement) :=
  (texts.zipIdx number).filterMap fun place => (statement? place.1).map (Prod.mk place.2)

/-- The statements of texts are that of the first one and those of the others. -/
theorem statementsFrom_cons (number : Nat) (text : List Char) (rest : List (List Char)) :
    statementsFrom number (text :: rest) =
      ((statement? text).map (Prod.mk number)).toList ++ statementsFrom (number + 1) rest := by
  rw [statementsFrom, List.zipIdx_cons, List.filterMap_cons, statementsFrom]
  cases statement? text <;> rfl

/-- A statement of texts is that of the text on its line, after those of the lines before. -/
theorem exists_text {texts : List (List Char)} {front back : List (Nat × Statement)} {line : Nat}
    {s : Statement} (split : statementsFrom number texts = front ++ (line, s) :: back) :
    ∃ before text after, texts = before ++ text :: after ∧ line = number + before.length ∧
      statement? text = some s ∧ statementsFrom number before = front := by
  induction texts generalizing number front with
  | nil => simp [statementsFrom] at split
  | cons text rest ih =>
    rw [statementsFrom_cons] at split
    -- Where the statement is one of the other lines, that of this one stands before it, if any.
    have later {front'} (split : statementsFrom (number + 1) rest = front' ++ (line, s) :: back) :
        ∃ before other after, text :: rest = before ++ other :: after ∧
          line = number + before.length ∧ statement? other = some s ∧
          statementsFrom number before =
            ((statement? text).map (Prod.mk number)).toList ++ front' := by
      obtain ⟨before, other, after, rfl, rfl, said, rfl⟩ := ih split
      refine ⟨text :: before, other, after, rfl, ?_, said, statementsFrom_cons ..⟩
      rw [List.length_cons, Nat.add_right_comm, Nat.add_assoc]
    cases said : statement? text with
    | none =>
      rw [said] at split later
      exact later split
    | some first =>
      rw [said] at split later
      obtain ⟨rfl, here⟩ | ⟨front', rfl, tail⟩ := List.cons_eq_append_iff.1 split
      · obtain ⟨same, -⟩ := List.cons.inj here
        obtain ⟨rfl, rfl⟩ := Prod.mk.inj same
        exact ⟨[], text, rest, rfl, rfl, said, rfl⟩
      · exact later tail

/-- A line that is read does what its statement does. -/
theorem objectCode_addLine {text : List Char} (read : d.addLine number text = .ok d') :
    d'.objectCode = (statement? text).elim d.objectCode (d.objectCode.place number) := by
  obtain ⟨source, readable, added⟩ := bind_eq_ok_iff.1 (mapError_eq_ok_iff.1 read)
  obtain ⟨labels, s?, statement, rfl⟩ := exists_relabelled added
  obtain ⟨label?, _⟩ := source
  obtain rfl : _ = Except.ok s? := statement
  have said : statement? text = s? := by rw [statement?, readable]
  rw [said]
  cases s? with
  | none => rfl
  | some s => exact objectCode_place { d with labels } number s

/-- Lines that are read do what their statements do. -/
theorem objectCode_addLines {texts : List (List Char)} (read : d.addLines number texts = .ok d') :
    d'.objectCode = (statementsFrom number texts).foldl
      (fun code entry => code.place entry.1 entry.2) d.objectCode := by
  induction texts generalizing d number with
  | nil =>
    obtain rfl := Except.ok.inj read
    rfl
  | cons text rest ih =>
    obtain ⟨next, first, others⟩ := bind_eq_ok_iff.1 read
    rw [ih others, objectCode_addLine first, statementsFrom_cons, List.foldl_append]
    cases statement? text <;> rfl

/-- The object code of a draft is that of the statements that were read. -/
theorem objectCode_ofSource {source : List Char} (read : Draft.ofSource source = .ok d) :
    d.objectCode = ObjectCode.ofStatements (statementsFrom 1 (lines source)) :=
  objectCode_addLines read

/-! ## Notes and fixups -/

/-- The cell at a position. -/
def Draft.cell? (d : Draft) (p : Position) : Option Cell :=
  d.segments[p.segment]?.bind (·.cells[p.offset]?)

/-- The segments of object code are those of the draft. -/
theorem segments_objectCode (d : Draft) :
    d.objectCode.segments = d.segments.map DraftSegment.blank := by
  rw [Draft.segments, List.map_append]
  rfl

/-- The word at a position is that of the cell there. -/
theorem word?_objectCode (d : Draft) (p : Position) :
    p.word? d.objectCode.segments = (d.cell? p).map (·.word) := by
  rw [Position.word?, segments_objectCode, List.getElem?_map, Draft.cell?]
  cases d.segments[p.segment]? <;> simp [DraftSegment.blank]

/-- There is a fixup for a note at a position just if the cell there has the note. -/
theorem mem_fixups_iff {note : Pending} :
    ⟨p, note⟩ ∈ d.objectCode.fixups ↔
      ∃ cell, d.cell? p = some cell ∧ cell.pending? = some note := by
  rw [Draft.objectCode, List.mem_flatMap]
  constructor
  · rintro ⟨⟨s, segment⟩, place, member⟩
    obtain ⟨⟨cell, offset⟩, inner, noted⟩ := List.mem_filterMap.1 member
    obtain ⟨_, here, same⟩ := Option.map_eq_some_iff.1 noted
    obtain ⟨rfl, rfl⟩ := Fixup.mk.inj same
    have outer := List.mem_zipIdx_iff_getElem?.1 place
    have inner := List.mem_zipIdx_iff_getElem?.1 inner
    exact ⟨cell, Option.bind_eq_some_iff.2 ⟨s, outer, by simpa using inner⟩, here⟩
  · rintro ⟨cell, found, noted⟩
    obtain ⟨s, here, there⟩ := Option.bind_eq_some_iff.1 found
    refine ⟨(s, p.segment), List.mem_zipIdx_iff_getElem?.2 here, ?_⟩
    refine List.mem_filterMap.2 ⟨(cell, p.offset), List.mem_zipIdx_iff_getElem?.2 ?_, ?_⟩
    · simpa using there
    · exact Option.map_eq_some_iff.2 ⟨note, noted, rfl⟩

/-- The notes of the fixups of a segment are those of its cells. -/
theorem map_note_segment (s : DraftSegment) (segment : Nat) :
    (s.fixups segment).map (·.note) = s.cells.toList.filterMap (·.pending?) := by
  rw [DraftSegment.fixups, List.map_filterMap]
  conv_rhs => rw [← List.zipIdx_map_fst 0 s.cells.toList, List.filterMap_map]
  simp [Function.comp_def]

/-- The notes of the fixups are those of the draft. -/
theorem map_note_fixups (d : Draft) : d.objectCode.fixups.map (·.note) = d.notes := by
  rw [Draft.notes, Draft.cells, List.filterMap_flatMap, Draft.objectCode, List.map_flatMap]
  conv_rhs => rw [← List.zipIdx_map_fst 0 d.segments, List.flatMap_map]
  simp only [map_note_segment]

/-! ## The second pass -/

variable {after : List Segment}

/-- Every cell of a draft whose fixups are filled in is completed by the word at its position. -/
theorem exists_completed
    (filled : FilledIn labels d.objectCode.fixups d.objectCode.segments after) {cell : Cell}
    (found : d.cell? p = some cell) :
    ∃ word, p.word? after = some word ∧ cell.complete labels = .ok word := by
  -- Without a note there is no fixup here, and with one it is the fixup of that note.
  obtain ⟨word, _ | note⟩ := cell
  · have free : ∀ f ∈ d.objectCode.fixups, f.position ≠ p := by
      rintro ⟨_, note⟩ member rfl
      obtain ⟨other, also, noted⟩ := mem_fixups_iff.1 member
      obtain rfl := Option.some.inj (found.symm.trans also)
      contradiction
    refine ⟨word, ?_, rfl⟩
    rw [filled.kept p free, word?_objectCode, found]
    rfl
  · obtain ⟨old, value, new, stands, resolved, fits, here⟩ :=
      filled.filled ⟨p, note⟩ (mem_fixups_iff.2 ⟨_, found, rfl⟩)
    rw [word?_objectCode, found] at stands
    obtain rfl := Option.some.inj stands
    exact ⟨new, here, mapError_eq_ok_iff.2 (bind_eq_ok_iff.2 ⟨value, resolved, fits⟩)⟩

/-- Lists of one length are related if their elements with the same number are. -/
theorem forall₂_of_getElem? {α β : Type} {R : α → β → Prop} {as : List α} {bs : List β}
    (length : as.length = bs.length)
    (each : ∀ (k : Nat) a b, as[k]? = some a → bs[k]? = some b → R a b) :
    List.Forall₂ R as bs := by
  refine List.forall₂_iff_get.2 ⟨length, fun k left right => each k _ _ ?_ ?_⟩
  · exact List.getElem?_eq_getElem left
  · exact List.getElem?_eq_getElem right

/-- Segments of a draft whose fixups are filled in are completed by the segments with their
numbers. -/
theorem forall₂_complete
    (filled : FilledIn labels d.objectCode.fixups d.objectCode.segments after) :
    List.Forall₂ (fun s t => s.complete labels = .ok t) d.segments after := by
  have shape : outline after = d.segments.map fun s => (s.start.toUInt64, s.cells.size) := by
    rw [filled.outline, segments_objectCode, outline, List.map_map]
    simp [DraftSegment.blank, Function.comp_def]
  refine forall₂_of_getElem? ?_ fun k s t left right => ?_
  · simpa [outline] using (congrArg List.length shape).symm
  · have same : (t.start, t.words.length) = (s.start.toUInt64, s.cells.size) := by
      simpa [outline, left, right] using congrArg (·[k]?) shape
    obtain ⟨start, length⟩ := Prod.mk.inj same
    refine map_eq_ok_iff.2 ⟨t.words, mapM_eq_ok_iff.2 ?_, by rw [← start]⟩
    refine forall₂_of_getElem? (by simp [length]) fun o cell word one other => ?_
    have found : d.cell? ⟨k, o⟩ = some cell :=
      Option.bind_eq_some_iff.2 ⟨s, left, by simpa using one⟩
    obtain ⟨new, here, complete⟩ := exists_completed filled found
    have there : Position.word? ⟨k, o⟩ after = some word :=
      Option.bind_eq_some_iff.2 ⟨t, right, other⟩
    obtain rfl := Option.some.inj (here.symm.trans there)
    exact complete

/-- A draft whose fixups are filled in is completed by the segments that have words. -/
theorem complete_of_filledIn
    (filled : FilledIn d.labels d.objectCode.fixups d.objectCode.segments after) :
    d.complete = .ok ⟨after.filter (!·.words.isEmpty)⟩ := by
  refine map_eq_ok_iff.2 ⟨_, mapM_eq_ok_iff.2 ?_, rfl⟩
  refine List.rel_filter ?_ (forall₂_complete filled)
  intro s t complete
  obtain ⟨words, each, rfl⟩ := map_eq_ok_iff.1 complete
  have same : s.cells.isEmpty = words.isEmpty := by
    rw [Bool.eq_iff_iff, List.isEmpty_iff_length_eq_zero, Array.isEmpty_iff_size_eq_zero,
      ← (mapM_eq_ok_iff.1 each).length_eq, Array.length_toList]
  simp only [same]

/-- The second pass over a draft whose fixups stand at their words has the outcome of completing the
draft. -/
theorem image_objectCode {placed : List (Nat × Statement)}
    (well : ObjectCode.WellPlaced placed d.objectCode) :
    d.objectCode.image d.labels = d.complete.mapError .refused := by
  -- Both go through the notes in the same order, so that they stop at the same one or at none.
  have failure : error? (d.objectCode.resolve d.labels) = (error? d.complete).map .refused := by
    rw [error?_complete_notes, ← map_note_fixups, List.findSome?_map]
    exact well.error?_resolve d.labels
  rw [ObjectCode.image]
  cases resolved : d.objectCode.resolve d.labels with
  | error stop =>
    rw [resolved] at failure
    obtain ⟨e, failing, rfl⟩ := Option.map_eq_some_iff.1 failure.symm
    rw [error?_eq_some_iff.1 failing]
    rfl
  | ok after =>
    rw [complete_of_filledIn (well.filledIn resolved)]
    rfl

/-! ## Every text -/

/-- A fixup stands where the line with its number has put down its word, with zero in the part that
the reference fills. -/
def StandsAtLine (texts : List (List Char)) (code : ObjectCode) (f : Fixup) : Prop :=
  ∃ before text after s word, texts = before ++ text :: after ∧
    f.note.line = 1 + before.length ∧ statement? text = some s ∧
    f.position = (ObjectCode.ofStatements (statementsFrom 1 before)).next ∧
    ObjectCode.Waits s f.note.reference f.note.field word ∧
    f.position.word? code.segments = some word

/-- What the second pass finds in the object code that the first pass has made of a text, and what
it changes there. -/
structure SecondPass (source : String) (d : Draft) (code : ObjectCode) : Prop where
  /-- The object code is that of the statements on the lines of the text. -/
  statements : code = ObjectCode.ofStatements (statementsFrom 1 (lines source.toList))
  /-- The positions of the fixups increase. -/
  increasing : code.fixups.Pairwise (·.position.Before ·.position)
  /-- No two fixups have the same position. -/
  distinct : (code.fixups.map (·.position)).Nodup
  /-- Every fixup stands at the word of its line. -/
  standing : ∀ f ∈ code.fixups, StandsAtLine (lines source.toList) code f
  /-- Whatever addresses labels have, there is a word at the position of every fixup. -/
  inside : ∀ labels p, code.resolve labels ≠ .error (.outside p)
  /-- If no fixup is refused, the words at the fixups are filled in and nothing else is changed. -/
  filled : ∀ labels after, code.resolve labels = .ok after →
    FilledIn labels code.fixups code.segments after
  /-- If no fixup is refused, of the word of an instruction only bits 15 to 0 are changed. -/
  high : ∀ labels after, code.resolve labels = .ok after →
    ∀ f ∈ code.fixups, f.note.field = .address →
      ∃ word new, f.position.word? code.segments = some word ∧
        f.position.word? after = some new ∧
        ∀ i, 16 ≤ i → new.toNat.testBit i = word.toNat.testBit i
  /-- The outcome is that of assembling the text. -/
  image : code.image d.labels = (assemble source).mapError .refused

/-- If all lines of a text are read, then after them every fixup is at the position of the word that
its line has put down, and the positions are different and in increasing order. So the second pass
finds a word at every fixup. If it succeeds, it has changed the words at the fixups alone, and in
those of instructions only the address. -/
theorem secondPass_of_read {source : String} {d : Draft}
    (read : Draft.ofSource source.toList = .ok d) : SecondPass source d d.objectCode := by
  have same := objectCode_ofSource read
  have well : ObjectCode.WellPlaced (statementsFrom 1 (lines source.toList)) d.objectCode :=
    same ▸ ObjectCode.wellPlaced_ofStatements _
  refine ⟨same, well.increasing, ?_, fun f member => ?_, well.resolve_ne_outside,
    fun labels after => well.filledIn, fun labels after resolved f member address => ?_, ?_⟩
  · exact List.pairwise_map.2 (well.increasing.imp Position.Before.ne)
  · obtain ⟨front, s, back, word, split, position, waits, stands⟩ := well.standing f member
    obtain ⟨before, text, after, texts, line, said, rfl⟩ := exists_text split
    exact ⟨before, text, after, s, word, texts, line, said, position, waits, stands⟩
  · obtain ⟨word, value, new, stands, -, fits, here⟩ := (well.filledIn resolved).filled f member
    rw [address] at fits
    exact ⟨word, new, stands, here, fun i => testBit_fill_address fits⟩
  · have assembled : assemble source = d.complete := by
      rw [assemble, assembleChars, read]
      rfl
    rw [assembled, image_objectCode well]

/-- In a text of two segments an instruction waits for a label that the second segment defines, and
in the second segment data and an instruction wait for labels on later lines. -/
theorem secondPass_of_read_two_segments :
    ∃ d, Draft.ofSource "TRA b,X\n ; the data\nORG 5\nDAT a+1\na: LDA b\nb:\nHLT".toList = .ok d ∧
      d.objectCode.segments = [⟨0, [0x10020000]⟩, ⟨5, [0, 0x01000000, 0]⟩] ∧
      d.objectCode.fixups.map (·.position) = [⟨0, 0⟩, ⟨1, 0⟩, ⟨1, 1⟩] ∧
      d.objectCode.resolve d.labels =
        .ok [⟨0, [0x10020007]⟩, ⟨5, [7, 0x01000007, 0]⟩] ∧
      SecondPass "TRA b,X\n ; the data\nORG 5\nDAT a+1\na: LDA b\nb:\nHLT" d d.objectCode :=
  ⟨_, rfl, by decide, by decide, by decide, secondPass_of_read rfl⟩

end DirectionCentral.Assembly

import DirectionCentral.Proofs.Assembly.Reading
import DirectionCentral.Proofs.Assembly.References
import DirectionCentral.Proofs.Instruction.Fields

/-!
# Drafting a program

What a draft holds after some lines of a program (`Drafted`): the labels of those lines with their
addresses, and a segment for every run with a place for every word. A place may wait for a label, so
what is said of it is what it comes to under any labels that complete it (`CellDenotes`). Reading
one more line keeps the invariant (`Drafted.addLine`), hence reading a whole text does
(`exists_drafted`).
-/

namespace DirectionCentral.Assembly

open Text

/-! ## Places -/

/-- Whatever word completes a place, it is the word of the line. -/
def CellDenotes (line : Line) (cell : Cell) : Prop :=
  ∀ labels word, cell.complete labels = .ok word → LineDenotes (Listed labels) line word

/-- A place that waits for a reference is completed by filling in its value. -/
theorem fill_of_complete {labels : List (String × Nat)} {word filled : Word} {pending : Pending}
    (complete : Cell.complete labels ⟨word, some pending⟩ = .ok filled) :
    ∃ value, OperandValue (Listed labels) (.reference pending.reference) value ∧
      pending.field.fill word value = .ok filled := by
  obtain ⟨value, resolved, fill⟩ := bind_eq_ok_iff.1 (mapError_eq_ok_iff.1 complete)
  exact ⟨value, operandValue_of_resolve resolved, fill⟩

/-- The word of a number holds its low 32 bits. -/
theorem toNat_ofInt (value : Int) : ((UInt32.ofInt value).toNat : Int) = value % 2 ^ 32 := by
  rw [UInt32.ofInt, UInt32.toNat_ofNat']
  omega

/-- An encoded operation is the word of its instruction. -/
theorem wordDenotes_encodeOperation {addressOf : String → Int → Prop} {op : Operation}
    {a : Argument} {indexed : Bool} {address : UInt16}
    (argument : ArgumentValue addressOf a address.toNat) :
    WordDenotes addressOf (Instruction.encodeOperation op address.toUInt32 indexed)
      (.instruction op a indexed) := by
  have bound := address.toNat_lt
  have fields := Instruction.decode_encode op.byte address.toUInt32 indexed
  refine .instruction argument (by omega) ?_ ?_ ?_ (Instruction.encode_unused ..)
  · rw [Instruction.encodeOperation, fields, Instruction.operation?]
    exact Operation.ofByte?_eq_some_iff.2 rfl
  · rw [Instruction.encodeOperation, fields, UInt16.toUInt16_toUInt32]
  · rw [Instruction.encodeOperation, fields]

/-- A statement that realizes a directive opens a segment or puts down a place for its word. -/
theorem place_of_realizes {d : Directive} {s : Statement} (realizes : Realizes d s)
    (draft : Draft) (number : Nat) (label? : Option String) :
    (∃ start : UInt16, (Line.mk label? d).origin? = some (start.toNat : Int) ∧
      draft.place number s = draft.openSegment start) ∨
    (∃ cell, (Line.mk label? d).origin? = none ∧ (Line.mk label? d).emits = true ∧
      draft.place number s = draft.emit cell ∧ CellDenotes ⟨label?, d⟩ cell) := by
  cases realizes with
  | origin start => exact .inl ⟨start, rfl, rfl⟩
  | @data value fits =>
    refine .inr ⟨_, rfl, rfl, rfl, fun labels word complete => ⟨_, rfl, ?_⟩⟩
    obtain rfl := Except.ok.inj complete
    exact .data (.number value) (toNat_ofInt value)
  | dataReference r =>
    refine .inr ⟨_, rfl, rfl, rfl, fun labels word complete => ⟨_, rfl, ?_⟩⟩
    obtain ⟨value, operand, fill⟩ := fill_of_complete complete
    simp only [Field.fill] at fill
    split at fill
    · contradiction
    · obtain rfl := Except.ok.inj fill
      exact .data operand (toNat_ofInt value)
  | instruction argument =>
    refine .inr ⟨_, rfl, rfl, rfl, fun labels word complete => ⟨_, rfl, ?_⟩⟩
    obtain rfl := Except.ok.inj complete
    exact wordDenotes_encodeOperation (argument _)
  | instructionReference op r indexed =>
    refine .inr ⟨_, rfl, rfl, rfl, fun labels word complete => ⟨_, rfl, ?_⟩⟩
    obtain ⟨value, operand, fill⟩ := fill_of_complete complete
    obtain ⟨address, inside, rfl⟩ := map_eq_ok_iff.1 fill
    obtain rfl := toAddress_eq_ok_iff.1 inside
    rw [Instruction.encodeOperation, Instruction.encode_fill]
    exact wordDenotes_encodeOperation (.operand operand)

/-! ## Drafts -/

/-- A segment of a draft has the places of a run. -/
structure RunDrafted (run : Layout.Run) (segment : DraftSegment) : Prop where
  /-- The segment starts where the run does. -/
  start : (segment.start.toNat : Int) = run.start
  /-- There is a place for every word of the run. -/
  cells : List.Forall₂ CellDenotes run.emitting segment.cells.toList

/-- The labels of some lines are listed with their addresses, once each. -/
structure LabelsListed (before : List Line) (labels : List (String × Nat)) : Prop where
  /-- A listed label has its address. -/
  known : ∀ label n, labels.lookup label = some n → Layout.LabelAt before label n
  /-- A label that is not listed is not defined. -/
  free : ∀ label, labels.lookup label = none → label ∉ Layout.labels before
  /-- No label is defined twice. -/
  distinct : (Layout.labels before).Nodup

/-- A draft holds what some lines say. -/
structure Drafted (before : List Line) (d : Draft) : Prop where
  /-- The labels. -/
  labels : LabelsListed before d.labels
  /-- The segments. -/
  runs : List.Forall₂ RunDrafted (Layout.runs before) d.segments

/-- Before any line the draft is empty. -/
theorem drafted_nil : Drafted [] {} where
  labels := ⟨fun _ _ found => by contradiction, fun _ _ => List.not_mem_nil, List.nodup_nil⟩
  runs := .cons ⟨rfl, .nil⟩ .nil

/-- Lists that end in one more element are related just if their parts are. -/
theorem forall₂_concat_iff {α β : Type} {R : α → β → Prop} {as : List α} {bs : List β} {a : α}
    {b : β} : List.Forall₂ R (as ++ [a]) (bs ++ [b]) ↔ List.Forall₂ R as bs ∧ R a b := by
  rw [← List.forall₂_reverse_iff, List.reverse_concat', List.reverse_concat', List.forall₂_cons,
    List.forall₂_reverse_iff, and_comm]

variable {before : List Line} {d d' : Draft}

/-- The open segment of a draft is the last run. -/
theorem exists_last_drafted (runs : List.Forall₂ RunDrafted (Layout.runs before) d.segments) :
    ∃ closed last, Layout.runs before = closed ++ [last] ∧
      List.Forall₂ RunDrafted closed d.closed.toList ∧ RunDrafted last d.current := by
  obtain ⟨closed, last, shape⟩ := Layout.exists_last_run 0 before
  rw [Layout.runs, shape] at runs
  obtain ⟨front, back⟩ := forall₂_concat_iff.1 runs
  exact ⟨closed, last, shape, front, back⟩

/-- A draft knows the address of the next word. -/
theorem Drafted.nextAddress (drafted : Drafted before d) :
    (d.nextAddress : Int) = Layout.nextAddress before := by
  obtain ⟨closed, last, shape, -, current⟩ := exists_last_drafted drafted.runs
  rw [Layout.nextAddress_eq shape, Draft.nextAddress, Nat.cast_add, current.start,
    current.cells.length_eq, Array.length_toList]

/-! ## One more line -/

/-- Defining the label of a line lists it. -/
theorem LabelsListed.define {line : Line} {label : String} (defines : line.label? = some label)
    (drafted : Drafted before d) (define : d.define label = .ok d') :
    LabelsListed (before ++ [line]) d'.labels ∧ d'.segments = d.segments := by
  have fresh : d.labels.lookup label = none ∧
      d' = { d with labels := (label, d.nextAddress) :: d.labels } := by
    rw [Draft.define] at define
    cases found : d.labels.lookup label with
    | some n => simp [found, refuse] at define
    | none =>
      simp only [found, Except.ok.injEq] at define
      exact ⟨rfl, define.symm⟩
  obtain ⟨fresh, rfl⟩ := fresh
  have labels : Layout.labels (before ++ [line]) = Layout.labels before ++ [label] := by
    simp [Layout.labels, defines]
  have unused := drafted.labels.free label fresh
  refine ⟨⟨fun other n found => ?_, fun other missing => ?_, ?_⟩, rfl⟩
  · rw [List.lookup_cons] at found
    by_cases same : other = label
    · simp only [same, BEq.rfl, Option.some.injEq] at found
      rw [same, ← found, drafted.nextAddress]
      exact ⟨before, line, [], rfl, defines, rfl⟩
    · simp only [beq_eq_false_iff_ne.2 same] at found
      exact (drafted.labels.known other n found).append [line]
  · rw [List.lookup_cons] at missing
    by_cases same : other = label
    · simp [same] at missing
    · simp only [beq_eq_false_iff_ne.2 same] at missing
      rw [labels, List.mem_append, List.mem_singleton, not_or]
      exact ⟨drafted.labels.free other missing, same⟩
  · rw [labels, List.nodup_append]
    refine ⟨drafted.labels.distinct, by simp, fun other member last found => ?_⟩
    obtain rfl := List.mem_singleton.1 found
    exact fun same => unused (same ▸ member)

/-- A line without a label changes no label. -/
theorem LabelsListed.skip {line : Line} (unlabelled : line.label? = none)
    {labels : List (String × Nat)} (listed : LabelsListed before labels) :
    LabelsListed (before ++ [line]) labels := by
  have same : Layout.labels (before ++ [line]) = Layout.labels before := by
    simp [Layout.labels, unlabelled]
  refine ⟨fun label n found => (listed.known label n found).append [line], ?_, ?_⟩
  · rw [same]
    exact listed.free
  · rw [same]
    exact listed.distinct

/-- A place that a line puts down goes into its run. -/
theorem runs_emit {line : Line} {cell : Cell} (origin : line.origin? = none)
    (emits : line.emits = true) (denotes : CellDenotes line cell)
    (runs : List.Forall₂ RunDrafted (Layout.runs before) d.segments) :
    List.Forall₂ RunDrafted (Layout.runs (before ++ [line])) (d.emit cell).segments := by
  obtain ⟨closed, last, shape, front, current⟩ := exists_last_drafted runs
  rw [Layout.runs_other origin shape]
  refine forall₂_concat_iff.2 ⟨front, current.start, ?_⟩
  have emitting : (Layout.Run.mk last.start (last.lines ++ [line])).emitting =
      last.emitting ++ [line] := by
    simp [Layout.Run.emitting, emits]
  rw [emitting, Draft.emit, Array.toList_push]
  exact forall₂_concat_iff.2 ⟨current.cells, denotes⟩

/-- A line without a statement changes no place. -/
theorem runs_skip {line : Line} (origin : line.origin? = none) (emits : line.emits = false)
    (runs : List.Forall₂ RunDrafted (Layout.runs before) d.segments) :
    List.Forall₂ RunDrafted (Layout.runs (before ++ [line])) d.segments := by
  obtain ⟨closed, last, shape, front, current⟩ := exists_last_drafted runs
  rw [Layout.runs_other origin shape]
  refine forall₂_concat_iff.2 ⟨front, current.start, ?_⟩
  have emitting : (Layout.Run.mk last.start (last.lines ++ [line])).emitting = last.emitting := by
    simp [Layout.Run.emitting, emits]
  rw [emitting]
  exact current.cells

/-- Opening a segment begins a run. -/
theorem runs_openSegment {line : Line} {start : UInt16}
    (origin : line.origin? = some (start.toNat : Int))
    (runs : List.Forall₂ RunDrafted (Layout.runs before) d.segments) :
    List.Forall₂ RunDrafted (Layout.runs (before ++ [line])) (d.openSegment start).segments := by
  rw [Layout.runs_origin origin]
  have segments : (d.openSegment start).segments = d.segments ++ [⟨start, #[]⟩] := by
    simp [Draft.segments, Draft.openSegment]
  rw [segments]
  exact forall₂_concat_iff.2 ⟨runs, rfl, .nil⟩

/-- Adding what a line says extends what the draft holds by that line. -/
theorem Drafted.addSourceLine {number : Nat} {line : Line} {source : SourceLine}
    {s? : Option Statement} (drafted : Drafted before d) (labels : line.label? = source.label?)
    (statement : source.statement = .ok s?) (realizes : Option.Rel Realizes line.directive? s?)
    (added : d.addSourceLine number source = .ok d') : Drafted (before ++ [line]) d' := by
  obtain ⟨labelled, label, placed⟩ := bind_eq_ok_iff.1 added
  rw [statement] at placed
  obtain rfl := Except.ok.inj placed
  -- The label is defined before the statement is placed, so it gets the address before the word.
  have listed : LabelsListed (before ++ [line]) labelled.labels ∧
      labelled.segments = d.segments := by
    rw [← labels] at label
    cases defines : line.label? with
    | none =>
      simp only [defines, Except.ok.injEq] at label
      rw [← label]
      exact ⟨drafted.labels.skip defines, rfl⟩
    | some name =>
      simp only [defines] at label
      exact LabelsListed.define defines drafted label
  obtain ⟨listed, same⟩ := listed
  have runs := drafted.runs
  rw [← same] at runs
  obtain ⟨label?, directive?⟩ := line
  cases realizes with
  | none => exact ⟨listed, runs_skip rfl rfl runs⟩
  | some realizes =>
    obtain ⟨start, origin, opens⟩ | ⟨cell, origin, emits, puts, denotes⟩ :=
      place_of_realizes realizes labelled number label?
    · simp only [opens]
      exact ⟨listed, runs_openSegment origin runs⟩
    · simp only [puts]
      exact ⟨listed, runs_emit origin emits denotes runs⟩

/-- Reading one more line without a fault extends what the draft holds by that line. -/
theorem Drafted.addLine {number : Nat} {text : List Char} (drafted : Drafted before d)
    (read : d.addLine number text = .ok d') :
    ∃ line, LineText text line ∧ Drafted (before ++ [line]) d' := by
  obtain ⟨source, readable, added⟩ := bind_eq_ok_iff.1 (mapError_eq_ok_iff.1 read)
  obtain ⟨labelled, label, placed⟩ := bind_eq_ok_iff.1 added
  obtain ⟨s?, statement, place⟩ := map_eq_ok_iff.1 placed
  obtain ⟨line, said, labels, realizes⟩ := lineText_of_readLine readable statement
  exact ⟨line, said, drafted.addSourceLine labels statement realizes added⟩

/-- Reading lines without a fault extends what the draft holds by those lines. -/
theorem Drafted.addLines {number : Nat} {texts : List (List Char)} (drafted : Drafted before d)
    (read : d.addLines number texts = .ok d') :
    ∃ lines, List.Forall₂ LineText texts lines ∧ Drafted (before ++ lines) d' := by
  induction texts generalizing before d number with
  | nil =>
    obtain rfl := Except.ok.inj read
    exact ⟨[], .nil, (List.append_nil before).symm ▸ drafted⟩
  | cons text texts ih =>
    obtain ⟨next, first, rest⟩ := bind_eq_ok_iff.1 read
    obtain ⟨line, said, drafted⟩ := drafted.addLine first
    obtain ⟨lines, all, drafted⟩ := ih drafted rest
    refine ⟨line :: lines, .cons said all, ?_⟩
    rwa [List.append_assoc] at drafted

/-- The draft of a source text holds what its lines say. -/
theorem exists_drafted {source : List Char} (read : Draft.ofSource source = .ok d) :
    ∃ program, List.Forall₂ LineText (lines source) program ∧ Drafted program d :=
  drafted_nil.addLines read

/-- The draft of a source text holds the one program that the text says. -/
theorem exists_drafted_iff {source : List Char} (read : Draft.ofSource source = .ok d) :
    ∃ program, (∀ other, List.Forall₂ LineText (lines source) other ↔ other = program) ∧
      Drafted program d := by
  obtain ⟨program, said, drafted⟩ := exists_drafted read
  have unique : Relator.RightUnique LineText := fun _ _ _ => LineText.unique
  exact ⟨program, fun other => ⟨fun reading => List.right_unique_forall₂' unique reading said,
    fun same => same ▸ said⟩, drafted⟩

end DirectionCentral.Assembly

import DirectionCentral.Proofs.Assembly.Acceptance
import DirectionCentral.Proofs.Assembly.Drafting
import DirectionCentral.Proofs.Assembly.WellFormed

/-!
# Drafting and completing a well-formed program

Lines of a well-formed program are read into a draft without a fault (`exists_addLines`), since
their labels are new and their statements hold their directives. Every place of the draft comes from
a line that it can be completed for (`Completable`), so that the draft is completed without a fault
as well (`exists_complete`).
-/

namespace DirectionCentral.Assembly

open Text

variable {before program : List Line} {line : Line} {d d' : Draft}

/-! ## Places -/

/-- The places of a draft in order. -/
def Draft.cells (d : Draft) : List Cell := d.segments.flatMap (·.cells.toList)

/-- A word that is put down is the last place. -/
theorem cells_emit (d : Draft) (cell : Cell) : (d.emit cell).cells = d.cells ++ [cell] := by
  simp [Draft.cells, Draft.segments, Draft.emit]

/-- A segment that is opened has no place yet. -/
theorem cells_openSegment (d : Draft) (start : UInt16) : (d.openSegment start).cells = d.cells := by
  simp [Draft.cells, Draft.segments, Draft.openSegment]

/-- A place can be completed with any labels that let its directive fit. -/
def Completes (directive : Directive) (cell : Cell) : Prop :=
  ∀ labels, Admissible (Listed labels) directive → ∃ word, cell.complete labels = .ok word

/-- Every place of a draft can be completed for a line of some program. -/
def Completable (program : List Line) (d : Draft) : Prop :=
  ∀ cell ∈ d.cells, ∃ line ∈ program, ∃ directive, line.directive? = some directive ∧
    Completes directive cell

/-- A place that waits for a reference is completed if its value fits. -/
theorem exists_complete_cell {labels : List (String × Nat)} {word : Word} {pending : Pending}
    {value : Int} (comes : OperandValue (Listed labels) (.reference pending.reference) value)
    (takes : pending.field.Takes value) :
    ∃ filled, Cell.complete labels ⟨word, some pending⟩ = .ok filled := by
  obtain ⟨filled, fill⟩ := exists_resolve_bind comes takes
  exact ⟨filled, mapError_eq_ok_iff.2 fill⟩

/-- What a statement puts down can be completed for the directive that the statement holds. -/
theorem completes_place {directive : Directive} {s : Statement} (realizes : Realizes directive s)
    (d : Draft) (number : Nat) {cell : Cell} (member : cell ∈ (d.place number s).cells) :
    cell ∈ d.cells ∨ Completes directive cell := by
  have put {new : Cell} (placed : d.place number s = d.emit new)
      (completes : Completes directive new) : cell ∈ d.cells ∨ Completes directive cell := by
    rw [placed, cells_emit, List.mem_append, List.mem_singleton] at member
    obtain old | rfl := member
    · exact .inl old
    · exact .inr completes
  cases realizes with
  | origin start =>
    rw [Draft.place, cells_openSegment] at member
    exact .inl member
  | data | instruction => exact put rfl fun labels _ => ⟨_, rfl⟩
  | dataReference r =>
    refine put rfl fun labels admissible => ?_
    cases admissible with
    | reference comes inside => exact exists_complete_cell comes ⟨inside.1, by omega⟩
  | instructionReference op r indexed =>
    refine put rfl fun labels admissible => ?_
    cases admissible with
    | instruction comes inside =>
      cases comes with
      | operand comes => exact exists_complete_cell comes inside

/-! ## Drafting -/

/-- A new label is defined without a fault, and no place changes. -/
theorem exists_define {label : String} (drafted : Drafted before d)
    (new : label ∉ Layout.labels before) :
    ∃ d', d.define label = .ok d' ∧ d'.cells = d.cells := by
  have unlisted : d.labels.lookup label = none := by
    cases found : d.labels.lookup label with
    | none => rfl
    | some n => exact absurd (drafted.labels.known label n found).mem_labels new
  rw [Draft.define, unlisted]
  exact ⟨_, rfl, rfl⟩

/-- The label of a line is new if no label is defined twice. -/
theorem not_mem_labels {label : String} (distinct : (Layout.labels (before ++ [line])).Nodup)
    (defines : line.label? = some label) : label ∉ Layout.labels before := by
  have labels : Layout.labels (before ++ [line]) = Layout.labels before ++ [label] := by
    simp [Layout.labels, defines]
  rw [labels, List.nodup_append] at distinct
  exact fun old => distinct.2.2 label old label (List.mem_singleton_self label) rfl

/-- A line with a new label and with a statement for its directive is added without a fault. -/
theorem exists_addSourceLine {s? : Option Statement} (drafted : Drafted before d)
    (completable : Completable before d) (distinct : (Layout.labels (before ++ [line])).Nodup)
    (realizes : Option.Rel Realizes line.directive? s?) (number : Nat) :
    ∃ d', d.addSourceLine number ⟨line.label?, .ok s?⟩ = .ok d' ∧
      Completable (before ++ [line]) d' := by
  -- The label adds no place, so that all places but that of the statement are old ones.
  have added (labelled : Draft) (same : labelled.cells = d.cells) :
      Completable (before ++ [line]) (s?.elim labelled (labelled.place number)) := by
    have old : ∀ cell ∈ labelled.cells, ∃ other ∈ before ++ [line], ∃ directive,
        other.directive? = some directive ∧ Completes directive cell := by
      intro cell member
      rw [same] at member
      obtain ⟨other, earlier, completes⟩ := completable cell member
      exact ⟨other, List.mem_append_left _ earlier, completes⟩
    intro cell member
    generalize kept : line.directive? = directive? at realizes
    cases realizes with
    | none => exact old cell member
    | some realizes =>
      obtain earlier | completes := completes_place realizes labelled number member
      · exact old cell earlier
      · exact ⟨line, by simp, _, kept, completes⟩
  cases defines : line.label? with
  | none =>
    refine ⟨_, ?_, added d rfl⟩
    cases s? <;> rfl
  | some label =>
    obtain ⟨labelled, defined, same⟩ := exists_define drafted (not_mem_labels distinct defines)
    refine ⟨_, bind_eq_ok_iff.2 ⟨labelled, defined, ?_⟩, added labelled same⟩
    cases s? <;> rfl

/-- The text of a line with a new label and with a statement for its directive is read into a draft
without a fault. -/
theorem exists_addLine {text : List Char} (said : LineText text line)
    (realizes : ∃ s?, Option.Rel Realizes line.directive? s?) (drafted : Drafted before d)
    (completable : Completable before d) (distinct : (Layout.labels (before ++ [line])).Nodup)
    (number : Nat) : ∃ d', d.addLine number text = .ok d' ∧ Drafted (before ++ [line]) d' ∧
      Completable (before ++ [line]) d' := by
  obtain ⟨s?, realizes⟩ := realizes
  obtain ⟨d', added, completable⟩ :=
    exists_addSourceLine drafted completable distinct realizes number
  refine ⟨d', ?_, drafted.addSourceLine rfl rfl realizes added, completable⟩
  rw [Draft.addLine, readLine_of_lineText said realizes]
  exact mapError_eq_ok_iff.2 added

/-- Texts of lines with new labels and with statements for their directives are read into a draft
without a fault. -/
theorem exists_addLines {texts : List (List Char)} {rest : List Line}
    (said : List.Forall₂ LineText texts rest)
    (realizes : ∀ line ∈ rest, ∃ s?, Option.Rel Realizes line.directive? s?)
    (drafted : Drafted before d) (completable : Completable before d)
    (distinct : (Layout.labels (before ++ rest)).Nodup) (number : Nat) :
    ∃ d', d.addLines number texts = .ok d' ∧ Drafted (before ++ rest) d' ∧
      Completable (before ++ rest) d' := by
  induction said generalizing before d number with
  | nil =>
    rw [List.append_nil]
    exact ⟨d, rfl, drafted, completable⟩
  | @cons text line texts rest first _ ih =>
    have split : before ++ line :: rest = before ++ [line] ++ rest := by simp
    rw [split] at distinct ⊢
    obtain ⟨now, later⟩ := List.forall_mem_cons.1 realizes
    have front : (Layout.labels (before ++ [line])).Nodup := by
      rw [Layout.labels, List.filterMap_append, List.nodup_append] at distinct
      exact distinct.1
    obtain ⟨next, read, drafted, completable⟩ :=
      exists_addLine first now drafted completable front number
    obtain ⟨d', others, held⟩ := ih later drafted completable distinct (number + 1)
    refine ⟨d', ?_, held⟩
    rw [Draft.addLines, read]
    exact others

/-! ## Completing -/

/-- The labels of a finished program are listed at their addresses. -/
theorem LabelsListed.listed {labels : List (String × Nat)} (listed : LabelsListed program labels)
    {label : String} {address : Int} (found : Layout.LabelAt program label address) :
    Listed labels label address := by
  cases known : labels.lookup label with
  | none => exact absurd found.mem_labels (listed.free label known)
  | some n => exact ⟨n, known, found.unique listed.distinct (listed.known label n known)⟩

/-- What fits at some addresses fits wherever there are those addresses. -/
theorem Admissible.mono {less more : String → Int → Prop} {directive : Directive}
    (subset : ∀ label address, less label address → more label address)
    (admissible : Admissible less directive) : Admissible more directive := by
  cases admissible with
  | origin inside => exact .origin inside
  | number inside => exact .number inside
  | reference comes inside => exact .reference (comes.mono subset) inside
  | instruction comes inside =>
    refine .instruction ?_ inside
    cases comes with
    | none => exact .none
    | operand comes => exact .operand (comes.mono subset)
    | counts high low => exact .counts high low

/-- The draft of a well-formed program is completed without a fault. -/
theorem exists_complete (wellFormed : WellFormed program) (drafted : Drafted program d)
    (completable : Completable program d) : ∃ image, d.complete = .ok image := by
  have cell : ∀ cell ∈ d.cells, ∃ word, cell.complete d.labels = .ok word := by
    intro cell member
    obtain ⟨line, present, directive, asks, completes⟩ := completable cell member
    have admissible := wellFormed.admissible line present directive asks
    exact completes d.labels (admissible.mono fun _ _ => drafted.labels.listed)
  have segment : ∀ segment ∈ d.filled, ∃ words, segment.complete d.labels = .ok words := by
    intro segment member
    have filled : ∀ cell ∈ segment.cells.toList, ∃ word, cell.complete d.labels = .ok word :=
      fun place inside =>
        cell place (List.mem_flatMap.2 ⟨segment, (List.mem_filter.1 member).1, inside⟩)
    obtain ⟨words, each⟩ := exists_mapM_eq_ok filled
    exact ⟨_, map_eq_ok_iff.2 ⟨words, each, rfl⟩⟩
  obtain ⟨segments, each⟩ := exists_mapM_eq_ok segment
  exact ⟨⟨segments⟩, map_eq_ok_iff.2 ⟨segments, each, rfl⟩⟩

end DirectionCentral.Assembly

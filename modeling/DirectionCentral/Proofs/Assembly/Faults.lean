import DirectionCentral.Proofs.Assembly.Completion
import DirectionCentral.Proofs.Assembly.Composition

/-!
# The fault that is reported

A draft is completed place by place, so that it fails for the first place that cannot be completed
(`error?_complete`). The places stand in the order of the lines that put them down: reading a line
only adds places, and at the end (`cells_addLines`). So what is reported of a program with faults is
decided by the first line with one, once all lines have been read.
-/

namespace DirectionCentral.Assembly

variable {d d' : Draft} {number : Nat}

/-- A draft fails to be completed for its first place that fails. -/
theorem error?_complete (d : Draft) :
    error? d.complete = d.cells.findSome? fun cell => error? (cell.complete d.labels) := by
  rw [Draft.complete, error?_map, error?_mapM, Draft.filled, Draft.cells]
  induction d.segments with
  | nil => rfl
  | cons segment rest ih =>
    have here : error? (segment.complete d.labels) =
        segment.cells.toList.findSome? fun cell => error? (cell.complete d.labels) := by
      rw [DraftSegment.complete, error?_map, error?_mapM]
    rw [List.flatMap_cons, List.findSome?_append, ← ih, ← here]
    by_cases empty : segment.cells.isEmpty
    · have none : error? (segment.complete d.labels) = none := by
        simp [here, Array.isEmpty_iff.1 empty]
      rw [List.filter_cons_of_neg (by simp [empty]), none, Option.none_or]
    · rw [List.filter_cons_of_pos (by simp [empty]), List.findSome?_cons]
      cases error? (segment.complete d.labels) <;> rfl

/-! ## Places in the order of the lines -/

/-- A statement adds at most one place, at the end. -/
theorem cells_place (d : Draft) (number : Nat) (s : Statement) :
    d.cells <+: (d.place number s).cells := by
  cases s with
  | origin start => exact cells_openSegment d start ▸ List.prefix_rfl
  | data | dataReference | instruction | instructionReference =>
    rw [Draft.place, cells_emit]
    exact List.prefix_append _ _

/-- Defining a label changes the labels alone. -/
theorem exists_labels {label : String} (defined : d.define label = .ok d') :
    ∃ labels, d' = { d with labels } := by
  rw [Draft.define] at defined
  split at defined
  · contradiction
  · exact ⟨_, (Except.ok.inj defined).symm⟩

/-- What a line says is placed after its label is defined, which changes the labels alone. -/
theorem exists_relabelled {source : SourceLine} (added : d.addSourceLine number source = .ok d') :
    ∃ labels s?, source.statement = .ok s? ∧
      d' = s?.elim { d with labels } (Draft.place { d with labels } number) := by
  obtain ⟨labelled, label, placed⟩ := bind_eq_ok_iff.1 added
  obtain ⟨s?, statement, rfl⟩ := map_eq_ok_iff.1 placed
  obtain ⟨labels, rfl⟩ : ∃ labels, labelled = { d with labels } := by
    split at label
    · exact exists_labels label
    · exact ⟨d.labels, (Except.ok.inj label).symm⟩
  exact ⟨labels, s?, statement, by cases s? <;> rfl⟩

/-- What a line says is placed after its label is defined, which adds no place. -/
theorem exists_labelled {source : SourceLine} (added : d.addSourceLine number source = .ok d') :
    ∃ labelled s?, labelled.cells = d.cells ∧ source.statement = .ok s? ∧
      d' = s?.elim labelled (labelled.place number) := by
  obtain ⟨labels, s?, statement, placed⟩ := exists_relabelled added
  exact ⟨{ d with labels }, s?, rfl, statement, placed⟩

/-- A line adds places at the end. -/
theorem cells_addLine {text : List Char} (read : d.addLine number text = .ok d') :
    d.cells <+: d'.cells := by
  obtain ⟨source, -, added⟩ := bind_eq_ok_iff.1 (mapError_eq_ok_iff.1 read)
  obtain ⟨labelled, s?, same, -, rfl⟩ := exists_labelled added
  rw [← same]
  cases s? with
  | none => exact List.prefix_rfl
  | some s => exact cells_place labelled number s

/-- Lines add places at the end. -/
theorem cells_addLines {texts : List (List Char)} (read : d.addLines number texts = .ok d') :
    d.cells <+: d'.cells := by
  induction texts generalizing d number with
  | nil => exact Except.ok.inj read ▸ List.prefix_rfl
  | cons text rest ih =>
    obtain ⟨next, first, others⟩ := bind_eq_ok_iff.1 read
    exact (cells_addLine first).trans (ih others)

end DirectionCentral.Assembly

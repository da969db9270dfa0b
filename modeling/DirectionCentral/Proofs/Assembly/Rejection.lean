import DirectionCentral.Proofs.Assembly.Notes

/-!
# The line of an error

An error is about the first line that is at fault. A line that cannot be read is refused for what it
says itself and for labels that earlier lines define, so that later lines do not matter
(`FailsReading`). If all lines are read, the first line is refused whose reference fails, where all
lines count (`FailsCompleting`). Either way it is a line with code (`rejected_on_first_fault`).
-/

namespace DirectionCentral.Assembly

open Text

variable {d d' : Draft} {number : Nat} {e : Error} {text : List Char} {program : List Line}

/-- There are only blanks on a line before its comment, if it has one. -/
def Idle (text : List Char) : Prop :=
  ∃ blank comment, CutAt (· == ';') text blank comment ∧ ∀ c ∈ blank, isBlank c = true

/-- A fault of a line itself and not of a label that is missing. -/
def Fault.InLine (fault : Fault) : Prop := ∀ label, fault ≠ .undefinedLabel label

/-! ## Faults of reading -/

/-- A form is refused for the line itself. -/
theorem inLine_refuse {α : Type} (fault : SyntaxFault) :
    Fails Fault.InLine (refuse fault : Except Fault α) :=
  .error fun _ same => by contradiction

/-- A number is refused for the line itself. -/
theorem inLine_outOfRange {α : Type} (value : Int) :
    Fails (α := α) Fault.InLine (.error (.outOfRange value)) :=
  .error fun _ same => by contradiction

/-- An address is refused for the line itself. -/
theorem inLine_toAddress (value : Int) : Fails Fault.InLine (toAddress value) := by
  rw [toAddress]
  split
  · exact .ok _ _
  · exact inLine_outOfRange value

/-- An operand is refused for the line itself. -/
theorem inLine_readOperand (text : List Char) : Fails Fault.InLine (readOperand text) := by
  unfold readOperand
  dsimp only
  split
  · exact .ok _ _
  · refine .bind ?_ fun offset => ?_
    · split
      · exact .ok _ _
      · split
        · exact .ok _ _
        · exact inLine_refuse _
    · split
      · exact .ok _ _
      · exact inLine_refuse _

/-- A number of `TXI` is refused for the line itself. -/
theorem inLine_readCount (text : List Char) : Fails Fault.InLine (readCount text) := by
  refine .bind (inLine_readOperand text) fun o => ?_
  cases o with
  | reference r => exact inLine_refuse _
  | number value =>
    dsimp only
    split
    · exact .ok _ _
    · exact inLine_outOfRange value

/-- The numbers of `TXI` are refused for the line itself. -/
theorem inLine_readCounts (text : List Char) : Fails Fault.InLine (readCounts text) := by
  rw [readCounts]
  split
  · exact inLine_refuse _
  · exact .bind (inLine_readCount _) fun _ => .bind (inLine_readCount _) fun _ => .ok _ _

/-- An instruction is refused for the line itself. -/
theorem inLine_readInstruction (op : Operation) (operand : Option (List Char)) :
    Fails Fault.InLine (readInstruction op operand) := by
  cases operand with
  | none =>
    rw [readInstruction]
    split
    · exact inLine_refuse _
    · exact .ok _ _
  | some text =>
    rw [readInstruction]
    dsimp only
    split
    · exact .bind (inLine_readCounts _) fun _ => .ok _ _
    · refine .bind (inLine_readOperand _) fun o => ?_
      cases o with
      | number value => exact .bind (inLine_toAddress value) fun _ => .ok _ _
      | reference r => exact .ok _ _

/-- An origin is refused for the line itself. -/
theorem inLine_readOrigin (operand : Option (List Char)) :
    Fails Fault.InLine (readOrigin operand) := by
  cases operand with
  | none => exact inLine_refuse _
  | some text =>
    refine .bind (inLine_readOperand text) fun o => ?_
    cases o with
    | number value => exact .bind (inLine_toAddress value) fun _ => .ok _ _
    | reference r => exact inLine_refuse _

/-- Data is refused for the line itself. -/
theorem inLine_readData (operand : Option (List Char)) :
    Fails Fault.InLine (readData operand) := by
  cases operand with
  | none => exact inLine_refuse _
  | some text =>
    refine .bind (inLine_readOperand text) fun o => ?_
    cases o with
    | reference r => exact .ok _ _
    | number value =>
      dsimp only
      split
      · exact .ok _ _
      · exact inLine_outOfRange value

/-- A statement is refused for the line itself. -/
theorem inLine_readOptionalStatement (text : List Char) :
    Fails Fault.InLine (readOptionalStatement text) := by
  rw [readOptionalStatement]
  split
  · exact .ok _ _
  · refine .map ?_ some
    unfold readStatement
    dsimp only
    split
    · exact inLine_readOrigin _
    · split
      · exact inLine_readData _
      · split
        · exact inLine_readInstruction _ _
        · exact .error fun _ same => by contradiction

/-- A line that is read holds a statement or is refused for itself. -/
theorem inLine_readLine (text : List Char) :
    Fails Fault.InLine (readLine text) ∧
      ∀ source, readLine text = .ok source → Fails Fault.InLine source.statement := by
  rw [readLine]
  split
  · refine ⟨.ok _ _, fun source read => ?_⟩
    exact Except.ok.inj read ▸ inLine_readOptionalStatement _
  · dsimp only
    split
    · refine ⟨.ok _ _, fun source read => ?_⟩
      exact Except.ok.inj read ▸ inLine_readOptionalStatement _
    · exact ⟨inLine_refuse _, fun source read => by contradiction⟩

/-- A label that is defined again is refused for the line itself. -/
theorem inLine_define (d : Draft) (label : String) : Fails Fault.InLine (d.define label) := by
  rw [Draft.define]
  split
  · exact inLine_refuse _
  · exact .ok _ _

/-- What a line says is refused for the line itself, if its statement is. -/
theorem inLine_addSourceLine {source : SourceLine}
    (statement : Fails Fault.InLine source.statement) (d : Draft) (number : Nat) :
    Fails Fault.InLine (d.addSourceLine number source) := by
  refine .bind ?_ fun labelled => .map statement _
  split
  · exact inLine_define d _
  · exact .ok _ _

/-- A line is refused for itself, with its number. -/
theorem inLine_addLine (refused : d.addLine number text = .error e) :
    e.line = number ∧ e.fault.InLine := by
  have readable : Fails Fault.InLine ((readLine text).bind (d.addSourceLine number)) := by
    obtain ⟨unread, statement⟩ := inLine_readLine text
    cases read : readLine text with
    | error fault => exact .error (unread fault read)
    | ok source => exact inLine_addSourceLine (statement source read) d number
  rw [Draft.addLine] at refused
  cases added : (readLine text).bind (d.addSourceLine number) with
  | ok d' =>
    rw [added] at refused
    contradiction
  | error fault =>
    rw [added] at refused
    obtain rfl := Except.error.inj refused
    exact ⟨rfl, readable fault added⟩

/-- Lines that cannot be read are refused for the first one that cannot. -/
theorem exists_refused_line {texts : List (List Char)}
    (refused : d.addLines number texts = .error e) :
    ∃ front text back d', texts = front ++ text :: back ∧ d.addLines number front = .ok d' ∧
      d'.addLine (number + front.length) text = .error e := by
  induction texts generalizing d number with
  | nil => contradiction
  | cons text rest ih =>
    rw [Draft.addLines] at refused
    cases first : d.addLine number text with
    | error e' =>
      rw [first] at refused
      obtain rfl := Except.error.inj refused
      exact ⟨[], text, rest, d, rfl, rfl, first⟩
    | ok next =>
      rw [first] at refused
      obtain ⟨front, other, back, d', rfl, read, here⟩ := ih refused
      refine ⟨text :: front, other, back, d', rfl, ?_, ?_⟩
      · rw [Draft.addLines, first]
        exact read
      · rwa [List.length_cons, ← Nat.add_assoc, Nat.add_right_comm]

/-! ## Lines without code -/

/-- A line with nothing but blanks before its comment has no code. -/
theorem Idle.code (idle : Idle text) : code text = [] := by
  obtain ⟨blank, comment, cut, blanks⟩ := idle
  have none : blank.dropWhile isBlank = [] := List.dropWhile_eq_nil_iff.2 blanks
  rw [code_of_cutAt cut, trim, none]
  rfl

/-- A line without code is read as nothing. -/
theorem Idle.addLine (idle : Idle text) (d : Draft) (number : Nat) :
    d.addLine number text = .ok d := by
  rw [Draft.addLine, readLine, idle.code]
  rfl

/-- A line without code says nothing. -/
theorem Idle.lineText (idle : Idle text) : LineText text ⟨none, none⟩ :=
  .plain ⟨(List.append_nil _).symm, by simp [idle.code], fun _ first => by contradiction⟩
    (.none idle.code)

/-! ## References that fail -/

/-- A reference comes to a value in a program just if it does with the labels that are listed. -/
theorem operandValue_listed_iff {labels : List (String × Nat)}
    (listed : LabelsListed program labels) {o : Operand} {value : Int} :
    OperandValue (Layout.LabelAt program) o value ↔ OperandValue (Listed labels) o value := by
  refine ⟨fun comes => comes.mono fun _ _ => listed.listed, fun comes => comes.mono ?_⟩
  rintro label address ⟨n, found, rfl⟩
  exact listed.known label n found

/-- A reference that comes to a value is one to a label that is defined. -/
theorem mem_labels_of_operandValue {r : Reference} {value : Int}
    (comes : OperandValue (Layout.LabelAt program) (.reference r) value) :
    r.label ∈ Layout.labels program := by
  cases comes with
  | reference found => exact found.mem_labels

/-- A reference fails if its label is not defined, or if its value does not fit, which is reported
as what 64 bits make of it. -/
theorem fault?_cases {labels : List (String × Nat)} (listed : LabelsListed program labels)
    (r : Reference) (field : Field) :
    (r.label ∉ Layout.labels program ∧
      r.fault? labels field = some (.undefinedLabel r.label)) ∨
    ∃ value, OperandValue (Layout.LabelAt program) (.reference r) value ∧
      (field.Takes value ∧ r.fault? labels field = none ∨
        ¬ field.Takes value ∧ r.fault? labels field = some (.outOfRange (wrap64 value))) := by
  cases known : labels.lookup r.label with
  | none =>
    refine .inl ⟨listed.free r.label known, ?_⟩
    rw [Reference.fault?, Reference.resolve, known]
    rfl
  | some n =>
    have comes : OperandValue (Listed labels) (.reference r) (n + r.offset) :=
      .reference ⟨n, known, rfl⟩
    refine .inr ⟨n + r.offset, (operandValue_listed_iff listed).2 comes, ?_⟩
    by_cases takes : field.Takes (n + r.offset)
    · exact .inl ⟨takes, error?_eq_none_iff.2 (exists_resolve_bind comes takes)⟩
    · exact .inr ⟨takes, error?_eq_some_iff.2 (resolve_bind_of_not_takes comes takes)⟩

/-- What a reference fails with is that its label is undefined just if it is, and that a value is
out of range just if the reference comes to one that does not fit and is that value in 64 bits. -/
theorem fault_of_fails {labels : List (String × Nat)} (listed : LabelsListed program labels)
    {r : Reference} {field : Field} {fault : Fault}
    (fails : r.fault? labels field = some fault) :
    (fault = .undefinedLabel r.label ∨ ∃ value, fault = .outOfRange value) ∧
      (fault = .undefinedLabel r.label ↔ r.label ∉ Layout.labels program) ∧
      ∀ reported, fault = .outOfRange reported ↔ ∃ value,
        OperandValue (Layout.LabelAt program) (.reference r) value ∧ ¬ field.Takes value ∧
          reported = wrap64 value := by
  obtain ⟨missing, undefined⟩ | ⟨value, comes, ⟨-, passes⟩ | ⟨outside, refused⟩⟩ :=
    fault?_cases listed r field
  · obtain rfl := Option.some.inj (fails.symm.trans undefined)
    refine ⟨.inl rfl, ⟨fun _ => missing, fun _ => rfl⟩, fun reported => ⟨fun same => ?_, ?_⟩⟩
    · contradiction
    · rintro ⟨value, comes, -⟩
      exact absurd (mem_labels_of_operandValue comes) missing
  · rw [passes] at fails
    contradiction
  · obtain rfl := Option.some.inj (fails.symm.trans refused)
    refine ⟨.inr ⟨_, rfl⟩, ⟨fun same => ?_, fun missing => ?_⟩, fun reported => ⟨?_, ?_⟩⟩
    · contradiction
    · exact absurd (mem_labels_of_operandValue comes) missing
    · rintro ⟨rfl⟩
      exact ⟨value, comes, outside, rfl⟩
    · rintro ⟨other, also, -, rfl⟩
      have once label address address' :=
        @Layout.LabelAt.unique program label address address' listed.distinct
      rw [comes.unique once also]

/-! ## Either pass -/

/-- Reading the lines of a source text fails. -/
structure FailsReading (source : String) (e : Error) : Prop where
  /-- There is no draft. -/
  reading : Draft.ofSource source.toList = .error e
  /-- The line itself is at fault. -/
  inLine : e.fault.InLine
  /-- Whatever follows the line, the error is the same. -/
  decided : ∀ other : String,
    (lines other.toList).take e.line = (lines source.toList).take e.line →
      assemble other = .error e
  /-- The lines before it alone are read. -/
  earlier : ∃ d, Draft.ofSource (unlines ((lines source.toList).take (e.line - 1))) = .ok d

/-- All lines of a source text are read, and then the reference of one of them fails. -/
structure FailsCompleting (source : String) (e : Error) (before : List Line) (line : Line)
    (after : List Line) (r : Reference) (field : Field) : Prop where
  /-- There is a draft. -/
  reading : ∃ d, Draft.ofSource source.toList = .ok d
  /-- The text says one program. -/
  said : ∀ program, List.Forall₂ LineText (lines source.toList) program ↔
    program = before ++ line :: after
  /-- The error is about the line. -/
  number : e.line = before.length + 1
  /-- The line refers to a label. -/
  refers : line.reference? = some (r, field)
  /-- The error is one of two. -/
  fault : e.fault = .undefinedLabel r.label ∨ ∃ value, e.fault = .outOfRange value
  /-- It is that the label is undefined just if no line defines it. -/
  undefinedLabel : e.fault = .undefinedLabel r.label ↔
    r.label ∉ Layout.labels (before ++ line :: after)
  /-- It is that a value is out of range just if the reference comes to a value that does not fit,
  and what is reported is that value in 64 bits. -/
  outOfRange : ∀ reported, e.fault = .outOfRange reported ↔ ∃ value,
    OperandValue (Layout.LabelAt (before ++ line :: after)) (.reference r) value ∧
      ¬ field.Takes value ∧ reported = wrap64 value
  /-- The references of earlier lines come to values that fit. -/
  earlier : ∀ other ∈ before, ∀ r field, other.reference? = some (r, field) →
    ∃ value, OperandValue (Layout.LabelAt (before ++ line :: after)) (.reference r) value ∧
      field.Takes value

/-- Reading fails for the first line that cannot be read. -/
theorem failsReading_of_error {source : String}
    (refused : Draft.ofSource source.toList = .error e) :
    FailsReading source e ∧ ∃ front text back, lines source.toList = front ++ text :: back ∧
      e.line = front.length + 1 ∧ ¬ Idle text := by
  obtain ⟨front, text, back, d, whole, read, here⟩ := exists_refused_line refused
  obtain ⟨number, inLine⟩ := inLine_addLine here
  have last : e.line = front.length + 1 := number.trans (Nat.add_comm ..)
  refine ⟨⟨refused, inLine, fun other same => ?_, d, ?_⟩, front, text, back, whole, last, ?_⟩
  · have upTo : (front ++ text :: back).take (front.length + 1) = front ++ [text] := by
      rw [List.take_length_add_append, List.take_succ_cons, List.take_zero]
    have split : lines other.toList = front ++ text :: (lines other.toList).drop e.line := by
      rw [whole, last, upTo] at same
      rw [← List.take_append_drop (front.length + 1) (lines other.toList), same, last]
      simp
    rw [assemble, assembleChars, Draft.ofSource, split, addLines_append, read]
    change (Draft.addLines d (1 + front.length) _).bind _ = _
    rw [Draft.addLines, here]
    rfl
  · have kept : (front ++ text :: back).take front.length = front := List.take_left
    rw [whole, last, Nat.add_sub_cancel, kept, Draft.ofSource, lines_unlines, read]
    intro line member
    have inside : line ∈ lines source.toList := whole ▸ List.mem_append_left _ member
    exact newline_notMem inside
  · intro idle
    rw [idle.addLine] at here
    contradiction

/-- Completing fails for the first line whose reference fails. -/
theorem failsCompleting_of_error {source : String} {d : Draft}
    (read : Draft.ofSource source.toList = .ok d) (refused : d.complete = .error e) :
    ∃ before line after r field, FailsCompleting source e before line after r field := by
  obtain ⟨program, said, drafted⟩ := exists_drafted_iff read
  have notes : d.notes = notesFrom 1 program := notes_addLines ((said program).2 rfl) read
  have first := error?_eq_some_iff.2 refused
  rw [error?_complete_notes, notes] at first
  obtain ⟨before, line, after, r, field, rfl, number, refers, fails, earlier⟩ :=
    exists_failing_line first
  obtain ⟨fault, undefinedLabel, outOfRange⟩ := fault_of_fails drafted.labels fails
  refine ⟨before, line, after, r, field, ⟨d, read⟩, said, number.trans (Nat.add_comm ..), refers,
    fault, undefinedLabel, outOfRange, fun other member r field refers => ?_⟩
  have passes := earlier other member r field refers
  obtain ⟨-, undefined⟩ | ⟨value, comes, ⟨fits, -⟩ | ⟨-, refused⟩⟩ :=
    fault?_cases drafted.labels r field
  · rw [passes] at undefined
    contradiction
  · exact ⟨value, comes, fits⟩
  · rw [passes] at refused
    contradiction

/-- A line that refers to a label has code. -/
theorem not_idle_of_reference {line : Line} {r : Reference} {field : Field}
    (said : LineText text line) (refers : line.reference? = some (r, field)) : ¬ Idle text := by
  intro idle
  rw [said.unique idle.lineText] at refers
  contradiction

/-- The line after some lines of a text is one of its lines, by its number. -/
theorem exists_line_of_split {source : String} {front back : List (List Char)}
    (whole : lines source.toList = front ++ text :: back) (last : number = front.length + 1)
    (active : ¬ Idle text) :
    ∃ text, (lines source.toList)[number - 1]? = some text ∧ 1 ≤ number ∧
      number ≤ (lines source.toList).length ∧ ¬ Idle text := by
  refine ⟨text, ?_, by omega, ?_, active⟩
  · rw [whole, last, Nat.add_sub_cancel, List.getElem?_append_right (Nat.le_refl _), Nat.sub_self]
    rfl
  · rw [whole, last, List.length_append, List.length_cons]
    omega

/-- The error of a source text that is rejected is about one of its lines with code. Either reading
fails at that line, whatever follows it and not before it; or all lines are read, and it is the
first line whose reference fails, for its label if no line of the text defines it, and else for its
value. -/
theorem rejected_on_first_fault {source : String} {e : Error}
    (rejected : assemble source = .error e) :
    (∃ text, (lines source.toList)[e.line - 1]? = some text ∧ 1 ≤ e.line ∧
      e.line ≤ (lines source.toList).length ∧ ¬ Idle text) ∧
    (FailsReading source e ∨
      ∃ before line after r field, FailsCompleting source e before line after r field) := by
  rw [assemble, assembleChars] at rejected
  cases read : Draft.ofSource source.toList with
  | error e' =>
    rw [read] at rejected
    obtain rfl := Except.error.inj rejected
    obtain ⟨fails, front, text, back, whole, last, active⟩ := failsReading_of_error read
    exact ⟨exists_line_of_split whole last active, .inl fails⟩
  | ok d =>
    rw [read] at rejected
    obtain ⟨before, line, after, r, field, fails⟩ := failsCompleting_of_error read rejected
    have said := (fails.said _).2 rfl
    obtain ⟨front, text, back, whole, same, here, -⟩ := exists_related_split said
    have last : e.line = front.length + 1 := by rw [fails.number, same.length_eq]
    exact ⟨exists_line_of_split whole last (not_idle_of_reference here fails.refers),
      .inr ⟨before, line, after, r, field, fails⟩⟩

/-- A number is refused while reading, although an earlier line refers to a label that is missing;
and a value that is too small is refused once all lines are read, after a reference that fits and
before one to a label that is missing. -/
theorem rejected_on_first_fault_either_pass :
    let unread := "TRA nowhere ; not defined\n\n ; only a comment\nLDA 70000\nL: L:"
    let unresolved := "LDA b\n ; only a comment\na: DAT A-5\nTRA nowhere\nB: HLT"
    assemble unread = .error ⟨4, .outOfRange 70000⟩ ∧
      FailsReading unread ⟨4, .outOfRange 70000⟩ ∧
      assemble unresolved = .error ⟨3, .outOfRange (-4)⟩ ∧
      ∃ before line after r field,
        FailsCompleting unresolved ⟨3, .outOfRange (-4)⟩ before line after r field := by
  intro unread unresolved
  have first : assemble unread = .error ⟨4, .outOfRange 70000⟩ := by decide +kernel
  have second : assemble unresolved = .error ⟨3, .outOfRange (-4)⟩ := by decide +kernel
  refine ⟨first, (rejected_on_first_fault first).2.resolve_right ?_, second,
    (rejected_on_first_fault second).2.resolve_left fun fails => ?_⟩
  · rintro ⟨before, line, after, r, field, fails⟩
    have refused : ¬ error? (Draft.ofSource unread.toList) = none := by decide +kernel
    exact refused (error?_eq_none_iff.2 fails.reading)
  · have read : error? (Draft.ofSource unresolved.toList) = none := by decide +kernel
    rw [fails.reading] at read
    contradiction

/-- A sum that is too large for 64 bits is refused before a later label that is missing, as the
negative number that it wraps around to. -/
example : assemble "A: HLT\nB: DAT B+9223372036854775807\nTRA NOWHERE" =
    .error ⟨2, .outOfRange (-9223372036854775808)⟩ := by decide +kernel

end DirectionCentral.Assembly

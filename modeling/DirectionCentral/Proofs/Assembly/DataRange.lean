import DirectionCentral.Proofs.Assembly.Faults
import DirectionCentral.Proofs.Assembly.Totality

/-!
# The range of data

A number that a word of data is to hold must fit 32 bits, signed or not, and a reference must come
to a number of at most 63 bits that is not negative; else the program is rejected for the line
(`data_range`). What is put down is the low 32 bits of the value. So nothing is lost from a number.
But a reference may come to a number that is too large for a word, and then its high bits are
silently cut off (`not_data_in_range_large_reference`).
-/

namespace DirectionCentral.Assembly

open Text

variable {before after : List Line} {line : Line} {o : Operand} {value : Int}

/-- A value that is taken for a word of data: as a number, one of 32 bits with or without a sign; as
what a reference comes to, any of at most 63 bits that is not negative. -/
def DataFits : Operand → Int → Prop
  | .number _, value => -2 ^ 31 ≤ value ∧ value ≤ 2 ^ 32 - 1
  | .reference _, value => 0 ≤ value ∧ value ≤ 2 ^ 63 - 1

/-- A value is that of an operand of data in a program, it is taken, and the image holds its low 32
bits at the address of the next word after the lines before it. -/
structure HoldsData (program : List Line) (image : Image) (before : List Line) (o : Operand)
    (value : Int) : Prop where
  /-- The operand comes to the value, with the labels of the program at their addresses. -/
  comes : ∀ other, OperandValue (Layout.LabelAt program) o other ↔ other = value
  /-- The value is taken for data. -/
  fits : DataFits o value
  /-- The word at the address is the value modulo 2 ^ 32. -/
  placed : ∃ segment ∈ image.segments, ∃ k word,
    (segment.start.toNat : Int) + (k : Nat) = Layout.nextAddress before ∧
    segment.words[k]? = some word ∧ (word.toNat : Int) = value % 2 ^ 32

/-! ## Reading data -/

/-- A number that is not taken for data is refused. -/
theorem dataStatement_of_not_dataFits {n : Int} (outside : ¬ DataFits (.number n) n) :
    dataStatement (.number n) = .error (.outOfRange n) :=
  if_neg fun inside => outside ⟨by omega, by omega⟩

/-- A line with data is read as its label and the statement for its operand. -/
theorem readLine_of_data {text : List Char} (said : LineText text line)
    (asks : line.directive? = some (.data o)) :
    readLine text = .ok ⟨line.label?, (dataStatement o).map some⟩ := by
  have statement {text : List Char} (said : OptionalText text (some (.data o))) :
      readOptionalStatement text = (dataStatement o).map some := by
    cases said with
    | some present said =>
      rw [readOptionalStatement, if_neg (by simpa using present), readStatement_of_data said]
  cases said with
  | plain cut said =>
    obtain rfl := asks
    rw [readLine, splitAtFirst_eq_none_iff.2 cut]
    simp only [statement said]
  | labelled cut identifier said =>
    obtain rfl := asks
    rw [readLine, splitAtFirst_eq_some_iff.2 ⟨':', cut⟩]
    simp only [identifier, if_true, statement said]

/-- A line with data is added as its label and the statement for its operand. -/
theorem addLine_of_data {text : List Char} (said : LineText text line)
    (asks : line.directive? = some (.data o)) (d : Draft) (number : Nat) :
    d.addLine number text =
      (d.addSourceLine number ⟨line.label?, (dataStatement o).map some⟩).mapError
        fun fault => ⟨number, fault⟩ := by
  rw [Draft.addLine, readLine_of_data said asks]
  rfl

/-! ## Data that does not fit -/

/-- A line with a reference for data puts down a place that waits for it, after the places of
earlier lines and before those of later ones. -/
theorem exists_waiting {d d' : Draft} {number : Nat} {text : List Char} {rest : List (List Char)}
    {r : Reference} (said : LineText text line)
    (asks : line.directive? = some (.data (.reference r)))
    (read : d.addLines number (text :: rest) = .ok d') :
    ∃ more, d'.cells = d.cells ++ ⟨0, some ⟨r, .word, number⟩⟩ :: more := by
  obtain ⟨next, first, others⟩ := bind_eq_ok_iff.1 read
  rw [addLine_of_data said asks] at first
  obtain ⟨labelled, s?, same, statement, rfl⟩ := exists_labelled (mapError_eq_ok_iff.1 first)
  obtain rfl : some (.dataReference r) = s? := Except.ok.inj statement
  obtain ⟨more, whole⟩ := cells_addLines others
  refine ⟨more, ?_⟩
  rw [← whole, Option.elim, Draft.place, cells_emit, same, List.append_assoc]
  rfl

/-- A place that waits for a reference whose value is not taken is not completed. -/
theorem complete_of_not_dataFits {labels : List (String × Nat)} {r : Reference} (number : Nat)
    (comes : OperandValue (Listed labels) (.reference r) value)
    (outside : ¬ DataFits (.reference r) value) :
    Cell.complete labels ⟨0, some ⟨r, .word, number⟩⟩ =
      .error ⟨number, .outOfRange (wrap64 value)⟩ := by
  have refused : (r.resolve labels).bind (Field.word.fill 0) =
      .error (.outOfRange (wrap64 value)) := resolve_bind_of_not_takes comes outside
  change ((r.resolve labels).bind (Field.word.fill 0)).mapError _ = _
  rw [refused]
  rfl

/-- The number that a line has for data is a signed integer of 64 bits. -/
theorem wrap64_of_data {text : List Char} {n : Int} (said : LineText text line)
    (asks : line.directive? = some (.data (.number n))) : wrap64 n = n := by
  have kept {text : List Char} (said : OptionalText text (some (.data (.number n)))) :
      wrap64 n = n := by
    cases said with
    | some present said =>
      cases said with
      | data cut name operand =>
        cases operand with
        | number number =>
          have bounds := number.bounds
          exact wrap64_eq_self (by omega)
  cases said with
  | plain cut said =>
    obtain rfl := asks
    exact kept said
  | labelled cut identifier said =>
    obtain rfl := asks
    exact kept said

/-- A program with a value that is not taken for data is refused. -/
theorem not_accepted_of_not_dataFits {source : String} {image : Image}
    (said : List.Forall₂ LineText (lines source.toList) (before ++ line :: after))
    (asks : line.directive? = some (.data o))
    (comes : OperandValue (Layout.LabelAt (before ++ line :: after)) o value)
    (outside : ¬ DataFits o value) : assemble source ≠ .ok image := by
  intro accepted
  obtain ⟨d, read, complete⟩ := bind_eq_ok_iff.1 accepted
  obtain ⟨program, single, drafted⟩ := exists_drafted_iff read
  obtain rfl := (single _).1 said
  obtain ⟨front, text, back, whole, -, here, -⟩ := exists_related_split said
  rw [Draft.ofSource, whole, addLines_append] at read
  obtain ⟨d₁, -, read⟩ := bind_eq_ok_iff.1 read
  cases o with
  | number n =>
    cases comes
    obtain ⟨d₂, one, -⟩ := bind_eq_ok_iff.1 read
    rw [addLine_of_data here asks, dataStatement_of_not_dataFits outside] at one
    obtain ⟨_, _, -, statement, -⟩ := exists_labelled (mapError_eq_ok_iff.1 one)
    contradiction
  | reference r =>
    obtain ⟨more, cells⟩ := exists_waiting here asks read
    have none : error? d.complete = none := error?_eq_none_iff.2 ⟨image, complete⟩
    rw [error?_complete, cells, List.findSome?_eq_none_iff] at none
    have fails := complete_of_not_dataFits (1 + front.length)
      (comes.mono fun _ _ => drafted.labels.listed) outside
    have waiting := none _ (List.mem_append_right _ List.mem_cons_self)
    rw [fails] at waiting
    contradiction

/-- Data on a line is the first fault of a program, if the data does not fit. -/
structure ComesFirst (before : List Line) (line : Line) (after : List Line) : Prop where
  /-- No label is defined twice. -/
  distinct : (Layout.labels (before ++ line :: after)).Nodup
  /-- Everything on earlier lines fits its field. -/
  earlier : ∀ other ∈ before, ∀ d, other.directive? = some d →
    Admissible (Layout.LabelAt (before ++ line :: after)) d
  /-- Numbers on later lines fit their fields. -/
  later : ∀ other ∈ after, ∃ s?, Option.Rel Realizes other.directive? s?

/-- A line whose label is new and whose statement is refused is refused for the statement. -/
theorem addSourceLine_of_error {d : Draft} {fault : Fault} (drafted : Drafted before d)
    (distinct : (Layout.labels (before ++ [line])).Nodup) (number : Nat) :
    d.addSourceLine number ⟨line.label?, .error fault⟩ = .error fault := by
  cases defines : line.label? with
  | none => rfl
  | some label =>
    obtain ⟨labelled, defined, -⟩ := exists_define drafted (not_mem_labels distinct defines)
    simp only [Draft.addSourceLine, defined]
    rfl

/-- A program whose first fault is data that is not taken is refused for it, with its value in 64
bits. -/
theorem assemble_of_comesFirst {source : String}
    (said : List.Forall₂ LineText (lines source.toList) (before ++ line :: after))
    (asks : line.directive? = some (.data o))
    (comes : OperandValue (Layout.LabelAt (before ++ line :: after)) o value)
    (outside : ¬ DataFits o value) (first : ComesFirst before line after) :
    assemble source = .error ⟨before.length + 1, .outOfRange (wrap64 value)⟩ := by
  obtain ⟨front, text, back, whole, saidFront, here, saidBack⟩ := exists_related_split said
  have realizes : ∀ other ∈ before, ∃ s?, Option.Rel Realizes other.directive? s? :=
    fun other member => exists_realizes_of_admissible (first.earlier other member)
  have upTo : (Layout.labels (before ++ [line])).Nodup :=
    first.distinct.sublist ((List.Sublist.append_left (by simp) before).filterMap _)
  have distinct : (Layout.labels ([] ++ before)).Nodup :=
    upTo.sublist ((List.sublist_append_left before [line]).filterMap _)
  obtain ⟨d, read, drafted, completable⟩ :=
    exists_addLines saidFront realizes drafted_nil (fun _ member => by contradiction) distinct 1
  have number : before.length + 1 = 1 + front.length := by
    rw [saidFront.length_eq, Nat.add_comm]
  have reads : assemble source =
      (d.addLines (1 + front.length) (text :: back)).bind Draft.complete := by
    rw [assemble, assembleChars, Draft.ofSource, whole, addLines_append, read]
    rfl
  rw [reads, number]
  cases o with
  | number n =>
    cases comes
    rw [wrap64_of_data here asks, Draft.addLines, addLine_of_data here asks,
      dataStatement_of_not_dataFits outside]
    rw [Except.map, addSourceLine_of_error drafted upTo]
    rfl
  | reference r =>
    have held : ∃ s?, Option.Rel Realizes line.directive? s? :=
      ⟨some (.dataReference r), asks ▸ .some (.dataReference r)⟩
    obtain ⟨d', read', drafted', -⟩ := exists_addLines (.cons here saidBack)
      (List.forall_mem_cons.2 ⟨held, first.later⟩) drafted completable first.distinct
      (1 + front.length)
    have listed : ∀ label address, Layout.LabelAt (before ++ line :: after) label address →
        Listed d'.labels label address :=
      fun _ _ => drafted'.labels.listed
    obtain ⟨more, cells⟩ := exists_waiting here asks read'
    have fails := complete_of_not_dataFits (1 + front.length) (comes.mono listed) outside
    have earlier : ∀ cell ∈ d.cells, error? (cell.complete d'.labels) = none := by
      intro cell member
      obtain ⟨other, present, directive, given, completes⟩ := completable cell member
      have admissible := first.earlier other present directive given
      exact error?_eq_none_iff.2 (completes _ (admissible.mono listed))
    have error : error? d'.complete = some ⟨1 + front.length, .outOfRange (wrap64 value)⟩ := by
      rw [error?_complete, List.findSome?_eq_some_iff]
      exact ⟨d.cells, _, more, cells, error?_eq_some_iff.2 fails, earlier⟩
    rw [read']
    exact error?_eq_some_iff.1 error

/-- Data in an accepted program is what it should be. -/
theorem holdsData_of_accepted {source : String} {image : Image}
    (said : List.Forall₂ LineText (lines source.toList) (before ++ line :: after))
    (asks : line.directive? = some (.data o)) (accepted : assemble source = .ok image) :
    ∃ value, HoldsData (before ++ line :: after) image before o value := by
  obtain ⟨d, read, complete⟩ := bind_eq_ok_iff.1 accepted
  obtain ⟨program, single, drafted⟩ := exists_drafted_iff read
  obtain rfl := (single _).1 said
  have denotes := imageDenotes_of_segments (segments_of_complete drafted complete)
  have emits : line.emits = true := by rw [Line.emits, asks]
  obtain ⟨segment, member, k, word, address, found, directive, given, holds⟩ :=
    denotes.placed before line after rfl emits
  obtain rfl := Option.some.inj (asks.symm.trans given)
  cases holds with
  | @data _ value comes low =>
    refine ⟨value, fun other => ⟨fun also => ?_, fun same => same ▸ comes⟩, ?_,
      segment, member, k, word, address, found, low⟩
    · have once label address address' :=
        @Layout.LabelAt.unique _ label address address' drafted.labels.distinct
      exact also.unique once comes
    · by_contra outside
      exact not_accepted_of_not_dataFits said asks comes outside accepted

/-- Data in an accepted program fits: the value of a number has 32 bits, signed or not, and that of
a reference is not negative and has at most 63 bits; and the word that is put down is the value
modulo 2 ^ 32. A program with data that does not fit is rejected, and where that is its first fault,
with the line of the data and that value, as 64 bits hold it. -/
theorem data_range (source : String) :
    (∀ image, assemble source = .ok image → ∃ program,
      (∀ other, List.Forall₂ LineText (lines source.toList) other ↔ other = program) ∧
      ∀ before line after o, program = before ++ line :: after →
        line.directive? = some (.data o) → ∃ value, HoldsData program image before o value) ∧
    ∀ before line after o value,
      List.Forall₂ LineText (lines source.toList) (before ++ line :: after) →
      line.directive? = some (.data o) →
      OperandValue (Layout.LabelAt (before ++ line :: after)) o value → ¬ DataFits o value →
        (∃ e, assemble source = .error e) ∧
        (ComesFirst before line after →
          assemble source = .error ⟨before.length + 1, .outOfRange (wrap64 value)⟩) := by
  refine ⟨fun image accepted => ?_, fun before line after o value said asks comes outside =>
    ⟨?_, assemble_of_comesFirst said asks comes outside⟩⟩
  · obtain ⟨d, read, -⟩ := bind_eq_ok_iff.1 accepted
    obtain ⟨program, single, -⟩ := exists_drafted_iff read
    refine ⟨program, single, ?_⟩
    rintro before line after o rfl asks
    exact holdsData_of_accepted ((single _).2 rfl) asks accepted
  · cases result : assemble source with
    | error e => exact ⟨e, rfl⟩
    | ok image => exact absurd result (not_accepted_of_not_dataFits said asks comes outside)

/-- A line that is read as a statement says the one directive that the statement holds. -/
theorem lineText_of_read {text : List Char} {label? : Option String} {s : Statement}
    {directive : Directive} (read : readLine text = .ok ⟨label?, .ok (some s)⟩)
    (only : ∀ d, Realizes d s → d = directive) : LineText text ⟨label?, some directive⟩ := by
  obtain ⟨⟨label, given⟩, said, rfl, realizes⟩ := lineText_of_readLine read rfl
  cases realizes with
  | some realizes => rwa [only _ realizes] at said

/-- A statement that waits for a reference holds data with the reference alone. -/
theorem eq_of_realizes_dataReference {d : Directive} {r : Reference}
    (realizes : Realizes d (.dataReference r)) : d = .data (.reference r) := by
  cases realizes
  rfl

/-- The least number that fits and a reference forward are put down; and a reference to the address
before the first one is rejected for its line. -/
theorem data_range_limits :
    assemble "DAT -2147483648\nDATA a+4\nA:" = .ok ⟨[⟨0, [0x80000000, 6]⟩]⟩ ∧
      (∃ program,
        (∀ other, List.Forall₂ LineText (lines "DAT -2147483648\nDATA a+4\nA:".toList) other ↔
          other = program) ∧
        ∀ before line after o, program = before ++ line :: after →
          line.directive? = some (.data o) →
            ∃ value, HoldsData program ⟨[⟨0, [0x80000000, 6]⟩]⟩ before o value) ∧
      assemble "L: DAT L-1" = .error ⟨1, .outOfRange (-1)⟩ := by
  have accepted : assemble "DAT -2147483648\nDATA a+4\nA:" = .ok ⟨[⟨0, [0x80000000, 6]⟩]⟩ := by
    decide +kernel
  let line : Line := ⟨some "L", some (.data (.reference ⟨"L", -1⟩))⟩
  have said : List.Forall₂ LineText (lines "L: DAT L-1".toList) ([] ++ line :: []) :=
    .cons (lineText_of_read rfl fun _ => eq_of_realizes_dataReference) .nil
  have comes : OperandValue (Layout.LabelAt ([] ++ line :: [])) (.reference ⟨"L", -1⟩) (-1) :=
    @OperandValue.reference _ ⟨"L", -1⟩ 0 ⟨[], line, [], rfl, rfl, rfl⟩
  have first : ComesFirst [] line [] :=
    ⟨by decide, fun _ member => by contradiction, fun _ member => by contradiction⟩
  have rejected := (data_range "L: DAT L-1").2 [] line [] _ (-1) said rfl comes
    (show ¬ ((0 : Int) ≤ -1 ∧ (-1 : Int) ≤ 2 ^ 63 - 1) by decide)
  exact ⟨accepted, (data_range _).1 _ accepted, rejected.2 first⟩

/-- Data in an accepted program is not always a number of 32 bits: a reference may come to a larger
one, of which the high bits are cut off. -/
theorem not_data_in_range_large_reference :
    let program : List Line :=
      [⟨none, some (.origin 5)⟩, ⟨some "L", some (.data (.reference ⟨"L", 4294967296⟩))⟩]
    List.Forall₂ LineText (lines "ORG 5\nL: DAT L+4294967296".toList) program ∧
      OperandValue (Layout.LabelAt program) (.reference ⟨"L", 4294967296⟩) 4294967301 ∧
      ¬ ((4294967301 : Int) ≤ 2 ^ 32 - 1) ∧
      assemble "ORG 5\nL: DAT L+4294967296" = .ok ⟨[⟨5, [5]⟩]⟩ := by
  intro program
  have origin : LineText "ORG 5".toList ⟨none, some (.origin 5)⟩ :=
    lineText_of_read (s := .origin 5) rfl fun d realizes => by
      cases realizes
      rfl
  have data : LineText "L: DAT L+4294967296".toList
      ⟨some "L", some (.data (.reference ⟨"L", 4294967296⟩))⟩ :=
    lineText_of_read rfl fun _ => eq_of_realizes_dataReference
  have comes : OperandValue (Layout.LabelAt program) (.reference ⟨"L", 4294967296⟩) 4294967301 :=
    @OperandValue.reference _ ⟨"L", 4294967296⟩ 5 ⟨[⟨none, some (.origin 5)⟩], _, [], rfl, rfl, rfl⟩
  exact ⟨.cons origin (.cons data .nil), comes, by decide, by decide +kernel⟩

end DirectionCentral.Assembly

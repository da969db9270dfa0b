import DirectionCentral.Proofs.Assembly.Joining
import DirectionCentral.Proofs.Text.Cut

/-!
# Sources after other sources

A source text that begins with `ORG` may be put after another one if no label is defined in both:
the image is then the segments of both (`assemble_append`). The lines of the second source are read
into the draft of the first one as they are into an empty draft, since the `ORG` closes the segment
that is open. Neither the blank lines before it nor an empty line between the sources count.
-/

namespace DirectionCentral.Assembly

open Text

/-- The labels that a source text defines, in capitals. -/
def labelsOf (source : String) : List String := (lines source.toList).filterMap labelOf?

/-- Whether a line is an `ORG` directive without a label. -/
def isOrigin (text : List Char) : Bool :=
  labelOf? text == none && upper (splitAtFirst isBlank (code text)).1 == "ORG".toList

/-- Whether the first line of a source text that has code is an `ORG` directive without a label. -/
def beginsWithOrigin (source : String) : Bool :=
  ((lines source.toList).find? fun text => !(code text).isEmpty).any isOrigin

/-! ## Lines -/

/-- Lines are read one part after the other. -/
theorem addLines_append (d : Draft) (number : Nat) (front back : List (List Char)) :
    d.addLines number (front ++ back) =
      (d.addLines number front).bind fun d' => d'.addLines (number + front.length) back := by
  induction front generalizing d number with
  | nil => rfl
  | cons text front ih =>
    rw [List.cons_append, Draft.addLines, Draft.addLines]
    cases d.addLine number text with
    | error e => rfl
    | ok d' =>
      have later := ih d' (number + 1)
      rw [Nat.add_right_comm] at later
      exact later

/-- Lines without code change nothing. -/
theorem addLines_blank (d : Draft) (number : Nat) {texts : List (List Char)}
    (blank : ∀ text ∈ texts, code text = []) : d.addLines number texts = .ok d := by
  induction texts generalizing number with
  | nil => rfl
  | cons text rest ih =>
    obtain ⟨first, others⟩ := List.forall_mem_cons.1 blank
    have skipped : d.addLine number text = .ok d := by
      rw [Draft.addLine, readLine, first]
      rfl
    rw [Draft.addLines, skipped]
    exact ih (number + 1) others

/-- What is read of the operand of `ORG` opens a segment. -/
theorem exists_origin {operand : Option (List Char)} {s : Statement}
    (read : readOrigin operand = .ok s) : ∃ start, s = .origin start := by
  cases operand with
  | none => contradiction
  | some text =>
    obtain ⟨o, -, placed⟩ := bind_eq_ok_iff.1 read
    cases o with
    | number value =>
      obtain ⟨start, -, same⟩ := bind_eq_ok_iff.1 placed
      exact ⟨start, (Except.ok.inj same).symm⟩
    | reference r => contradiction

/-- A line with an `ORG` directive is read as its operand is. -/
theorem readLine_of_isOrigin {text : List Char} (origin : isOrigin text = true) :
    ∃ operand, readLine text = .ok { statement := (readOrigin operand).map some } := by
  rw [isOrigin, Bool.and_eq_true, beq_iff_eq, beq_iff_eq] at origin
  obtain ⟨unlabelled, named⟩ := origin
  have present : (code text).isEmpty = false := by
    cases empty : code text with
    | nil =>
      rw [empty] at named
      contradiction
    | cons c rest => rfl
  have uncut : splitAtFirst (· == ':') (code text) = (code text, none) := by
    cases cut : splitAtFirst (· == ':') (code text) with
    | mk before after =>
      rw [labelOf?, cut] at unlabelled
      cases after with
      | none => rw [(splitAtFirst_eq_none_iff.1 cut).whole, List.append_nil]
      | some after => contradiction
  rw [readLine, uncut]
  simp only [readOptionalStatement, present, readStatement, named]
  exact ⟨_, rfl⟩

/-- An `ORG` directive that is read opens a segment, whatever the draft. -/
theorem exists_openSegment {text : List Char} (origin : isOrigin text = true) {d d' : Draft}
    {number : Nat} (read : d.addLine number text = .ok d') :
    ∃ start, ∀ (base : Draft) (line : Nat),
      base.addLine line text = .ok (base.openSegment start) := by
  obtain ⟨operand, readable⟩ := readLine_of_isOrigin origin
  obtain ⟨source, same, added⟩ := bind_eq_ok_iff.1 (mapError_eq_ok_iff.1 read)
  obtain rfl := Except.ok.inj (readable.symm.trans same)
  obtain ⟨labelled, -, placed⟩ := bind_eq_ok_iff.1 added
  obtain ⟨s?, statement, -⟩ := map_eq_ok_iff.1 placed
  obtain ⟨s, opened, rfl⟩ := map_eq_ok_iff.1 statement
  obtain ⟨start, rfl⟩ := exists_origin opened
  refine ⟨start, fun base line => ?_⟩
  rw [Draft.addLine, readable, opened]
  rfl

/-! ## Sources -/

/-- Lines that begin with `ORG` are read after any draft without their labels, on any later lines,
as they are read into an empty draft. -/
theorem exists_addLines_append {blank rest : List (List Char)} {text : List Char} {number : Nat}
    {d : Draft} (empty : ∀ line ∈ blank, code line = []) (origin : isOrigin text = true)
    (read : ({} : Draft).addLines number (blank ++ text :: rest) = .ok d) :
    ∃ tail : Draft, d = ({} : Draft).append tail ∧ ∀ (base : Draft) (k : Nat),
      (∀ line ∈ rest, ∀ label ∈ labelOf? line, base.labels.lookup label = none) →
        base.addLines (number + k) (blank ++ text :: rest) = .ok (base.append (tail.later k)) := by
  have skipped (base : Draft) (number : Nat) :
      base.addLines number (blank ++ text :: rest) =
        base.addLines (number + blank.length) (text :: rest) := by
    rw [addLines_append, addLines_blank _ _ empty]
    rfl
  rw [skipped] at read
  obtain ⟨_, directive, -⟩ := bind_eq_ok_iff.1 read
  obtain ⟨start, opens⟩ := exists_openSegment origin directive
  let opened : Draft := { current := { start } }
  -- After the directive any draft is one in front of the segment that is opened.
  have passed (base : Draft) (number : Nat) :
      base.addLines number (text :: rest) = (base.append opened).addLines (number + 1) rest := by
    rw [Draft.addLines, opens, openSegment_eq_append]
    rfl
  rw [passed, (carries_append {}).addLines opened _ fun _ _ _ _ => rfl] at read
  obtain ⟨tail, onward, rfl⟩ := map_eq_ok_iff.1 (mapError_eq_ok_iff.1 read)
  refine ⟨tail, rfl, fun base k absent => ?_⟩
  have later : opened.addLines (number + blank.length + 1 + k) rest = .ok (tail.later k) := by
    have same : (opened.later k).addLines (number + blank.length + 1 + k) rest = _ :=
      (carries_later k).addLines opened _ fun _ _ _ _ => trivial
    have untouched : opened.later k = opened := by
      simp [opened, Draft.later, DraftSegment.later]
    rwa [untouched, onward] at same
  have behind := (carries_append base).addLines opened (number + blank.length + 1 + k) absent
  rw [later] at behind
  have shifted : number + k + blank.length + 1 = number + blank.length + 1 + k := by omega
  rw [skipped, passed, shifted]
  exact behind

/-- The lines of a source text that begins with `ORG`. -/
theorem exists_lines_eq {source : String} (begins : beginsWithOrigin source = true) :
    ∃ blank text rest, lines source.toList = blank ++ text :: rest ∧
      (∀ line ∈ blank, code line = []) ∧ isOrigin text = true := by
  obtain ⟨text, found, origin⟩ := (Option.any_eq_true _ _).1 begins
  obtain ⟨-, blank, rest, shape, empty⟩ := List.find?_eq_some_iff_append.1 found
  exact ⟨blank, text, rest, shape, fun line member => by simpa using empty line member, origin⟩

/-- After the draft of a source text and a newline, the lines of another source text are read into
that draft, on later lines. -/
theorem exists_ofSource_append {first : List Char} {base : Draft}
    (read : Draft.ofSource first = .ok base) (second : List Char) :
    ∃ k, Draft.ofSource (first ++ '\n' :: second) = base.addLines (1 + k) (lines second) := by
  obtain ⟨gap, newlines, joined⟩ := lines_append_newline first second
  have blank : ∀ line ∈ gap, code line = [] := fun line member => by
    rw [newlines line member]
    rfl
  refine ⟨(lines first).length + gap.length, ?_⟩
  rw [Draft.ofSource] at read
  rw [Draft.ofSource, joined, addLines_append, read]
  change base.addLines _ (gap ++ _) = _
  rw [addLines_append, addLines_blank _ _ blank, ← Nat.add_assoc]
  rfl

/-- A label that a source text does not define is not in its draft. -/
theorem lookup_ofSource {source : String} {d : Draft} {label : String}
    (read : Draft.ofSource source.toList = .ok d) (other : label ∉ labelsOf source) :
    d.labels.lookup label = none := by
  refine (lookup_addLines read fun text member defines => other ?_).trans rfl
  exact List.mem_filterMap.2 ⟨text, member, defines⟩

/-- If two source texts are accepted, the second one begins with an `ORG` directive and no label is
defined in both, then the first one, a newline and the second one are accepted together, and their
segments are those of the first one and then those of the second one. -/
theorem assemble_append {first second : String} {image image' : Image}
    (accepted : assemble first = .ok image) (accepted' : assemble second = .ok image')
    (begins : beginsWithOrigin second = true)
    (disjoint : ∀ label ∈ labelsOf first, label ∉ labelsOf second) :
    assemble (first ++ "\n" ++ second) = .ok ⟨image.segments ++ image'.segments⟩ := by
  obtain ⟨base, read, complete⟩ := bind_eq_ok_iff.1 accepted
  obtain ⟨d, read', complete'⟩ := bind_eq_ok_iff.1 accepted'
  have separate {label : String} (both : label ∈ labelsOf second) :
      base.labels.lookup label = none :=
    lookup_ofSource read fun defined => disjoint label defined both
  have absent (label : String) (address : Nat)
      (known : base.labels.lookup label = some address) : d.labels.lookup label = none := by
    refine lookup_ofSource read' fun defined => ?_
    rw [separate defined] at known
    contradiction
  obtain ⟨blank, text, rest, shape, empty, origin⟩ := exists_lines_eq begins
  have texts : ∀ line ∈ rest, ∀ label ∈ labelOf? line, base.labels.lookup label = none := by
    intro line member label defines
    refine separate (List.mem_filterMap.2 ⟨line, ?_, defines⟩)
    rw [shape]
    simp [member]
  rw [Draft.ofSource, shape] at read'
  obtain ⟨tail, rfl, after⟩ := exists_addLines_append empty origin read'
  rw [complete_append_empty] at complete'
  obtain ⟨k, together⟩ := exists_ofSource_append read second.toList
  rw [shape, after base k texts] at together
  have chars : (first ++ "\n" ++ second).toList = first.toList ++ '\n' :: second.toList := by
    simp
  rw [← chars] at together
  refine bind_eq_ok_iff.2 ⟨_, together, complete_append ?_ complete (complete_later k complete')⟩
  intro label address known
  have labels : (({} : Draft).append tail).labels = tail.labels := List.append_nil tail.labels
  rw [← absent label address known, labels]
  rfl

/-- Both sources refer to labels that follow, the first one ends in a segment without words and in a
newline, and a comment and an empty line stand before the `ORG`. -/
theorem assemble_append_parts :
    let first := "loop: LDA count\n TRA LOOP\ncount: DAT -3\nORG 9\n"
    let second := " ; the second part\n\norg 0x100\nstart: TNZ END+1\nEND: TSX start,X"
    assemble first = .ok ⟨[⟨0, [0x01000002, 0x10000000, 0xFFFFFFFD]⟩]⟩ ∧
      assemble second = .ok ⟨[⟨256, [0x11000102, 0x13020100]⟩]⟩ ∧
      assemble (first ++ "\n" ++ second) =
        .ok ⟨[⟨0, [0x01000002, 0x10000000, 0xFFFFFFFD]⟩, ⟨256, [0x11000102, 0x13020100]⟩]⟩ := by
  intro first second
  have accepted : assemble first = .ok ⟨[⟨0, [0x01000002, 0x10000000, 0xFFFFFFFD]⟩]⟩ := by
    decide +kernel
  have accepted' : assemble second = .ok ⟨[⟨256, [0x11000102, 0x13020100]⟩]⟩ := by
    decide +kernel
  exact ⟨accepted, accepted', assemble_append accepted accepted' (by decide) (by decide)⟩

end DirectionCentral.Assembly

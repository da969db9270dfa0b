import DirectionCentral.Assembly.Draft
import DirectionCentral.Proofs.Outcome

/-!
# Drafts after other drafts

A draft may be put after another one (`Draft.append`), and its lines may be counted from a later
number (`Draft.later`). Both are changes that reading goes along with (`Carries`): what is read into
the changed draft is the change of what is read into the draft, if no label is defined that the
draft in front has. So the one induction over the lines is `Carries.addLines`. The notes of either
draft are resolved as before when both are completed together, since more labels do not hide those
that were known (`complete_append`).
-/

namespace DirectionCentral.Assembly

/-! ## Drafts that are joined -/

/-- What a word waits for, with a later line. -/
def Pending.later (p : Pending) (k : Nat) : Pending := { p with line := p.line + k }

/-- A place with a later line. -/
def Cell.later (c : Cell) (k : Nat) : Cell := { c with pending? := c.pending?.map (·.later k) }

/-- A segment with later lines. -/
def DraftSegment.later (s : DraftSegment) (k : Nat) : DraftSegment :=
  { s with cells := s.cells.map (·.later k) }

/-- An error on a later line. -/
def Error.later (e : Error) (k : Nat) : Error := { e with line := e.line + k }

/-- A draft with later lines. -/
def Draft.later (d : Draft) (k : Nat) : Draft :=
  { d with closed := d.closed.map (·.later k), current := d.current.later k }

/-- A draft after another one, whose open segment is closed. -/
def Draft.append (base d : Draft) : Draft where
  closed := base.closed.push base.current ++ d.closed
  current := d.current
  labels := d.labels ++ base.labels

/-- Opening a segment puts the draft of the open segment after the draft. -/
theorem openSegment_eq_append (base : Draft) (start : UInt16) :
    base.openSegment start = base.append { current := { start } } := by
  simp [Draft.openSegment, Draft.append]

/-! ## The label of a line -/

/-- The label that a line defines, in capitals: what stands before the first colon of its code. -/
def labelOf? (text : List Char) : Option String :=
  match Text.splitAtFirst (· == ':') (code text) with
  | (_, none) => none
  | (before, some _) => some (String.ofList (Text.upper (Text.trim before)))

/-- The label of a line that is read is the one that the line defines. -/
theorem label?_of_readLine {text : List Char} {source : SourceLine}
    (read : readLine text = .ok source) : source.label? = labelOf? text := by
  cases cut : Text.splitAtFirst (· == ':') (code text) with
  | mk before after =>
    rw [readLine, cut] at read
    rw [labelOf?, cut]
    cases after with
    | none => rw [← Except.ok.inj read]
    | some after =>
      dsimp only at read
      split at read
      · rw [← Except.ok.inj read]
      · contradiction

/-! ## Changes that reading goes along with -/

/-- A change of drafts that reading goes along with, as long as the labels that are defined are such
as are `new`, when the lines are counted from a number later by `k`. -/
structure Carries (new : String → Prop) (k : Nat) (change : Draft → Draft) : Prop where
  /-- A label is defined alike. -/
  define : ∀ d label, new label → (change d).define label = (d.define label).map change
  /-- A statement is placed alike. -/
  place : ∀ d number s, (change d).place (number + k) s = change (d.place number s)

namespace Carries

variable {new : String → Prop} {k : Nat} {change : Draft → Draft}

/-- What a line says is added alike. -/
theorem addSourceLine (carries : Carries new k change) (d : Draft) (number : Nat)
    {source : SourceLine} (fresh : ∀ label ∈ source.label?, new label) :
    (change d).addSourceLine (number + k) source = (d.addSourceLine number source).map change := by
  obtain ⟨label?, statement⟩ := source
  have placed (labelled : Draft) :
      (statement.map fun
        | some s => (change labelled).place (number + k) s
        | none => change labelled) =
      (statement.map fun
        | some s => labelled.place number s
        | none => labelled).map change := by
    obtain fault | ⟨_ | s⟩ := statement
    · rfl
    · rfl
    · exact congrArg Except.ok (carries.place labelled number s)
  cases label? with
  | none => exact placed d
  | some label =>
    simp only [Draft.addSourceLine, carries.define d label (fresh label rfl)]
    cases d.define label with
    | error fault => rfl
    | ok labelled => exact placed labelled

/-- A line is read alike, with its fault on the later line. -/
theorem addLine (carries : Carries new k change) (d : Draft) (number : Nat) {text : List Char}
    (fresh : ∀ label ∈ labelOf? text, new label) :
    (change d).addLine (number + k) text =
      ((d.addLine number text).map change).mapError (·.later k) := by
  rw [Draft.addLine, Draft.addLine]
  cases read : readLine text with
  | error fault => rfl
  | ok source =>
    have same := label?_of_readLine read
    have added : (change d).addSourceLine (number + k) source = _ :=
      carries.addSourceLine d number (by rwa [same])
    simp only [Except.bind, added]
    cases d.addSourceLine number source <;> rfl

/-- Lines are read alike, with their fault on the later line. -/
theorem addLines (carries : Carries new k change) (d : Draft) (number : Nat)
    {texts : List (List Char)} (fresh : ∀ text ∈ texts, ∀ label ∈ labelOf? text, new label) :
    (change d).addLines (number + k) texts =
      ((d.addLines number texts).map change).mapError (·.later k) := by
  induction texts generalizing d number with
  | nil => rfl
  | cons text rest ih =>
    obtain ⟨first, others⟩ := List.forall_mem_cons.1 fresh
    rw [Draft.addLines, Draft.addLines, carries.addLine d number first]
    cases d.addLine number text with
    | error e => rfl
    | ok d' =>
      have later := ih d' (number + 1) others
      rw [Nat.add_right_comm] at later
      exact later

end Carries

/-- Reading goes along with later lines. -/
theorem carries_later (k : Nat) : Carries (fun _ => True) k (·.later k) where
  define d label _ := by
    have address : (d.later k).nextAddress = d.nextAddress := by
      simp [Draft.nextAddress, Draft.later, DraftSegment.later]
    have known : (d.later k).labels.lookup label = d.labels.lookup label := rfl
    rw [Draft.define, Draft.define, address, known]
    cases d.labels.lookup label <;> rfl
  place d number s := by
    cases s <;> simp [Draft.place, Draft.later, Draft.emit, Draft.openSegment, DraftSegment.later,
      Cell.later, Pending.later]

/-- Reading goes along with a draft in front, as long as that draft has none of the labels. -/
theorem carries_append (base : Draft) :
    Carries (fun label => base.labels.lookup label = none) 0 base.append where
  define d label absent := by
    have known : (base.append d).labels.lookup label = d.labels.lookup label := by
      rw [Draft.append, List.lookup_append, absent, Option.or_none]
    rw [Draft.define, Draft.define, known]
    cases d.labels.lookup label <;> rfl
  place d number s := by
    cases s with
    | origin start => simp [Draft.place, Draft.append, Draft.openSegment]
    | _ => rfl

/-! ## Labels that are left -/

/-- A statement defines no label. -/
theorem labels_place (d : Draft) (number : Nat) (s : Statement) :
    (d.place number s).labels = d.labels := by
  cases s <;> rfl

/-- A line that does not define a label leaves it as it was. -/
theorem lookup_addLine {d d' : Draft} {number : Nat} {text : List Char} {label : String}
    (read : d.addLine number text = .ok d') (other : label ∉ labelOf? text) :
    d'.labels.lookup label = d.labels.lookup label := by
  obtain ⟨source, readable, added⟩ := bind_eq_ok_iff.1 (mapError_eq_ok_iff.1 read)
  obtain ⟨labelled, defined, placed⟩ := bind_eq_ok_iff.1 added
  obtain ⟨s?, -, rfl⟩ := map_eq_ok_iff.1 placed
  rw [← label?_of_readLine readable] at other
  have same : labelled.labels.lookup label = d.labels.lookup label := by
    cases named : source.label? with
    | none =>
      simp only [named] at defined
      rw [Except.ok.inj defined]
    | some name =>
      simp only [named, Draft.define] at defined
      split at defined
      · contradiction
      · rw [← Except.ok.inj defined, List.lookup_cons]
        have differs : (label == name) = false := by
          rw [beq_eq_false_iff_ne]
          rintro rfl
          exact other named
        rw [differs]
  cases s? with
  | none => exact same
  | some s => rwa [← labels_place labelled number s] at same

/-- Lines that do not define a label leave it as it was. -/
theorem lookup_addLines {d d' : Draft} {number : Nat} {texts : List (List Char)} {label : String}
    (read : d.addLines number texts = .ok d') (other : ∀ text ∈ texts, label ∉ labelOf? text) :
    d'.labels.lookup label = d.labels.lookup label := by
  induction texts generalizing d number with
  | nil => rw [Except.ok.inj read]
  | cons text rest ih =>
    obtain ⟨next, first, last⟩ := bind_eq_ok_iff.1 read
    obtain ⟨now, later⟩ := List.forall_mem_cons.1 other
    exact (ih last later).trans (lookup_addLine first now)

/-! ## Completing -/

variable {less more : List (String × Nat)}

/-- A list of labels has all that another one has, with the same addresses. -/
def Extends (less more : List (String × Nat)) : Prop :=
  ∀ label address, less.lookup label = some address → more.lookup label = some address

/-- A place is completed alike with more labels. -/
theorem Extends.complete_cell (grown : Extends less more) {c : Cell} {word : Word}
    (complete : c.complete less = .ok word) : c.complete more = .ok word := by
  obtain ⟨blank, _ | p⟩ := c
  · exact complete
  · obtain ⟨value, resolved, filled⟩ := bind_eq_ok_iff.1 (mapError_eq_ok_iff.1 complete)
    refine mapError_eq_ok_iff.2 (bind_eq_ok_iff.2 ⟨value, ?_, filled⟩)
    rw [Reference.resolve] at resolved ⊢
    cases known : less.lookup p.reference.label with
    | none => simp [known] at resolved
    | some address => rwa [grown _ _ known, ← known]

/-- Segments are completed alike with more labels. -/
theorem Extends.complete_segments (grown : Extends less more) {segments : List DraftSegment}
    {completed : List Segment}
    (complete : segments.mapM (DraftSegment.complete less) = .ok completed) :
    segments.mapM (DraftSegment.complete more) = .ok completed := by
  refine mapM_eq_ok_iff.2 ((mapM_eq_ok_iff.1 complete).imp fun s segment complete => ?_)
  obtain ⟨words, each, rfl⟩ := map_eq_ok_iff.1 complete
  refine map_eq_ok_iff.2 ⟨words, ?_, rfl⟩
  exact mapM_eq_ok_iff.2 ((mapM_eq_ok_iff.1 each).imp fun c word => grown.complete_cell)

/-- A place is completed alike on a later line. -/
theorem complete_cell_later {labels : List (String × Nat)} {c : Cell} {word : Word} (k : Nat)
    (complete : c.complete labels = .ok word) : (c.later k).complete labels = .ok word := by
  obtain ⟨blank, _ | p⟩ := c
  · exact complete
  · exact mapError_eq_ok_iff.2 (mapError_eq_ok_iff.1 complete)

/-- A segment is completed alike on later lines. -/
theorem complete_segment_later {labels : List (String × Nat)} {s : DraftSegment}
    {segment : Segment} (k : Nat) (complete : s.complete labels = .ok segment) :
    (s.later k).complete labels = .ok segment := by
  obtain ⟨words, each, rfl⟩ := map_eq_ok_iff.1 complete
  refine map_eq_ok_iff.2 ⟨words, ?_, rfl⟩
  rw [DraftSegment.later, Array.toList_map]
  refine mapM_eq_ok_iff.2 (List.forall₂_map_left_iff.2 ?_)
  exact (mapM_eq_ok_iff.1 each).imp fun c word => complete_cell_later k

/-- The segments of a later draft that have words are those of the draft, on later lines. -/
theorem filled_later (d : Draft) (k : Nat) : (d.later k).filled = d.filled.map (·.later k) := by
  have segments : (d.later k).segments = d.segments.map (·.later k) := by
    simp [Draft.segments, Draft.later]
  have kept (s : DraftSegment) : (s.later k).cells.isEmpty = s.cells.isEmpty := by
    simp [DraftSegment.later, Array.isEmpty]
  rw [Draft.filled, segments, List.filter_map]
  exact congrArg _ (List.filter_congr fun s _ => congrArg not (kept s))

/-- The segments of a draft after another one that have words are those of both. -/
theorem filled_append (base d : Draft) : (base.append d).filled = base.filled ++ d.filled := by
  have segments : (base.append d).segments = base.segments ++ d.segments := by
    simp [Draft.segments, Draft.append]
  rw [Draft.filled, segments, List.filter_append, Draft.filled, Draft.filled]

/-- A draft is completed alike on later lines. -/
theorem complete_later {d : Draft} {image : Image} (k : Nat) (complete : d.complete = .ok image) :
    (d.later k).complete = .ok image := by
  obtain ⟨segments, each, rfl⟩ := map_eq_ok_iff.1 complete
  refine map_eq_ok_iff.2 ⟨segments, ?_, rfl⟩
  rw [filled_later]
  refine mapM_eq_ok_iff.2 (List.forall₂_map_left_iff.2 ?_)
  exact (mapM_eq_ok_iff.1 each).imp fun s segment => complete_segment_later k

/-- A draft after the empty one is completed as it is. -/
theorem complete_append_empty (d : Draft) : (({} : Draft).append d).complete = d.complete := by
  have labels : (({} : Draft).append d).labels = d.labels := List.append_nil d.labels
  rw [Draft.complete, filled_append, labels]
  rfl

/-- Drafts without a label in common are completed together to the segments of both. -/
theorem complete_append {base d : Draft} {first second : Image}
    (disjoint : ∀ label address, base.labels.lookup label = some address →
      d.labels.lookup label = none)
    (one : base.complete = .ok first) (other : d.complete = .ok second) :
    (base.append d).complete = .ok ⟨first.segments ++ second.segments⟩ := by
  obtain ⟨segments, front, rfl⟩ := map_eq_ok_iff.1 one
  obtain ⟨segments', back, rfl⟩ := map_eq_ok_iff.1 other
  have grown : Extends base.labels (d.labels ++ base.labels) := fun label address known => by
    rw [List.lookup_append, disjoint label address known, Option.none_or, known]
  have grown' : Extends d.labels (d.labels ++ base.labels) := fun label address known => by
    rw [List.lookup_append, known, Option.some_or]
  refine map_eq_ok_iff.2 ⟨segments ++ segments', ?_, rfl⟩
  rw [filled_append]
  exact mapM_eq_ok_iff.2 (List.rel_append (mapM_eq_ok_iff.1 (grown.complete_segments front))
    (mapM_eq_ok_iff.1 (grown'.complete_segments back)))

end DirectionCentral.Assembly

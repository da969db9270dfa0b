import DirectionCentral.Proofs.Assembly.Drafting

/-!
# What assembly denotes

The image of an accepted text is the one that its lines denote (`assemble_denotes`). A segment is a
run of the program, a word is what its line says, and a label is an address of the finished program
whether the line that uses it comes before or after.
-/

namespace DirectionCentral.Assembly

open Text

/-- A segment holds the words of a run. -/
structure RunDenotes (program : List Line) (run : Layout.Run) (segment : Segment) : Prop where
  /-- The segment starts at the operand of the `ORG`. -/
  start : (segment.start.toNat : Int) = run.start
  /-- Segments start at addresses of 16 bits. -/
  bound : segment.start.toNat ≤ 65535
  /-- There is a word for every line of the run that puts down one. -/
  words : List.Forall₂ (LineDenotes (Layout.LabelAt program)) run.emitting segment.words

/-- An image holds the words of a program. -/
structure ImageDenotes (program : List Line) (image : Image) : Prop where
  /-- The segments are the runs that put down a word, in order. -/
  segments : List.Forall₂ (RunDenotes program) (Layout.filledRuns program) image.segments
  /-- The words of the segments are those of the lines, in order. -/
  words : List.Forall₂ (LineDenotes (Layout.LabelAt program)) (program.filter Line.emits)
    (image.segments.flatMap (·.words))
  /-- There are as many words as lines that put down one. -/
  size : image.size = program.countP Line.emits
  /-- The word of a line stands at the address that counting from the last `ORG` gives it. -/
  placed : ∀ before line after, program = before ++ line :: after → line.emits = true →
    ∃ segment ∈ image.segments, ∃ k word, (segment.start.toNat : Int) + (k : Nat) =
      Layout.nextAddress before ∧ segment.words[k]? = some word ∧
      LineDenotes (Layout.LabelAt program) line word

/-! ## Completing a draft -/

/-- Related lists have related elements at the same places. -/
theorem exists_related {α β : Type} {R : α → β → Prop} {as : List α} {bs : List β} {a : α}
    {k : Nat} (related : List.Forall₂ R as bs) (found : as[k]? = some a) :
    ∃ b, bs[k]? = some b ∧ R a b := by
  induction related generalizing k with
  | nil => simp at found
  | @cons head other _ _ first _ ih =>
    cases k with
    | zero =>
      obtain rfl := Option.some.inj found
      exact ⟨other, rfl, first⟩
    | succ k => exact ih found

variable {program : List Line} {d : Draft}

/-- A completed segment holds the words of its run. -/
theorem runDenotes_of_complete {run : Layout.Run} {drafted : DraftSegment} {segment : Segment}
    {labels : List (String × Nat)} (listed : LabelsListed program labels)
    (places : RunDrafted run drafted) (complete : drafted.complete labels = .ok segment) :
    RunDenotes program run segment := by
  obtain ⟨words, each, rfl⟩ := map_eq_ok_iff.1 complete
  have start : drafted.start.toUInt64.toNat = drafted.start.toNat := UInt16.toNat_toUInt64 _
  have bound := drafted.start.toNat_lt
  refine ⟨?_, ?_, forall₂_trans ?_ places.cells (mapM_eq_ok_iff.1 each)⟩
  · rw [start, places.start]
  · rw [start]
    omega
  · intro line cell word denotes completed
    refine (denotes labels word completed).mono ?_
    rintro label address ⟨n, found, rfl⟩
    exact listed.known label n found

/-- The segments of a completed draft are the runs that put down a word. -/
theorem segments_of_complete {image : Image} (drafted : Drafted program d)
    (complete : d.complete = .ok image) :
    List.Forall₂ (RunDenotes program) (Layout.filledRuns program) image.segments := by
  obtain ⟨segments, each, rfl⟩ := map_eq_ok_iff.1 complete
  have filled : List.Forall₂ RunDrafted (Layout.filledRuns program) d.filled := by
    refine List.rel_filter ?_ drafted.runs
    intro run segment places
    have same : run.emitting.isEmpty = segment.cells.isEmpty := by
      rw [Bool.eq_iff_iff, List.isEmpty_iff_length_eq_zero, Array.isEmpty_iff_size_eq_zero,
        places.cells.length_eq, Array.length_toList]
    simp only [same]
  refine forall₂_trans ?_ filled (mapM_eq_ok_iff.1 each)
  intro run segment words places completed
  exact runDenotes_of_complete drafted.labels places completed

/-- An image with the segments of a program holds the words of the program. -/
theorem imageDenotes_of_segments {image : Image}
    (segments : List.Forall₂ (RunDenotes program) (Layout.filledRuns program) image.segments) :
    ImageDenotes program image := by
  have words : List.Forall₂ (LineDenotes (Layout.LabelAt program)) (program.filter Line.emits)
      (image.segments.flatMap (·.words)) := by
    rw [← Layout.flatMap_emitting_filledRuns]
    exact List.rel_flatMap segments fun {run segment} denotes => denotes.words
  have size : image.size = program.countP Line.emits := by
    rw [Image.size, ← words.length_eq, List.countP_eq_length_filter]
  refine ⟨segments, words, size, ?_⟩
  rintro before line after rfl emits
  obtain ⟨run, member, k, found, address⟩ :=
    Layout.run_of_emits before line after emits
  obtain ⟨i, place⟩ := List.getElem?_of_mem member
  obtain ⟨segment, there, denotes⟩ := exists_related segments place
  obtain ⟨word, holds, said⟩ := exists_related denotes.words found
  refine ⟨segment, List.mem_of_getElem? there, k, word, ?_, holds, said⟩
  rw [denotes.start, address]

/-- A text that is accepted says one program, its labels are defined once each, and the image holds
the words of that program: each segment is a run of lines from one `ORG` to the next, each word is
what its line says, and a label is the address of the next word where it is defined. -/
theorem assemble_denotes {source : String} {image : Image}
    (accepted : assemble source = .ok image) :
    ∃ program, (∀ other, List.Forall₂ LineText (lines source.toList) other ↔ other = program) ∧
      (Layout.labels program).Nodup ∧
      (∀ label address address', Layout.LabelAt program label address →
        Layout.LabelAt program label address' → address = address') ∧
      ImageDenotes program image := by
  obtain ⟨d, read, complete⟩ := bind_eq_ok_iff.1 accepted
  obtain ⟨program, said, drafted⟩ := exists_drafted read
  have unique : Relator.RightUnique LineText := fun _ _ _ => LineText.unique
  refine ⟨program, fun other => ⟨fun reading => ?_, fun same => same ▸ said⟩,
    drafted.labels.distinct, fun _ _ _ => Layout.LabelAt.unique drafted.labels.distinct,
    imageDenotes_of_segments (segments_of_complete drafted complete)⟩
  exact List.right_unique_forall₂' unique reading said

/-- The words of a program in two segments whose first line uses the label of the second segment
before it is defined. -/
theorem assemble_denotes_forward_reference :
    assemble "LDA TABLE+1,X\nORG 32\nTABLE: DAT TABLE" =
        .ok ⟨[⟨0, [0x01020021]⟩, ⟨32, [0x20]⟩]⟩ ∧
      ∃ program, (∀ other, List.Forall₂ LineText
          (lines "LDA TABLE+1,X\nORG 32\nTABLE: DAT TABLE".toList) other ↔ other = program) ∧
        (Layout.labels program).Nodup ∧
        (∀ label address address', Layout.LabelAt program label address →
          Layout.LabelAt program label address' → address = address') ∧
        ImageDenotes program ⟨[⟨0, [0x01020021]⟩, ⟨32, [0x20]⟩]⟩ :=
  ⟨rfl, assemble_denotes rfl⟩

end DirectionCentral.Assembly

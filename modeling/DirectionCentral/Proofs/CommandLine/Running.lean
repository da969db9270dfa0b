import DirectionCentral.Proofs.CommandLine.Assembling

/-!
# Running what was assembled

A program is run from its source file or from the image file that assembling it has saved. Both runs
return the same number, and from the heading of the execution on they print the same lines, under
any options (`run_assembled`). For the image that is loaded is the one that was assembled
(`Image.loadDocument_toDocument`), and the two files are different ones (`Files.ne_of_resolve`).
What does differ is said of the program before the heading.
-/

namespace DirectionCentral

namespace Files

variable {files saved : Files} {path text : String}

/-- A text can be written under a path: it leads to a file, or in a directory to no file yet. -/
def Takes (files : Files) (path : String) : Prop :=
  ∃ place, files.resolve path = .ok (place, false) ∧ place.names.any isTooLong = false ∧
    files.hasDirectory place = false

/-- A file has got a text for its content, and no other file was touched. -/
structure Gains (saved files : Files) (path text : String) : Prop where
  /-- The text is read under the path. -/
  held : saved.readText path = .ok text
  /-- Every other place has the content that it had. -/
  others : ∀ place, files.resolve path ≠ .ok (place, false) →
    saved.content? place = files.content? place

/-- What is written under a path that takes it, other than that of the null device, is gained. -/
theorem Takes.exists_gains (takes : files.Takes path) (kept : files.isDevice path = false)
    (text : String) : ∃ saved, files.write path text = .ok saved ∧ saved.Gains files path text := by
  obtain ⟨place, resolved, short, free⟩ := takes
  have written : files.write path text = .ok (files.put place text.toUTF8) :=
    write_eq_ok_iff.2 ⟨place, resolved, short, free, rfl⟩
  refine ⟨_, written, readText_write kept written, fun other apart => content?_put_of_ne ?_⟩
  rintro rfl
  exact apart resolved

end Files

namespace CommandLine

/-! ## Printed lines -/

/-- The line that stands above the execution of a program. -/
def executionHeading : String := "━━━ Execution ━━━"

/-- The lines among what is printed that belong to the answer of a command. -/
def answer (output : List Output) : List String :=
  output.filterMap fun
    | .line text => some text
    | _ => none

/-- The lines of the answer from the heading of the execution on. -/
def Outcome.fromExecution (o : Outcome) : List String :=
  (answer o.output).dropWhile (· != executionHeading)

@[simp]
theorem answer_append (first second : List Output) :
    answer (first ++ second) = answer first ++ answer second :=
  List.filterMap_append

@[simp]
theorem answer_printed (texts : List String) : answer (printed texts) = texts := by
  rw [answer, printed, List.filterMap_map]
  exact List.filterMap_some

@[simp]
theorem answer_logged (messages : List Message) : answer (logged messages) = [] := by
  rw [answer, logged, List.filterMap_map, List.filterMap_eq_nil_iff]
  exact fun _ _ => rfl

/-- Texts that begin differently are different. -/
theorem ne_of_head? {left right : String} (differ : left.toList.head? ≠ right.toList.head?) :
    left ≠ right := by
  rintro rfl
  exact differ rfl

/-- What is printed before does not count, if it has no such heading. -/
theorem fromExecution_after {before : List String} (o : Outcome)
    (plain : executionHeading ∉ before) :
    (o.after (printed before)).fromExecution = o.fromExecution := by
  have passed : ∀ line ∈ before, (line != executionHeading) = true := fun line member =>
    bne_iff_ne.2 fun same => plain (same ▸ member)
  rw [Outcome.fromExecution, Outcome.after, answer_append, answer_printed,
    List.dropWhile_append_of_pos passed, Outcome.fromExecution]

/-- The execution of an image is shown under its heading. -/
theorem head?_fromExecution_runImage (settings : Settings) (limit : UInt64) (trace json : Bool)
    (image : Image) :
    (runImage settings limit trace json image).fromExecution.head? = some executionHeading := by
  rw [Outcome.fromExecution, runImage]
  simp only [answer_append, answer_printed, answer_logged, List.nil_append]
  rfl

/-! ## What running a file does -/

variable {settings : Settings} {program : String} {limit : UInt64} {trace json : Bool}
  {files : Files}

/-- What running a file does, by its plan. -/
theorem perform_run (settings : Settings) (program : String) (limit : UInt64) (trace json : Bool)
    (files : Files) :
    (Command.run program limit trace json).perform settings files =
      (withProgram program (files.readText program)
        (fun image before => .finish ((runImage settings limit trace json image).after before))
        (printed [s!"🔧 Running: {program}"])).carryOut files :=
  rfl

/-- What is said of a program that was read is not the heading of its execution. -/
theorem banner_ne {input : Except FileError String} {read : Program}
    (given : readProgram program input = .ok read) : read.banner ≠ executionHeading := by
  rw [readProgram] at given
  split at given
  all_goals
    obtain ⟨image, -, rfl⟩ := map_eq_ok_iff.1 given
    refine ne_of_head? ?_
    simp [executionHeading, show ∀ text : String, toString text = text from fun _ => rfl]

/-- Where no program is read, running fails. -/
theorem perform_run_of_error {text : String}
    (refused : readProgram program (files.readText program) = .error text) :
    ((Command.run program limit trace json).perform settings files).1.exit = 1 := by
  rw [perform_run, withProgram, refused]
  rfl

/-- A program that was read is run if it has a word. -/
theorem perform_run_of_program {read : Program} (settings : Settings) (limit : UInt64)
    (trace json : Bool) (given : readProgram program (files.readText program) = .ok read) :
    let outcome := ((Command.run program limit trace json).perform settings files).1
    if read.image.isEmpty then outcome.exit = 1
    else outcome.exit = 0 ∧
      outcome.fromExecution = (runImage settings limit trace json read.image).fromExecution := by
  intro outcome
  have running : s!"🔧 Running: {program}" ≠ executionHeading := by
    refine ne_of_head? ?_
    simp [executionHeading, show ∀ text : String, toString text = text from fun _ => rfl]
  have plain : executionHeading ∉ [s!"🔧 Running: {program}", read.banner] := by
    simp [running.symm, (banner_ne given).symm]
  have ends : outcome = if read.image.isEmpty then
        (Outcome.fail "No instructions to execute").after
          (printed [s!"🔧 Running: {program}", read.banner])
      else (runImage settings limit trace json read.image).after
        (printed [s!"🔧 Running: {program}", read.banner]) := by
    simp only [outcome, perform_run, withProgram, given]
    split <;> rfl
  by_cases empty : read.image.isEmpty
  · rw [if_pos empty, ends, if_pos empty]
    rfl
  · rw [if_neg empty, ends, if_neg empty]
    exact ⟨rfl, fromExecution_after _ plain⟩

/-- How running ends depends on the text of the program alone. -/
theorem perform_run_congr {saved : Files}
    (same : saved.readText program = files.readText program) :
    ((Command.run program limit trace json).perform settings saved).1 =
      ((Command.run program limit trace json).perform settings files).1 := by
  rw [perform_run, perform_run, same, withProgram]
  split
  · rfl
  · split <;> rfl

/-! ## Both files of a program -/

/-- A source file is recognized by its ending. -/
theorem isSource_append (p : String) : isSource (p ++ ".asm") = true := by
  rw [isSource, List.isSuffixOf_iff_suffix, String.toList_append]
  exact List.suffix_append _ _

/-- An image file is not taken for a source file. -/
theorem isSource_append_json (p : String) : isSource (p ++ ".json") = false := by
  rw [← Bool.not_eq_true, isSource, List.isSuffixOf_iff_suffix, String.toList_append]
  intro ends
  have last := ends.getLast (by decide)
  simp at last

/-- The program in a source file is its assembled text. -/
theorem readProgram_source {input : Except FileError String} {image : Image} (p : String)
    (assembled : readSource input = .ok image) :
    ∃ read, readProgram (p ++ ".asm") input = .ok read ∧ read.image = image := by
  rw [readProgram, if_pos (isSource_append p), assembled]
  exact ⟨_, rfl, rfl⟩

/-- No program is read from a source file whose text is not assembled. -/
theorem readProgram_source_of_error {input : Except FileError String} {e : String} (p : String)
    (refused : readSource input = .error e) : readProgram (p ++ ".asm") input = .error e := by
  rw [readProgram, if_pos (isSource_append p), refused]
  rfl

/-- The program in a saved image file is the image, unless it has no words. -/
theorem readProgram_document (p : String) (image : Image) :
    if image.isEmpty then ∃ e, readProgram (p ++ ".json") (.ok image.toDocument) = .error e
    else ∃ read, readProgram (p ++ ".json") (.ok image.toDocument) = .ok read ∧
      read.image = image := by
  have other : ¬ isSource (p ++ ".json") = true := by simp [isSource_append_json]
  rw [readProgram, if_neg other, readImage, Image.loadDocument, Image.ofDocument?_toDocument]
  by_cases empty : image.isEmpty
  · simp only [if_pos empty]
    exact ⟨_, rfl⟩
  · simp only [if_neg empty]
    exact ⟨_, rfl, rfl⟩

/-- The ending of source files ends the names of files. -/
theorem isEnding_asm : Path.IsEnding ".asm" := ⟨by decide, 'a', by decide, by decide⟩

/-- The ending of image files ends the names of files. -/
theorem isEnding_json : Path.IsEnding ".json" := ⟨by decide, 'j', by decide, by decide⟩

/-- An assembled program is saved in an image file beside its source file. -/
theorem saves_beside {p text : String} {image : Image}
    (stored : files.readText (p ++ ".asm") = .ok text)
    (accepted : Assembly.assemble text = .ok image) (takes : files.Takes (p ++ ".json")) :
    ∃ saved, Saves files (p ++ ".asm") (some (p ++ ".json")) image saved ∧
      saved.Gains files (p ++ ".json") image.toDocument ∧
      saved.readText (p ++ ".asm") = .ok text := by
  obtain ⟨bytes, read, valid⟩ := bind_eq_ok_iff.1 stored
  obtain ⟨place, resolved, -, -, -⟩ := Files.read_eq_ok_iff.1 read
  have kept : files.isDevice (p ++ ".json") = false := by
    obtain ⟨other, resolved', -, -⟩ := takes
    have file := Files.ne_nullDevice_of_resolve isEnding_json (by decide) resolved'
    rw [Files.isDevice, resolved']
    exact beq_eq_false_iff_ne.2 file
  have apart : files.resolve (p ++ ".json") ≠ files.resolve (p ++ ".asm") := fun together =>
    Files.ne_of_resolve String.toList_append String.toList_append isEnding_json.1 isEnding_asm.1
      (by decide) (together.trans resolved) resolved rfl
  obtain ⟨saved, written, gains⟩ := takes.exists_gains kept image.toDocument
  refine ⟨saved, ⟨Path.same_append_eq_false isEnding_json isEnding_asm (by decide),
    ⟨text, stored, accepted⟩, written⟩, gains, ?_⟩
  exact bind_eq_ok_iff.2 ⟨bytes, Files.read_write_elsewhere read written apart, valid⟩

/-- A program is run alike from its source file and from the image file beside it, if it has a word;
else it is run from neither. -/
theorem perform_run_both {p text : String} {image : Image}
    (source : files.readText (p ++ ".asm") = .ok text)
    (accepted : Assembly.assemble text = .ok image)
    (document : files.readText (p ++ ".json") = .ok image.toDocument) (settings : Settings)
    (limit : UInt64) (trace json : Bool) :
    let run (program : String) : Outcome :=
      ((Command.run program limit trace json).perform settings files).1
    if ∃ s ∈ image.segments, s.words ≠ [] then
      (run (p ++ ".json")).exit = 0 ∧ (run (p ++ ".asm")).exit = 0 ∧
      (run (p ++ ".json")).fromExecution = (run (p ++ ".asm")).fromExecution ∧
      (run (p ++ ".asm")).fromExecution.head? = some executionHeading
    else (run (p ++ ".json")).exit = 1 ∧ (run (p ++ ".asm")).exit = 1 := by
  intro run
  obtain ⟨read, given, rfl⟩ := readProgram_source p (readSource_eq_ok_iff.2 ⟨text, rfl, accepted⟩)
  have fromSource := perform_run_of_program settings limit trace json (source ▸ given)
  have loaded := readProgram_document p read.image
  rw [← document] at loaded
  by_cases empty : read.image.isEmpty
  · have wordless : ¬ ∃ s ∈ read.image.segments, s.words ≠ [] := by
      simpa [Image.isEmpty_iff] using empty
    rw [if_pos empty] at loaded fromSource
    obtain ⟨e, refused⟩ := loaded
    rw [if_neg wordless]
    exact ⟨perform_run_of_error refused, fromSource⟩
  · have inhabited : ∃ s ∈ read.image.segments, s.words ≠ [] := by
      simpa [Image.isEmpty_iff] using empty
    rw [if_neg empty] at loaded fromSource
    obtain ⟨again, given', same⟩ := loaded
    have fromImage := perform_run_of_program settings limit trace json given'
    rw [same, if_neg empty] at fromImage
    rw [if_pos inhabited]
    refine ⟨fromImage.1, fromSource.1, fromImage.2.trans fromSource.2.symm, ?_⟩
    exact (congrArg _ fromSource.2).trans (head?_fromExecution_runImage ..)

/-- A program may be assembled ahead of being run. A source text that is rejected can neither be run
nor assembled, and no file is touched then; nor is one where the image file cannot be written. One
that is accepted gains an image file, and no other file is touched. Then both files are run with the
same exit and, if the program has a word, show the same under the heading of the execution. -/
theorem run_assembled (p text : String) (settings settings' : Settings) (limit : UInt64)
    (trace json : Bool) (files : Files) (stored : files.readText (p ++ ".asm") = .ok text) :
    let run (program : String) (files : Files) : Outcome :=
      ((Command.run program limit trace json).perform settings files).1
    let assembled := (Command.assemble (p ++ ".asm") (some (p ++ ".json"))).perform settings' files
    (∀ e, Assembly.assemble text = .error e →
      (run (p ++ ".asm") files).exit = 1 ∧ assembled.1.exit = 1 ∧ assembled.2 = files) ∧
    ∀ image, Assembly.assemble text = .ok image →
      (¬ files.Takes (p ++ ".json") → assembled.1.exit = 1 ∧ assembled.2 = files) ∧
      (files.Takes (p ++ ".json") →
        assembled.1.exit = 0 ∧ assembled.2.Gains files (p ++ ".json") image.toDocument ∧
        run (p ++ ".asm") assembled.2 = run (p ++ ".asm") files ∧
        if ∃ s ∈ image.segments, s.words ≠ [] then
          (run (p ++ ".json") assembled.2).exit = 0 ∧ (run (p ++ ".asm") assembled.2).exit = 0 ∧
          (run (p ++ ".json") assembled.2).fromExecution =
            (run (p ++ ".asm") assembled.2).fromExecution ∧
          (run (p ++ ".asm") assembled.2).fromExecution.head? = some executionHeading
        else
          (run (p ++ ".json") assembled.2).exit = 1 ∧
          (run (p ++ ".asm") assembled.2).exit = 1) := by
  intro run assembled
  refine ⟨fun e rejected => ?_, fun image accepted => ⟨fun untaken => ?_, fun takes => ?_⟩⟩
  · have refused : readSource (files.readText (p ++ ".asm")) =
        .error s!"Assembly error: {e.message}" := by
      rw [stored, readSource, rejected]
    refine ⟨perform_run_of_error (readProgram_source_of_error p refused),
      perform_assemble_of_fails ?_⟩
    rintro image saved ⟨-, program, -⟩
    rw [readSource_eq_ok_iff.2 program] at refused
    contradiction
  · refine perform_assemble_of_fails ?_
    rintro image' saved ⟨-, -, written⟩
    obtain ⟨place, resolved, short, free, -⟩ := Files.write_eq_ok_iff.1 written
    exact untaken ⟨place, resolved, short, free⟩
  · obtain ⟨saved, saves, gains, stays⟩ := saves_beside stored accepted takes
    obtain ⟨succeeds, rfl⟩ : assembled.1.exit = 0 ∧ assembled.2 = saved :=
      perform_assemble_of_saves saves
    exact ⟨succeeds, gains, perform_run_congr (stays.trans stored.symm),
      perform_run_both stays accepted gains.held settings limit trace json⟩

/-- A program that halts at once, one without a word and one that is none. -/
def threeSources : Files where
  entries :=
    [({ names := ["halt.asm".toList] }, "HLT".toUTF8),
      ({ names := ["blank.asm".toList] }, "; nothing".toUTF8),
      ({ names := ["wrong.asm".toList] }, "FOO".toUTF8)]

/-- The program that halts at once is run from both its files, the one without a word from neither;
and the one that is none is not assembled. -/
theorem run_assembled_examples :
    let run (program : String) (files : Files) : Outcome :=
      ((Command.run program 10 true false).perform {} files).1
    let assembled (p : String) :=
      (Command.assemble (p ++ ".asm") (some (p ++ ".json"))).perform {} threeSources
    ((assembled "halt").1.exit = 0 ∧
        (assembled "halt").2.Gains threeSources "halt.json" (Image.ofWords 0 [0]).toDocument ∧
        (run "halt.json" (assembled "halt").2).exit = 0 ∧
        (run "halt.json" (assembled "halt").2).fromExecution =
          (run "halt.asm" (assembled "halt").2).fromExecution) ∧
      ((assembled "blank").1.exit = 0 ∧ (run "blank.json" (assembled "blank").2).exit = 1 ∧
        (run "blank.asm" (assembled "blank").2).exit = 1) ∧
      (run "wrong.asm" threeSources).exit = 1 ∧ (assembled "wrong").1.exit = 1 ∧
        (assembled "wrong").2 = threeSources := by
  intro run assembled
  have beside : threeSources.Takes "halt.json" ∧ threeSources.Takes "blank.json" := by
    constructor
    · exact ⟨{ names := ["halt.json".toList] }, by decide +kernel⟩
    · exact ⟨{ names := ["blank.json".toList] }, by decide +kernel⟩
  obtain ⟨-, halt⟩ :=
    run_assembled "halt" "HLT" {} {} 10 true false threeSources (by decide +kernel)
  obtain ⟨-, blank⟩ :=
    run_assembled "blank" "; nothing" {} {} 10 true false threeSources (by decide +kernel)
  obtain ⟨wrong, -⟩ :=
    run_assembled "wrong" "FOO" {} {} 10 true false threeSources (by decide +kernel)
  obtain ⟨saved, gains, -, ran⟩ := (halt (.ofWords 0 [0]) (by decide +kernel)).2 beside.1
  obtain ⟨saved', -, -, ran'⟩ := (blank ⟨[]⟩ (by decide +kernel)).2 beside.2
  rw [if_pos (by decide)] at ran
  rw [if_neg (by decide)] at ran'
  exact ⟨⟨saved, gains, ran.1, ran.2.2.1⟩, ⟨saved', ran'⟩,
    wrong ⟨1, .unknownMnemonic "FOO"⟩ (by decide +kernel)⟩

end CommandLine

end DirectionCentral

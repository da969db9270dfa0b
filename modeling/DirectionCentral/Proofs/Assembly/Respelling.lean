import Mathlib.Logic.Relation
import DirectionCentral.Proofs.Assembly.Composition
import DirectionCentral.Proofs.Assembly.Folding
import DirectionCentral.Proofs.Assembly.Wording

/-!
# Respelt texts

Letter case, comments, blanks at the ends of lines and carriage returns mean nothing. A text may be
respelt in all of these (`Respelt`), and what assembling it comes to is the same: the same image, or
an error of the same kind on the same line (`assemble_respelt`). The reason is that respelt texts
have the same code on each of their lines, but for the case of letters (`gists_of_respelt`), and
that reading looks at nothing else.
-/

namespace DirectionCentral.Assembly

open Text

/-- A text is at the end of a line: it is empty or begins with a newline. -/
def EndsLine (text : List Char) : Prop := ∀ c ∈ text.head?, c = '\n'

/-- One respelling of a text. -/
inductive Respelling : List Char → List Char → Prop
  /-- A letter is written in another case. -/
  | letter (before after : List Char) {c c' : Char} (same : c.toLower = c'.toLower) :
      Respelling (before ++ c :: after) (before ++ c' :: after)
  /-- At the end of a line a comment is added, removed or put in place of another one. -/
  | comment (before after : List Char) {old new : List Char} (was : CommentForm old)
      (becomes : CommentForm new) (ends : EndsLine after) :
      Respelling (before ++ old ++ after) (before ++ new ++ after)
  /-- At the end of a line spaces and tabs are added. -/
  | blanks (before after : List Char) {blanks : List Char}
      (plain : ∀ c ∈ blanks, c = ' ' ∨ c = '\t') (ends : EndsLine after) :
      Respelling (before ++ after) (before ++ blanks ++ after)
  /-- A newline becomes a carriage return and a newline. -/
  | newline (before after : List Char) :
      Respelling (before ++ '\n' :: after) (before ++ '\r' :: '\n' :: after)

/-- A text is another one after respellings, each of which may be taken back as well. -/
def Respelt : List Char → List Char → Prop := Relation.EqvGen Respelling

/-- The kinds of faults. -/
inductive Kind where
  | form
  | unknownMnemonic
  | undefinedLabel
  | outOfRange
deriving DecidableEq

/-- The kind of a fault. -/
def Fault.kind : Fault → Kind
  | .form _ => .form
  | .unknownMnemonic _ => .unknownMnemonic
  | .undefinedLabel _ => .undefinedLabel
  | .outOfRange _ => .outOfRange

/-- Two texts come to the same: both to the same image, or both to an error of the same kind on the
same line. -/
inductive SameOutcome : Except Error Image → Except Error Image → Prop
  | accepted (image : Image) : SameOutcome (.ok image) (.ok image)
  | rejected {e e' : Error} (line : e.line = e'.line) (kind : e.fault.kind = e'.fault.kind) :
      SameOutcome (.error e) (.error e')

variable {text text' before after line extra : List Char}

/-! ## What counts of a line -/

/-- What counts of a line: its code, whatever the case of its letters. -/
def gist (line : List Char) : List Char := fold (code line)

/-- What counts of each line of a text. -/
def gists (text : List Char) : List (List Char) := (lines (text ++ ['\n'])).map gist

/-- A comment at the end of a line does not change its code. -/
theorem code_append_comment (comment : CommentForm extra) (line : List Char) :
    code (line ++ extra) = code line := by
  have cut := cutAt_takeWhile (· == ';') line
  have stopped : ∀ c ∈ extra.head?, (c == ';') = true := by
    intro c first
    cases comment with
    | none => contradiction
    | some => exact Option.some.inj first ▸ rfl
  rw [code_of_cutAt cut, code_of_cutAt (cut.append_stop stopped)]

/-- Blanks at the end of a line do not change its code. -/
theorem code_append_spacing (spacing : Spacing extra) (line : List Char) :
    code (line ++ extra) = code line := by
  obtain ⟨left, right, cut⟩ : ∃ left right, CutAt (· == ';') line left right :=
    ⟨_, _, cutAt_takeWhile _ line⟩
  cases right with
  | nil =>
    -- Without a comment the blanks are part of what is trimmed.
    have longer : CutAt (· == ';') (line ++ extra) (left ++ extra) [] := by
      refine ⟨by rw [cut.whole, List.append_nil, List.append_nil], ?_, fun c first => ?_⟩
      · exact List.forall_mem_append.2 ⟨cut.free, fun c member =>
          beq_eq_false_iff_ne.2 (spacing.plain c member).2.2.1⟩
      · contradiction
    rw [code_of_cutAt cut, code_of_cutAt longer]
    exact trim_spacing spacing_nil spacing left
  | cons c comment =>
    have longer : CutAt (· == ';') (line ++ extra) left (c :: comment ++ extra) :=
      ⟨by rw [cut.whole, List.append_assoc], cut.free, fun _ first => cut.stopped _ first⟩
    rw [code_of_cutAt cut, code_of_cutAt longer]

/-- The code of a line is the code of itself. -/
theorem code_code (line : List Char) : code (code line) = code line := by
  have cut := cutAt_takeWhile (· == ';') line
  have whole : CutAt (· == ';') (code line) (code line) [] := by
    refine ⟨(List.append_nil _).symm, fun c member => ?_, fun c first => by contradiction⟩
    rw [code_of_cutAt cut] at member
    exact cut.free c (mem_of_mem_trim member)
  rw [code_of_cutAt whole, code_of_cutAt cut, trim_trim]

/-- What counts of a line does not depend on the case of its letters. -/
theorem gist_of_fold {line' : List Char} (same : fold line = fold line') :
    gist line = gist line' := by
  rw [gist, gist, ← code_fold, ← code_fold, same]

/-! ## What counts of a text -/

/-- What counts of a text stays the same with what counts of the line at its front, in whatever
place of a text. -/
theorem gists_append {first first' : List Char} {rest : List (List Char)}
    (split : lines (text ++ ['\n']) = first :: rest)
    (split' : lines (text' ++ ['\n']) = first' :: rest)
    (same : ∀ line, gist (line ++ first) = gist (line ++ first')) (before : List Char) :
    gists (before ++ text) = gists (before ++ text') := by
  obtain ⟨done, last, front⟩ := exists_lines_append before
  rw [gists, gists, List.append_assoc, List.append_assoc, front split, front split',
    List.map_append, List.map_append, List.map_cons, List.map_cons, same]

/-- What counts of a text does not change with what does not count at the end of a line. -/
theorem gists_extra (free : '\n' ∉ extra) (nothing : ∀ line, code (line ++ extra) = code line)
    (ends : EndsLine after) (before : List Char) :
    gists (before ++ extra ++ after) = gists (before ++ after) := by
  obtain ⟨more, newline⟩ : ∃ more, after ++ ['\n'] = '\n' :: more := by
    cases after with
    | nil => exact ⟨[], rfl⟩
    | cons c rest => exact ⟨rest ++ ['\n'], by rw [ends c rfl, List.cons_append]⟩
  have split : lines (after ++ ['\n']) = [] :: lines more := by rw [newline, lines_newline]
  have split' : lines (extra ++ after ++ ['\n']) = extra :: lines more := by
    rw [List.append_assoc, newline, lines_append free]
  rw [List.append_assoc]
  refine gists_append split' split (fun line => ?_) before
  rw [gist, nothing, gist, List.append_nil]

/-- What counts of a text does not change with the case of a letter. -/
theorem gists_letter {c c' : Char} (same : c.toLower = c'.toLower) (before after : List Char) :
    gists (before ++ c :: after) = gists (before ++ c' :: after) := by
  have lineEnd : c = '\n' ↔ c' = '\n' := by
    rw [← toLower_eq_iff rfl, same, toLower_eq_iff rfl]
  by_cases newline : c = '\n'
  · rw [newline, lineEnd.1 newline]
  · have other : c' ≠ '\n' := fun newline' => newline (lineEnd.2 newline')
    obtain ⟨first, rest, split⟩ : ∃ first rest, lines (after ++ ['\n']) = first :: rest := by
      cases after with
      | nil => exact ⟨_, _, rfl⟩
      | cons d after => exact List.exists_cons_of_ne_nil (lines_ne_nil d _)
    refine gists_append (lines_cons newline split) (lines_cons other split) (fun line => ?_) before
    refine gist_of_fold ?_
    rw [fold, fold, List.map_append, List.map_append, List.map_cons, List.map_cons, same]

/-- Respelt texts have the same lines as far as it counts. -/
theorem gists_of_respelt (respelt : Respelt text text') : gists text = gists text' := by
  have free {extra : List Char} (comment : CommentForm extra) : '\n' ∉ extra := by
    cases comment with
    | none => exact List.not_mem_nil
    | some free => simpa using free
  have blank {blanks : List Char} (plain : ∀ c ∈ blanks, c = ' ' ∨ c = '\t') : Spacing blanks := by
    intro c member
    obtain rfl | rfl := plain c member <;> decide
  induction respelt with
  | refl text => rfl
  | symm _ _ _ ih => exact ih.symm
  | trans _ _ _ _ _ one other => exact one.trans other
  | rel _ _ change =>
    cases change with
    | letter before after same => exact gists_letter same before after
    | comment before after was becomes ends =>
      rw [gists_extra (free was) (code_append_comment was) ends,
        gists_extra (free becomes) (code_append_comment becomes) ends]
    | blanks before after plain ends =>
      have spacing := blank plain
      have within : '\n' ∉ _ := fun member => (spacing '\n' member).2 rfl
      rw [gists_extra within (code_append_spacing spacing) ends]
    | newline before after =>
      have spacing : Spacing ['\r'] := spacing_of_all rfl
      have ends : EndsLine ('\n' :: after) := fun c first => (Option.some.inj first).symm
      have kept := gists_extra (by decide) (code_append_spacing spacing) ends before
      rw [← kept, List.append_assoc, List.singleton_append]

/-! ## Outcomes -/

/-- Lines are added as what counts of them is, but for the operand that an error quotes. -/
theorem addLines_gist (d : Draft) (number : Nat) (texts : List (List Char)) :
    d.addLines number (texts.map gist) = (d.addLines number texts).mapError Error.folded := by
  have codes : d.addLines number (texts.map code) = d.addLines number texts := by
    induction texts generalizing d number with
    | nil => rfl
    | cons line rest ih =>
      have same : d.addLine number (code line) = d.addLine number line := by
        rw [Draft.addLine, readLine, code_code, Draft.addLine, readLine]
      rw [List.map_cons, Draft.addLines, same, Draft.addLines]
      simp only [ih]
  rw [← codes, ← addLines_fold, List.map_map]
  rfl

/-- A text is read as what counts of its lines is, but for the operand that an error quotes. -/
theorem addLines_gists (text : List Char) :
    ({} : Draft).addLines 1 (gists text) = (Draft.ofSource text).mapError Error.folded := by
  obtain ⟨gap, empty, split⟩ := lines_append_newline text []
  have blank : ∀ line ∈ gap ++ lines [], code line = [] := by
    intro line member
    rw [empty line (by simpa [lines] using member)]
    rfl
  rw [gists, addLines_gist, split, addLines_append, Draft.ofSource]
  simp only [addLines_blank _ _ blank]
  cases ({} : Draft).addLines 1 (lines text) <;> rfl

/-- An outcome is the same as itself. -/
theorem SameOutcome.refl (outcome : Except Error Image) : SameOutcome outcome outcome := by
  cases outcome with
  | ok image => exact .accepted image
  | error e => exact .rejected rfl rfl

/-- Folding keeps the kind of a fault. -/
theorem kind_folded (fault : Fault) : fault.folded.kind = fault.kind := by
  cases fault <;> rfl

/-- Errors that differ in the case of letters that they quote are of one kind on one line. -/
theorem SameOutcome.of_folded {e e' : Error} (same : e.folded = e'.folded) :
    SameOutcome (.error e) (.error e') := by
  have line : e.folded.line = e'.folded.line := congrArg Error.line same
  refine .rejected line ?_
  have kind : e.fault.folded.kind = e'.fault.folded.kind := congrArg (·.fault.kind) same
  rwa [kind_folded, kind_folded] at kind

/-- Whatever letters of a text are written in another case, whatever comments are added, removed or
changed, whatever spaces and tabs are added at the ends of lines and whatever newlines become
carriage returns and newlines, both texts are accepted with the same image, or both are rejected
with an error of the same kind on the same line. -/
theorem assemble_respelt {source source' : String}
    (respelt : Respelt source.toList source'.toList) :
    SameOutcome (assemble source) (assemble source') := by
  have reading : (Draft.ofSource source.toList).mapError Error.folded =
      (Draft.ofSource source'.toList).mapError Error.folded := by
    rw [← addLines_gists, ← addLines_gists, gists_of_respelt respelt]
  rw [assemble, assembleChars, assemble, assembleChars]
  cases read : Draft.ofSource source.toList with
  | error e =>
    cases read' : Draft.ofSource source'.toList with
    | error e' =>
      rw [read, read'] at reading
      exact .of_folded (Except.error.inj reading)
    | ok d' =>
      rw [read, read'] at reading
      contradiction
  | ok d =>
    cases read' : Draft.ofSource source'.toList with
    | error e' =>
      rw [read, read'] at reading
      contradiction
    | ok d' =>
      rw [read, read'] at reading
      obtain rfl := Except.ok.inj reading
      exact .refl _

/-- Texts with the same letters are respellings of each other. -/
theorem respelt_of_fold (same : fold text = fold text') (before : List Char) :
    Respelt (before ++ text) (before ++ text') := by
  induction text generalizing text' before with
  | nil =>
    obtain rfl : text' = [] := List.map_eq_nil_iff.1 same.symm
    exact .refl _
  | cons c text ih =>
    obtain ⟨c', rest, rfl, letter, others⟩ := List.map_eq_cons_iff.1 same.symm
    refine .trans _ _ _ (.rel _ _ (.letter before text letter.symm)) ?_
    have behind := ih others.symm (before ++ [c'])
    rwa [List.append_assoc, List.append_assoc] at behind

/-- A text in both cases, with a comment, and a respelling without the comment, with another one,
with blanks and with a carriage return. -/
theorem assemble_respelt_table :
    let source := "a: dat A+0xa ; one\nlda a,x"
    let source' := "A: DAT a+0XA \t\r\nLDA A,X;b:,\"c\""
    assemble source = .ok ⟨[⟨0, [0x0000000A, 0x01020000]⟩]⟩ ∧
      Respelt source.toList source'.toList ∧
      SameOutcome (assemble source) (assemble source') := by
  intro source source'
  have letters : Respelt source.toList "A: DAT a+0XA ; one\nLDA A,X".toList :=
    respelt_of_fold (by decide) []
  have removed : Respelling _ _ :=
    .comment "A: DAT a+0XA ".toList "\nLDA A,X".toList
      (@CommentForm.some " one".toList (by decide)) .none
      fun c first => (Option.some.inj first).symm
  have blank : Respelling _ _ :=
    @Respelling.blanks "A: DAT a+0XA ".toList "\nLDA A,X".toList ['\t'] (by simp)
      fun c first => (Option.some.inj first).symm
  have newline : Respelling _ _ := .newline "A: DAT a+0XA \t".toList "LDA A,X".toList
  have added : Respelling _ _ :=
    .comment "A: DAT a+0XA \t\r\nLDA A,X".toList [] .none
      (@CommentForm.some "b:,\"c\"".toList (by decide)) fun c first => by contradiction
  have respelt : Respelt source.toList "A: DAT a+0XA \t\r\nLDA A,X;b:,\"c\"".toList :=
    letters.trans _ _ _ <| (Relation.EqvGen.rel _ _ removed).trans _ _ _ <|
      (Relation.EqvGen.rel _ _ blank).trans _ _ _ <|
        (Relation.EqvGen.rel _ _ newline).trans _ _ _ (.rel _ _ added)
  exact ⟨by decide +kernel, respelt, assemble_respelt respelt⟩

end DirectionCentral.Assembly

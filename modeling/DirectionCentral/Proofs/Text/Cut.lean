import Mathlib.Data.List.DropRight
import DirectionCentral.Text.Blank
import DirectionCentral.Text.Lines

/-!
# Cutting a text

A text is cut before the first character that stops (`CutAt`). There is one way to cut
(`CutAt.unique`), and splitting at the first or at the last such character is cutting there.
Trimming twice is trimming once, and lines that are joined by newlines are read back
(`lines_intercalate`), and so are lines that each end in one (`lines_unlines`). Texts with a newline
between them keep their lines (`lines_append_newline`).
-/

namespace DirectionCentral.Text

/-- A text consists of a part without a stop and a part that is empty or begins with one. -/
structure CutAt (stop : Char → Bool) (text left right : List Char) : Prop where
  /-- The parts make up the text. -/
  whole : text = left ++ right
  /-- The first part has no stop. -/
  free : ∀ c ∈ left, stop c = false
  /-- The second part begins with a stop, if there is one. -/
  stopped : ∀ c ∈ right.head?, stop c = true

variable {stop : Char → Bool} {text left right rest : List Char}

/-- A cut is where the first stop is. -/
theorem CutAt.eq (cut : CutAt stop text left right) :
    text.takeWhile (!stop ·) = left ∧ text.dropWhile (!stop ·) = right := by
  have free : ∀ c ∈ left, (!stop c) = true := fun c member => by simp [cut.free c member]
  have stopped : right.takeWhile (!stop ·) = [] ∧ right.dropWhile (!stop ·) = right := by
    cases right with
    | nil => exact ⟨rfl, rfl⟩
    | cons c rest =>
      have : stop c = true := cut.stopped c rfl
      simp [this]
  rw [cut.whole, List.takeWhile_append_of_pos free, List.dropWhile_append_of_pos free, stopped.1,
    stopped.2, List.append_nil]
  exact ⟨rfl, rfl⟩

/-- Every text can be cut. -/
theorem cutAt_takeWhile (stop : Char → Bool) (text : List Char) :
    CutAt stop text (text.takeWhile (!stop ·)) (text.dropWhile (!stop ·)) where
  whole := List.takeWhile_append_dropWhile.symm
  free c member := by simpa using List.mem_takeWhile_imp member
  stopped c first := by
    have := List.head?_dropWhile_not (!stop ·) text
    rw [Option.mem_def.1 first] at this
    simpa using this

/-- There is one way to cut. -/
theorem CutAt.unique {left' right' : List Char} (cut : CutAt stop text left right)
    (other : CutAt stop text left' right') : left = left' ∧ right = right' :=
  ⟨cut.eq.1.symm.trans other.eq.1, cut.eq.2.symm.trans other.eq.2⟩

/-- A text without a stop is not split. -/
theorem splitAtFirst_eq_none_iff :
    splitAtFirst stop text = (left, none) ↔ CutAt stop text left [] := by
  have cut := cutAt_takeWhile stop text
  rw [splitAtFirst]
  constructor
  · intro split
    cases dropped : text.dropWhile (!stop ·) with
    | nil =>
      simp only [dropped, Prod.mk.injEq, and_true] at split
      subst split
      rw [dropped] at cut
      have whole : text.takeWhile (!stop ·) = text := by
        rw [← List.append_nil (text.takeWhile _), ← cut.whole]
      rwa [whole] at cut
    | cons c rest => simp [dropped] at split
  · intro cut'
    have same := cut'.whole
    rw [List.append_nil] at same
    rw [cut'.eq.2, same]

/-- A text with a stop is split there. -/
theorem splitAtFirst_eq_some_iff :
    splitAtFirst stop text = (left, some rest) ↔ ∃ c, CutAt stop text left (c :: rest) := by
  have cut := cutAt_takeWhile stop text
  rw [splitAtFirst]
  constructor
  · intro split
    cases dropped : text.dropWhile (!stop ·) with
    | nil => simp [dropped] at split
    | cons c tail =>
      simp only [dropped, Prod.mk.injEq, Option.some.injEq] at split
      obtain ⟨rfl, rfl⟩ := split
      exact ⟨c, dropped ▸ cut⟩
  · rintro ⟨c, found⟩
    rw [found.eq.2, found.eq.1]

/-- A cut stays where it is when a stop follows the text. -/
theorem CutAt.append_stop {more : List Char} (cut : CutAt stop text left right)
    (stopped : ∀ c ∈ more.head?, stop c = true) :
    CutAt stop (text ++ more) left (right ++ more) := by
  refine ⟨by rw [cut.whole, List.append_assoc], cut.free, fun c first => ?_⟩
  cases right with
  | nil => exact stopped c first
  | cons d rest => exact cut.stopped c first

/-- What stands before a cut is what splitting there puts first. -/
theorem CutAt.fst_splitAtFirst (cut : CutAt stop text left right) :
    (splitAtFirst stop text).1 = left := by
  cases right with
  | nil => rw [splitAtFirst_eq_none_iff.2 cut]
  | cons c rest => rw [splitAtFirst_eq_some_iff.2 ⟨c, cut⟩]

/-- The last stop of a text is what it is split at. -/
theorem splitAtLast_eq_some_iff {front last : List Char} :
    splitAtLast stop text = some (front, last) ↔
      ∃ c, stop c = true ∧ text = front ++ c :: last ∧ ∀ d ∈ last, stop d = false := by
  rw [splitAtLast]
  constructor
  · intro split
    cases parts : splitAtFirst stop text.reverse with
    | mk before after =>
      cases after with
      | none => simp [parts] at split
      | some rest =>
        simp only [parts, Option.some.injEq, Prod.mk.injEq] at split
        obtain ⟨rfl, rfl⟩ := split
        obtain ⟨c, cut⟩ := splitAtFirst_eq_some_iff.1 parts
        refine ⟨c, cut.stopped c rfl, ?_, fun d member => cut.free d (List.mem_reverse.1 member)⟩
        have := congrArg List.reverse cut.whole
        simpa using this
  · rintro ⟨c, stops, rfl, free⟩
    have cut : CutAt stop (front ++ c :: last).reverse last.reverse (c :: front.reverse) := by
      refine ⟨by simp, fun d member => free d (List.mem_reverse.1 member), ?_⟩
      intro d first
      obtain rfl := Option.some.inj first
      exact stops
    rw [splitAtFirst_eq_some_iff.2 ⟨c, cut⟩]
    simp

/-- A text without a stop has no last stop. -/
theorem splitAtLast_eq_none_iff : splitAtLast stop text = none ↔ ∀ c ∈ text, stop c = false := by
  rw [splitAtLast]
  cases parts : splitAtFirst stop text.reverse with
  | mk before after =>
    cases after with
    | none =>
      have cut := splitAtFirst_eq_none_iff.1 parts
      have same := cut.whole
      rw [List.append_nil] at same
      simpa [← same] using cut.free
    | some rest =>
      obtain ⟨c, cut⟩ := splitAtFirst_eq_some_iff.1 parts
      have member : c ∈ text := by
        rw [← List.mem_reverse, cut.whole]
        simp
      have stops := cut.stopped c rfl
      simp only [reduceCtorEq, false_iff, not_forall]
      exact ⟨c, member, by simp [stops]⟩

/-- Trimming leaves a text as it is that neither begins nor ends with a blank. -/
theorem trim_eq_self (first : ∀ c ∈ text.head?, isBlank c = false)
    (last : ∀ c ∈ text.getLast?, isBlank c = false) : trim text = text := by
  have front : text.dropWhile isBlank = text := by
    cases text with
    | nil => rfl
    | cons c rest => exact List.dropWhile_cons_of_neg (by simp [first c rfl])
  change (text.dropWhile isBlank).rdropWhile isBlank = text
  rw [front, List.rdropWhile_eq_self_iff]
  intro nonempty
  simp [last _ (List.getLast?_eq_getLast_of_ne_nil nonempty)]

/-- Trimming leaves a text without blanks as it is. -/
theorem trim_of_free (free : ∀ c ∈ text, isBlank c = false) : trim text = text :=
  trim_eq_self (fun c first => free c (List.mem_of_mem_head? first))
    (fun c last => free c (List.mem_of_getLast? last))

/-- A trimmed text is left as it is. -/
theorem trim_trim (text : List Char) : trim (trim text) = trim text := by
  refine trim_eq_self (fun c first => ?_) (fun c last => ?_)
  · obtain ⟨tail, front⟩ := List.rdropWhile_prefix isBlank (l := text.dropWhile isBlank)
    have whole : trim text ++ tail = text.dropWhile isBlank := front
    have head : (text.dropWhile isBlank).head? = some c := by
      rw [← whole, List.head?_append, Option.mem_def.1 first, Option.some_or]
    have stop := List.head?_dropWhile_not isBlank text
    rw [head] at stop
    simpa using stop
  · have nonempty : (text.dropWhile isBlank).rdropWhile isBlank ≠ [] := by
      intro empty
      change c ∈ ((text.dropWhile isBlank).rdropWhile isBlank).getLast? at last
      simp [empty] at last
    have stop := List.rdropWhile_last_not isBlank _ nonempty
    change c ∈ ((text.dropWhile isBlank).rdropWhile isBlank).getLast? at last
    rw [List.getLast?_eq_getLast_of_ne_nil nonempty, Option.mem_some] at last
    simpa [last] using stop

/-- Trimming puts no character into a text. -/
theorem mem_of_mem_trim {c : Char} (member : c ∈ trim text) : c ∈ text := by
  have back := (List.dropWhile_sublist _).subset (List.mem_reverse.1 member)
  exact (List.dropWhile_sublist _).subset (List.mem_reverse.1 back)

/-! ## Lines -/

/-- A text without a newline in front of a newline is the line before it. -/
theorem lines_append {line : List Char} (free : '\n' ∉ line) (text : List Char) :
    lines (line ++ '\n' :: text) = line :: lines text := by
  induction line with
  | nil => exact lines_newline text
  | cons c line ih =>
    rw [List.mem_cons, not_or] at free
    have tail := ih free.2
    rw [lines] at tail ⊢
    rw [List.cons_append, List.foldr_cons, tail]
    simp [consLine, Ne.symm free.1]

/-- A text without a newline is one line, if it is not empty. -/
theorem lines_of_free {line : List Char} (free : '\n' ∉ line) (nonempty : line ≠ []) :
    lines line = [line] := by
  induction line with
  | nil => exact absurd rfl nonempty
  | cons c line ih =>
    rw [List.mem_cons, not_or] at free
    have tail : lines line = if line = [] then [] else [line] := by
      split
      · rename_i empty
        rw [empty]
        rfl
      · rename_i more
        exact ih free.2 more
    rw [lines] at tail ⊢
    rw [List.foldr_cons, tail]
    split
    · rename_i empty
      simp [consLine, Ne.symm free.1, empty]
    · simp [consLine, Ne.symm free.1]

/-- Lines with newlines between them are read back as those lines. -/
theorem lines_intercalate {parts : List (List Char)}
    (free : ∀ line ∈ parts, '\n' ∉ line ∧ line ≠ []) :
    lines (['\n'].intercalate parts) = parts := by
  induction parts with
  | nil => rfl
  | cons line rest ih =>
    obtain ⟨noNewline, nonempty⟩ := free line List.mem_cons_self
    have tail := ih fun other member => free other (List.mem_cons_of_mem _ member)
    cases rest with
    | nil => rw [List.intercalate_singleton, lines_of_free noNewline nonempty]
    | cons second rest =>
      rw [List.intercalate_cons_cons, List.append_assoc, List.singleton_append,
        lines_append noNewline, tail]

/-- Only the empty text has no line. -/
theorem lines_ne_nil (c : Char) (text : List Char) : lines (c :: text) ≠ [] := by
  simp only [lines, List.foldr_cons, consLine]
  split
  · exact List.cons_ne_nil _ _
  · split <;> exact List.cons_ne_nil _ _

/-- A newline between two texts keeps their lines; if the first one has no open line, there is an
empty line between them. -/
theorem lines_append_newline (front back : List Char) :
    ∃ gap, (∀ line ∈ gap, line = []) ∧
      lines (front ++ '\n' :: back) = lines front ++ (gap ++ lines back) := by
  induction front with
  | nil => exact ⟨[[]], by simp, lines_newline back⟩
  | cons c front ih =>
    have step (text : List Char) : lines (c :: text) = consLine c (lines text) := rfl
    obtain ⟨gap, empty, tail⟩ := ih
    by_cases newline : c = '\n'
    · refine ⟨gap, empty, ?_⟩
      rw [List.cons_append, step, tail, step, newline]
      simp [consLine]
    · cases front with
      | nil =>
        refine ⟨[], by simp, ?_⟩
        rw [List.cons_append, step, List.nil_append, lines_newline]
        simp [consLine, newline, lines]
      | cons d front =>
        obtain ⟨line, rest, first⟩ := List.exists_cons_of_ne_nil (lines_ne_nil d front)
        refine ⟨gap, empty, ?_⟩
        rw [List.cons_append, step, tail, step, first]
        simp [consLine, newline]

/-- A character in front of a text goes into its first line. -/
theorem lines_cons {c : Char} (other : c ≠ '\n') {first : List Char} {others : List (List Char)}
    (split : lines text = first :: others) : lines (c :: text) = (c :: first) :: others := by
  change consLine c (lines text) = _
  rw [split]
  simp [consLine, other]

/-- A text in front of another one has its own lines, the last of which goes on with the first line
of the other one. -/
theorem exists_lines_append (before : List Char) :
    ∃ done last, ∀ {text first : List Char} {rest : List (List Char)},
      lines text = first :: rest → lines (before ++ text) = done ++ (last ++ first) :: rest := by
  induction before with
  | nil => exact ⟨[], [], fun split => split⟩
  | cons c before ih =>
    obtain ⟨done, last, front⟩ := ih
    by_cases newline : c = '\n'
    · refine ⟨[] :: done, last, fun split => ?_⟩
      rw [newline, List.cons_append, lines_newline, front split, List.cons_append]
    · cases done with
      | nil =>
        exact ⟨[], c :: last, fun split => lines_cons newline (front split)⟩
      | cons head done =>
        exact ⟨(c :: head) :: done, last, fun split => lines_cons newline (front split)⟩

/-- A line has no newline. -/
theorem newline_notMem {line : List Char} (member : line ∈ lines text) : '\n' ∉ line := by
  induction text generalizing line with
  | nil => contradiction
  | cons c text ih =>
    change line ∈ consLine c (lines text) at member
    simp only [consLine] at member
    split at member
    · obtain rfl | later := List.mem_cons.1 member
      · exact List.not_mem_nil
      · exact ih later
    · rename_i other
      split at member
      · obtain rfl := List.mem_singleton.1 member
        simpa using Ne.symm other
      · rename_i first rest whole
        rw [whole] at ih
        obtain rfl | later := List.mem_cons.1 member
        · simpa [Ne.symm other] using ih List.mem_cons_self
        · exact ih (List.mem_cons_of_mem _ later)

/-- Lines with a newline after each of them are read back. -/
theorem lines_unlines {parts : List (List Char)} (free : ∀ line ∈ parts, '\n' ∉ line) :
    lines (unlines parts) = parts := by
  induction parts with
  | nil => rfl
  | cons line rest ih =>
    obtain ⟨first, others⟩ := List.forall_mem_cons.1 free
    have whole : unlines (line :: rest) = line ++ '\n' :: unlines rest := by simp [unlines]
    rw [whole, lines_append first, ih others]

end DirectionCentral.Text

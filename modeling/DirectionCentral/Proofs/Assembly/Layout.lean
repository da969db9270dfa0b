import Mathlib.Data.List.Forall2
import Mathlib.Tactic.Ring
import DirectionCentral.Image
import DirectionCentral.Proofs.Assembly.Notation

/-!
# The layout of a program

What the lines of a program denote, without drafts or open references. `ORG` divides a program into
runs; the words of a run follow one another from the operand of its `ORG` on. A label is the address
of the next word where it is defined, before or after it is used. The main fact here is that the
address of a line's word is the same by its run and by counting (`Layout.run_of_emits`).
-/

namespace DirectionCentral.Assembly

namespace Line

/-- Whether a line puts down a word. -/
def emits (line : Line) : Bool :=
  match line.directive? with
  | some (.data _) | some (.instruction ..) => true
  | _ => false

/-- The operand of a line with `ORG`. -/
def origin? (line : Line) : Option Int :=
  match line.directive? with
  | some (.origin address) => some address
  | _ => none

/-- A line that opens a segment puts down no word. -/
theorem emits_of_origin {line : Line} {address : Int} (origin : line.origin? = some address) :
    line.emits = false := by
  obtain ⟨label?, _ | _ | _ | _⟩ := line <;> first | rfl | contradiction

end Line

/-! ## What a word denotes -/

/-- What an operand comes to where labels have the given addresses. -/
inductive OperandValue (addressOf : String → Int → Prop) : Operand → Int → Prop
  | number (value : Int) : OperandValue addressOf (.number value) value
  /-- A reference is the address of its label plus the offset. -/
  | reference {r : Reference} {address : Int} (found : addressOf r.label address) :
      OperandValue addressOf (.reference r) (address + r.offset)

/-- What an argument comes to. -/
inductive ArgumentValue (addressOf : String → Int → Prop) : Argument → Int → Prop
  | none : ArgumentValue addressOf .none 0
  | operand {o : Operand} {value : Int} (comes : OperandValue addressOf o value) :
      ArgumentValue addressOf (.operand o) value
  /-- Two numbers are the high and the low byte. -/
  | counts {increment limit : Int} (high : 0 ≤ increment ∧ increment ≤ 255)
      (low : 0 ≤ limit ∧ limit ≤ 255) :
      ArgumentValue addressOf (.counts increment limit) (256 * increment + limit)

/-- A word is what a directive puts down. -/
inductive WordDenotes (addressOf : String → Int → Prop) (word : Word) : Directive → Prop
  /-- A word of data holds the low 32 bits of its operand. -/
  | data {o : Operand} {value : Int} (operand : OperandValue addressOf o value)
      (low : (word.toNat : Int) = value % 2 ^ 32) : WordDenotes addressOf word (.data o)
  /-- An instruction holds its operation, its index flag and its whole argument, and zero in bits 16
  and 18 to 23. -/
  | instruction {op : Operation} {a : Argument} {indexed : Bool} {value : Int}
      (argument : ArgumentValue addressOf a value) (fits : 0 ≤ value ∧ value ≤ 65535)
      (operation : (Instruction.decode word).operation? = some op)
      (address : ((Instruction.decode word).address.toNat : Int) = value)
      (index : (Instruction.decode word).indexed = indexed)
      (unused : word &&& 0x00FD0000 = 0) :
      WordDenotes addressOf word (.instruction op a indexed)

/-- A word is what a line puts down. -/
def LineDenotes (addressOf : String → Int → Prop) (line : Line) (word : Word) : Prop :=
  ∃ d, line.directive? = some d ∧ WordDenotes addressOf word d

/-- More addresses only add to what operands come to. -/
theorem OperandValue.mono {less more : String → Int → Prop} {o : Operand} {value : Int}
    (subset : ∀ label address, less label address → more label address)
    (comes : OperandValue less o value) : OperandValue more o value := by
  cases comes with
  | number => exact .number _
  | reference found => exact .reference (subset _ _ found)

/-- More addresses only add to what words denote. -/
theorem LineDenotes.mono {less more : String → Int → Prop} {line : Line} {word : Word}
    (subset : ∀ label address, less label address → more label address)
    (denotes : LineDenotes less line word) : LineDenotes more line word := by
  obtain ⟨d, directive, denotes⟩ := denotes
  refine ⟨d, directive, ?_⟩
  cases denotes with
  | data operand low => exact .data (operand.mono subset) low
  | instruction argument fits operation address index unused =>
    refine .instruction ?_ fits operation address index unused
    cases argument with
    | none => exact .none
    | operand comes => exact .operand (comes.mono subset)
    | counts high low => exact .counts high low

/-- An operand comes to one value, if labels have one address each. -/
theorem OperandValue.unique {addressOf : String → Int → Prop} {o : Operand}
    {value value' : Int}
    (single : ∀ label address address', addressOf label address → addressOf label address' →
      address = address')
    (one : OperandValue addressOf o value) (other : OperandValue addressOf o value') :
    value = value' := by
  cases one with
  | number => cases other; rfl
  | reference found =>
    cases other with
    | reference found' => rw [single _ _ _ found found']

/-- An argument comes to one value, if labels have one address each. -/
theorem ArgumentValue.unique {addressOf : String → Int → Prop} {a : Argument}
    {value value' : Int}
    (single : ∀ label address address', addressOf label address → addressOf label address' →
      address = address')
    (one : ArgumentValue addressOf a value) (other : ArgumentValue addressOf a value') :
    value = value' := by
  cases one with
  | none => cases other; rfl
  | operand comes =>
    cases other with
    | operand comes' => exact comes.unique single comes'
  | counts => cases other; rfl

namespace Layout

/-! ## Addresses -/

/-- The operand of the last `ORG`; zero if there is none. -/
def lastOrigin (before : List Line) : Int := (before.filterMap Line.origin?).getLastD 0

/-- How many words were put down since the last `ORG`. -/
def emittedSince (before : List Line) : Nat :=
  (before.reverse.takeWhile (·.origin?.isNone)).countP Line.emits

/-- The address of the next word after some lines. -/
def nextAddress (before : List Line) : Int := lastOrigin before + emittedSince before

/-- A program gives a label the address of the next word where it defines the label. -/
def LabelAt (program : List Line) (label : String) (address : Int) : Prop :=
  ∃ before line after, program = before ++ line :: after ∧ line.label? = some label ∧
    address = nextAddress before

/-- The labels that a program defines, in order. -/
def labels (program : List Line) : List String := program.filterMap Line.label?

/-- A line with `ORG` sets the next address. -/
theorem nextAddress_origin (before : List Line) {line : Line} {address : Int}
    (origin : line.origin? = some address) : nextAddress (before ++ [line]) = address := by
  simp [nextAddress, lastOrigin, emittedSince, origin]

/-- Another line counts if it puts down a word. -/
theorem nextAddress_other (before : List Line) {line : Line} (origin : line.origin? = none) :
    nextAddress (before ++ [line]) = nextAddress before + if line.emits then 1 else 0 := by
  have last : lastOrigin (before ++ [line]) = lastOrigin before := by
    simp [lastOrigin, origin]
  have since : emittedSince (before ++ [line]) =
      emittedSince before + if line.emits then 1 else 0 := by
    simp [emittedSince, origin, List.countP_cons]
  rw [nextAddress, nextAddress, last, since]
  split <;> push_cast <;> ring

/-- A label keeps its address when lines are added. -/
theorem LabelAt.append {program : List Line} {label : String} {address : Int}
    (found : LabelAt program label address) (more : List Line) :
    LabelAt (program ++ more) label address := by
  obtain ⟨before, line, after, rfl, defines, rfl⟩ := found
  exact ⟨before, line, after ++ more, by simp, defines, rfl⟩

/-- A label that has an address is defined. -/
theorem LabelAt.mem_labels {program : List Line} {label : String} {address : Int}
    (found : LabelAt program label address) : label ∈ labels program := by
  obtain ⟨before, line, after, rfl, defines, -⟩ := found
  exact List.mem_filterMap.2 ⟨line, by simp, defines⟩

/-- A label that is defined once has one address. -/
theorem LabelAt.unique {program : List Line} {label : String} {address address' : Int}
    (distinct : (labels program).Nodup) (one : LabelAt program label address)
    (other : LabelAt program label address') : address = address' := by
  have once : ∀ {first second after : List Line} {line line' : Line},
      (labels (first ++ line :: (second ++ line' :: after))).Nodup →
      line.label? = some label → line'.label? ≠ some label := by
    intro first second after line line' distinct defines defines'
    simp [labels, defines, defines', List.nodup_append] at distinct
  obtain ⟨before, line, after, rfl, defines, rfl⟩ := one
  obtain ⟨before', line', after', whole, defines', rfl⟩ := other
  obtain ⟨between, longer, rest⟩ | ⟨between, longer, rest⟩ := List.append_eq_append_iff.1 whole
  · cases between with
    | nil => rw [longer, List.append_nil]
    | cons first between =>
      obtain ⟨rfl, rfl⟩ := List.cons.inj rest
      exact absurd defines' (once distinct defines)
  · cases between with
    | nil => rw [longer, List.append_nil]
    | cons first between =>
      obtain ⟨rfl, rfl⟩ := List.cons.inj rest
      rw [whole] at distinct
      exact absurd defines (once distinct defines')

/-! ## Runs -/

/-- The lines from one `ORG` to the next. -/
structure Run where
  /-- The address of the first word. -/
  start : Int
  /-- The lines, without those with `ORG`. -/
  lines : List Line

/-- The lines of a run that put down a word. -/
def Run.emitting (run : Run) : List Line := run.lines.filter Line.emits

/-- The runs of some lines, the first of which starts at an address. -/
def runsFrom (start : Int) : List Line → List Run
  | [] => [⟨start, []⟩]
  | line :: rest =>
    match line.origin? with
    | some address => ⟨start, []⟩ :: runsFrom address rest
    | none => (runsFrom start rest).modifyHead fun run => ⟨start, line :: run.lines⟩

/-- The runs of a program; the first one starts at zero. -/
def runs (program : List Line) : List Run := runsFrom 0 program

/-- The runs that put down a word. -/
def filledRuns (program : List Line) : List Run := (runs program).filter (!·.emitting.isEmpty)

/-- The first of the runs starts where they start. -/
theorem runsFrom_eq_cons (start : Int) (program : List Line) :
    ∃ lines rest, runsFrom start program = ⟨start, lines⟩ :: rest := by
  cases program with
  | nil => exact ⟨_, _, rfl⟩
  | cons line rest =>
    rw [runsFrom]
    split
    · exact ⟨_, _, rfl⟩
    · obtain ⟨lines, others, shape⟩ := runsFrom_eq_cons start rest
      exact ⟨line :: lines, others, by rw [shape]; rfl⟩

/-- There is a last run. -/
theorem exists_last_run (start : Int) (program : List Line) :
    ∃ closed last, runsFrom start program = closed ++ [last] := by
  obtain ⟨lines, rest, shape⟩ := runsFrom_eq_cons start program
  have nonempty : runsFrom start program ≠ [] := by simp [shape]
  exact ⟨_, _, (List.dropLast_append_getLast nonempty).symm⟩

/-- Put lines in front of the first run. -/
def Run.join (run : Run) (more : List Run) : List Run :=
  more.modifyHead fun first => ⟨run.start, run.lines ++ first.lines⟩

/-- More lines go on with the last run. -/
theorem runsFrom_append {start : Int} {program : List Line} {closed : List Run} {last : Run}
    (shape : runsFrom start program = closed ++ [last]) (more : List Line) :
    runsFrom start (program ++ more) = closed ++ last.join (runsFrom last.start more) := by
  induction program generalizing start closed last with
  | nil =>
    obtain ⟨lines, rest, first⟩ := runsFrom_eq_cons start more
    have single : closed ++ [last] = [] ++ [⟨start, []⟩] := shape.symm
    obtain ⟨rfl, rfl⟩ := List.append_singleton_inj.1 single
    rw [List.nil_append, first]
    rfl
  | cons line rest ih =>
    rw [runsFrom] at shape
    rw [List.cons_append, runsFrom]
    split at shape
    · rename_i address origin
      obtain ⟨closed', last', shape'⟩ := exists_last_run address rest
      have longer : closed ++ [last] = (⟨start, []⟩ :: closed') ++ [last'] := by
        rw [← shape, shape', List.cons_append]
      obtain ⟨rfl, rfl⟩ := List.append_singleton_inj.1 longer
      simp only [ih shape', List.cons_append]
    · rename_i origin
      obtain ⟨closed', last', shape'⟩ := exists_last_run start rest
      simp only [ih shape']
      rw [shape'] at shape
      cases closed' with
      | nil =>
        obtain ⟨lines, others, first⟩ := runsFrom_eq_cons start rest
        have start' : last'.start = start := by
          rw [shape'] at first
          rw [(List.cons.inj first).1]
        have single : closed ++ [last] = [] ++ [⟨start, line :: last'.lines⟩] := shape.symm
        obtain ⟨rfl, rfl⟩ := List.append_singleton_inj.1 single
        obtain ⟨lines, others, first⟩ := runsFrom_eq_cons start more
        simp [Run.join, start', first]
      | cons first closed' =>
        have longer : closed ++ [last] = (⟨start, line :: first.lines⟩ :: closed') ++ [last'] :=
          shape.symm
        obtain ⟨rfl, rfl⟩ := List.append_singleton_inj.1 longer
        rfl

/-- A line with `ORG` at the end begins a run. -/
theorem runs_origin {program : List Line} {line : Line} {address : Int}
    (origin : line.origin? = some address) :
    runs (program ++ [line]) = runs program ++ [⟨address, []⟩] := by
  obtain ⟨closed, last, shape⟩ := exists_last_run 0 program
  rw [runs, runs, runsFrom_append shape, shape]
  simp [runsFrom, origin, Run.join]

/-- Another line at the end joins the last run. -/
theorem runs_other {program : List Line} {line : Line} {closed : List Run} {last : Run}
    (origin : line.origin? = none) (shape : runs program = closed ++ [last]) :
    runs (program ++ [line]) = closed ++ [⟨last.start, last.lines ++ [line]⟩] := by
  rw [runs, runsFrom_append shape]
  simp [runsFrom, origin, Run.join]

/-- The next word goes after those of the last run. -/
theorem nextAddress_eq {program : List Line} {closed : List Run} {last : Run}
    (shape : runs program = closed ++ [last]) :
    nextAddress program = last.start + last.emitting.length := by
  induction program using List.reverseRecOn generalizing closed last with
  | nil =>
    have single : closed ++ [last] = [] ++ [⟨0, []⟩] := shape.symm
    obtain ⟨-, rfl⟩ := List.append_singleton_inj.1 single
    rfl
  | append_singleton program line ih =>
    obtain ⟨closed', last', shape'⟩ := exists_last_run 0 program
    cases origin : line.origin? with
    | some address =>
      rw [runs_origin origin] at shape
      obtain ⟨-, rfl⟩ := List.append_singleton_inj.1 shape
      rw [nextAddress_origin program origin]
      simp [Run.emitting]
    | none =>
      rw [runs_other origin shape'] at shape
      obtain ⟨-, rfl⟩ := List.append_singleton_inj.1 shape
      rw [nextAddress_other program origin, ih shape']
      cases emits : line.emits <;> simp [Run.emitting, emits, add_assoc]

/-- The word of a line stands in a run at the address that counting gives it. -/
theorem run_of_emits (before : List Line) (line : Line) (after : List Line)
    (emits : line.emits = true) :
    ∃ run ∈ filledRuns (before ++ line :: after), ∃ k : Nat, run.emitting[k]? = some line ∧
      run.start + k = nextAddress before := by
  obtain ⟨closed, last, shape⟩ := exists_last_run 0 before
  have origin : line.origin? = none := by
    cases h : line.origin? with
    | none => rfl
    | some address => simp [Line.emits_of_origin h] at emits
  obtain ⟨lines, rest, first⟩ := runsFrom_eq_cons last.start after
  let run : Run := ⟨last.start, last.lines ++ line :: lines⟩
  have found : run.emitting[last.emitting.length]? = some line := by
    simp [run, Run.emitting, emits]
  have whole : runs (before ++ line :: after) = closed ++ run :: rest := by
    rw [runs, runsFrom_append shape, runsFrom, origin]
    simp [Run.join, first, run]
  refine ⟨run, ?_, last.emitting.length, found, (nextAddress_eq shape).symm⟩
  rw [filledRuns, whole, List.mem_filter]
  refine ⟨by simp, ?_⟩
  cases h : run.emitting with
  | nil => simp [h] at found
  | cons => rfl

/-- The lines of the runs that put down a word are those of the program. -/
theorem flatMap_emitting_runsFrom (start : Int) (program : List Line) :
    (runsFrom start program).flatMap Run.emitting = program.filter Line.emits := by
  induction program generalizing start with
  | nil => rfl
  | cons line rest ih =>
    rw [runsFrom]
    split
    · rename_i address origin
      rw [List.flatMap_cons, ih, List.filter_cons_of_neg (by simp [Line.emits_of_origin origin])]
      rfl
    · obtain ⟨lines, others, shape⟩ := runsFrom_eq_cons start rest
      have tail := ih start
      rw [shape, List.flatMap_cons] at tail
      rw [shape, List.modifyHead_cons, List.flatMap_cons]
      cases emits : line.emits <;> simp [Run.emitting, emits, ← tail]

/-- The words of the segments are those of the program, in order. -/
theorem flatMap_emitting_filledRuns (program : List Line) :
    (filledRuns program).flatMap Run.emitting = program.filter Line.emits := by
  rw [← flatMap_emitting_runsFrom 0 program, filledRuns, runs]
  induction runsFrom 0 program with
  | nil => rfl
  | cons run rest ih =>
    rw [List.flatMap_cons, ← ih]
    cases empty : run.emitting with
    | nil => simp [empty]
    | cons line lines => simp [empty]

end Layout
end DirectionCentral.Assembly

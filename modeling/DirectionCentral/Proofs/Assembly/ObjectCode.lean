import Mathlib.Data.List.Basic
import DirectionCentral.Proofs.Assembly.Notes

/-!
# Object code

Assembly with the notes kept apart from the words. The first pass puts down words in segments, and
for a word that waits for a label it notes the position of the next word before it puts that word
down (`ObjectCode.place`). The second pass goes through these fixups in order, looks for the word at
each position and fills it in (`ObjectCode.resolve`); it stops if there is no word.

Every statement keeps the fixups in the order of their positions, each at the word that its
statement has put down (`WellPlaced.place`), hence they are so after all statements
(`wellPlaced_ofStatements`). So the second pass finds a word at each fixup
(`WellPlaced.resolve_ne_outside`), and it changes the words of the fixups alone
(`WellPlaced.filledIn`), of instructions only the address (`testBit_fill_address`).
-/

namespace DirectionCentral.Assembly

/-! ## Positions -/

/-- Where a word stands: the number of its segment and its own number there, both from zero. -/
structure Position where
  /-- The number of the segment. -/
  segment : Nat
  /-- The number of words before it in the segment. -/
  offset : Nat
deriving DecidableEq

namespace Position

/-- A position is in an earlier segment than another one, or earlier in the same segment. -/
def Before (p q : Position) : Prop :=
  p.segment < q.segment ∨ p.segment = q.segment ∧ p.offset < q.offset

/-- The word at a position. -/
def word? (p : Position) (segments : List Segment) : Option Word :=
  segments[p.segment]?.bind (·.words[p.offset]?)

/-- Put a word in the place of the one at a position. -/
def put (p : Position) (word : Word) (segments : List Segment) : List Segment :=
  segments.modify p.segment fun s => { s with words := s.words.set p.offset word }

variable {p q : Position} {segments : List Segment} {word old : Word}

/-- A position is not before itself. -/
theorem Before.ne (before : p.Before q) : p ≠ q := by
  rintro rfl
  obtain less | ⟨-, less⟩ := before
  · exact Nat.lt_irrefl _ less
  · exact Nat.lt_irrefl _ less

/-- A position with a word is in one of the segments. -/
theorem lt_of_word? (inside : p.word? segments = some word) : p.segment < segments.length := by
  obtain ⟨s, found, -⟩ := Option.bind_eq_some_iff.1 inside
  exact (List.getElem?_eq_some_iff.1 found).1

/-- More segments leave a word where it is. -/
theorem word?_append (inside : p.word? segments = some word) (more : List Segment) :
    p.word? (segments ++ more) = some word := by
  rwa [word?, List.getElem?_append_left (lt_of_word? inside)]

/-- A word that was put at a position is there. -/
theorem word?_put_self (inside : p.word? segments = some old) :
    p.word? (p.put word segments) = some word := by
  obtain ⟨s, found, stands⟩ := Option.bind_eq_some_iff.1 inside
  obtain ⟨bound, -⟩ := List.getElem?_eq_some_iff.1 stands
  rw [word?, put, List.getElem?_modify_eq, found]
  exact List.getElem?_set_self bound

/-- A word that was put at a position changes no word elsewhere. -/
theorem word?_put_of_ne (other : p ≠ q) : q.word? (p.put word segments) = q.word? segments := by
  rw [word?, put, word?, List.getElem?_modify]
  by_cases same : p.segment = q.segment
  · have apart : p.offset ≠ q.offset := fun offset => other (by
      obtain ⟨_, _⟩ := p
      obtain ⟨_, _⟩ := q
      exact congrArg₂ Position.mk same offset)
    cases segments[q.segment]? with
    | none => simp
    | some s => simp [same, List.getElem?_set_ne apart]
  · simp [same]

end Position

/-- Where segments start and how many words they have. -/
def outline (segments : List Segment) : List (UInt64 × Nat) :=
  segments.map fun s => (s.start, s.words.length)

/-- Putting a word in the place of another one changes no segment otherwise. -/
theorem outline_put (p : Position) (word : Word) (segments : List Segment) :
    outline (p.put word segments) = outline segments := by
  apply List.ext_getElem?
  intro k
  rw [outline, outline, List.getElem?_map, List.getElem?_map, Position.put, List.getElem?_modify]
  cases segments[k]? with
  | none => rfl
  | some s => by_cases same : p.segment = k <;> simp [same]

/-! ## The first pass -/

/-- What is to be filled in at a position. -/
structure Fixup where
  /-- The position of the word. -/
  position : Position
  /-- The reference, the part of the word that it fills, and the line. -/
  note : Pending
deriving DecidableEq

/-- Segments of words, with what is still to be filled in. -/
structure ObjectCode where
  /-- The segments that are finished, in order. -/
  closed : List Segment := []
  /-- The segment that is still open. -/
  current : Segment := ⟨0, []⟩
  /-- What is to be filled in, in the order in which it was noted. -/
  fixups : List Fixup := []
deriving DecidableEq

namespace ObjectCode

/-- The segments in order. -/
def segments (code : ObjectCode) : List Segment := code.closed ++ [code.current]

/-- The position of the next word. -/
def next (code : ObjectCode) : Position := ⟨code.closed.length, code.current.words.length⟩

/-- Note what is to be filled into the next word. -/
def defer (code : ObjectCode) (note : Pending) : ObjectCode :=
  { code with fixups := code.fixups ++ [⟨code.next, note⟩] }

/-- Put down a word. -/
def emit (code : ObjectCode) (word : Word) : ObjectCode :=
  { code with current := { code.current with words := code.current.words ++ [word] } }

/-- Close the open segment and open one at an address. -/
def openSegment (code : ObjectCode) (start : UInt16) : ObjectCode :=
  { code with closed := code.closed ++ [code.current], current := ⟨start.toUInt64, []⟩ }

/-- Do what a statement on a line says. -/
def place (code : ObjectCode) (line : Nat) : Statement → ObjectCode
  | .origin start => code.openSegment start
  | .data value => code.emit (UInt32.ofInt value)
  | .dataReference reference => (code.defer ⟨reference, .word, line⟩).emit 0
  | .instruction op address indexed =>
    code.emit (Instruction.encodeOperation op address.toUInt32 indexed)
  | .instructionReference op reference indexed =>
    (code.defer ⟨reference, .address, line⟩).emit (Instruction.encodeOperation op 0 indexed)

/-- The object code of statements with the numbers of their lines. -/
def ofStatements (placed : List (Nat × Statement)) : ObjectCode :=
  placed.foldl (fun code entry => code.place entry.1 entry.2) {}

variable {code : ObjectCode} {p : Position} {word : Word}

/-- A word that is put down is at the position that was the next one. -/
theorem word?_next_emit (code : ObjectCode) (word : Word) :
    code.next.word? (code.emit word).segments = some word := by
  simp [next, Position.word?, segments, emit]

/-- A position with a word is in a finished segment, or it is in the open one. -/
theorem closed_or_current (inside : p.word? code.segments = some word) :
    p.word? code.closed = some word ∨
      p.segment = code.closed.length ∧ code.current.words[p.offset]? = some word := by
  have last := Position.lt_of_word? inside
  rw [segments, List.length_append, List.length_singleton] at last
  obtain less | same := Nat.lt_or_eq_of_le (Nat.le_of_lt_succ last)
  · rw [Position.word?, segments, List.getElem?_append_left less] at inside
    exact .inl inside
  · rw [Position.word?, segments, same, List.getElem?_concat_length] at inside
    exact .inr ⟨same, inside⟩

/-- A position with a word is before that of the next word. -/
theorem before_next (inside : p.word? code.segments = some word) : p.Before code.next := by
  obtain finished | ⟨same, stands⟩ := closed_or_current inside
  · exact .inl (Position.lt_of_word? finished)
  · exact .inr ⟨same, (List.getElem?_eq_some_iff.1 stands).1⟩

/-- A word stays where it is when another one is put down. -/
theorem word?_emit (inside : p.word? code.segments = some word) (new : Word) :
    p.word? (code.emit new).segments = some word := by
  obtain finished | ⟨same, stands⟩ := closed_or_current inside
  · exact Position.word?_append finished _
  · have bound := (List.getElem?_eq_some_iff.1 stands).1
    rw [Position.word?, segments, emit, same, List.getElem?_concat_length, Option.bind_some,
      List.getElem?_append_left bound, stands]

/-- A word stays where it is when a segment is opened. -/
theorem word?_openSegment (inside : p.word? code.segments = some word) (start : UInt16) :
    p.word? (code.openSegment start).segments = some word :=
  Position.word?_append inside _

/-! ## Fixups at their words -/

/-- A statement waits for a reference that fills a part of a word, in which that part is zero. -/
inductive Waits : Statement → Reference → Field → Word → Prop
  /-- Data waits for a whole word. -/
  | data (r : Reference) : Waits (.dataReference r) r .word 0
  /-- An instruction with its operation and its index flag waits for the address. -/
  | instruction (op : Operation) (r : Reference) (indexed : Bool) :
      Waits (.instructionReference op r indexed) r .address
        (Instruction.encodeOperation op 0 indexed)

/-- A fixup stands at the word that a statement with its line number has put down, after those of
the statements before. -/
def Stands (placed : List (Nat × Statement)) (code : ObjectCode) (f : Fixup) : Prop :=
  ∃ front s back word, placed = front ++ (f.note.line, s) :: back ∧
    f.position = (ofStatements front).next ∧ Waits s f.note.reference f.note.field word ∧
    f.position.word? code.segments = some word

/-- The fixups of object code stand at words that statements have put down, in their order. -/
structure WellPlaced (placed : List (Nat × Statement)) (code : ObjectCode) : Prop where
  /-- The positions increase. -/
  increasing : code.fixups.Pairwise (·.position.Before ·.position)
  /-- At each position is the word of a statement. -/
  standing : ∀ f ∈ code.fixups, Stands placed code f

variable {placed : List (Nat × Statement)} {line : Nat} {s : Statement}

/-- Object code has every word of other object code where that has it. -/
def Keeps (code code' : ObjectCode) : Prop :=
  ∀ {p word}, Position.word? p code.segments = some word → p.word? code'.segments = some word

/-- A fixup stays at its word where the words stay. -/
theorem Stands.stay {code' : ObjectCode} {more : List (Nat × Statement)} {f : Fixup}
    (stands : Stands placed code f) (keeps : Keeps code code') :
    Stands (placed ++ more) code' f := by
  obtain ⟨front, s, back, word, rfl, position, waits, here⟩ := stands
  exact ⟨front, s, back ++ more, word, List.append_assoc .., position, waits, keeps here⟩

namespace WellPlaced

/-- Fixups stay at their words where the words stay. -/
theorem stay {code' : ObjectCode} {more : List (Nat × Statement)} (well : WellPlaced placed code)
    (fixups : code'.fixups = code.fixups) (keeps : Keeps code code') :
    WellPlaced (placed ++ more) code' where
  increasing := fixups ▸ well.increasing
  standing f member := (well.standing f (fixups ▸ member)).stay keeps

/-- A fixup that is noted before its word is put down stands at the word, after all others. -/
theorem defer {r : Reference} {field : Field} (well : WellPlaced placed (ofStatements placed))
    (waits : Waits s r field word) :
    WellPlaced (placed ++ [(line, s)])
      (((ofStatements placed).defer ⟨r, field, line⟩).emit word) where
  increasing := by
    -- The words of the other fixups are there already, and the next word comes after them.
    refine List.pairwise_append.2 ⟨well.increasing, List.pairwise_singleton _ _, ?_⟩
    intro f member g last
    obtain ⟨-, -, -, _, -, -, -, stands⟩ := well.standing f member
    obtain rfl := List.mem_singleton.1 last
    exact before_next stands
  standing f member := by
    obtain earlier | last := List.mem_append.1 member
    · exact (well.standing f earlier).stay fun inside => word?_emit inside word
    · obtain rfl := List.mem_singleton.1 last
      exact ⟨placed, s, [], word, rfl, rfl, waits, word?_next_emit _ word⟩

/-- One more statement keeps every fixup at its word. -/
theorem place (well : WellPlaced placed (ofStatements placed)) (line : Nat) (s : Statement) :
    WellPlaced (placed ++ [(line, s)]) ((ofStatements placed).place line s) := by
  cases s with
  | origin start => exact well.stay rfl (fun inside => word?_openSegment inside start)
  | data value => exact well.stay rfl (fun inside => word?_emit inside _)
  | instruction op address indexed => exact well.stay rfl (fun inside => word?_emit inside _)
  | dataReference r => exact well.defer (.data r)
  | instructionReference op r indexed => exact well.defer (.instruction op r indexed)

end WellPlaced

/-- After any statements every fixup stands at its word. -/
theorem wellPlaced_ofStatements (placed : List (Nat × Statement)) :
    WellPlaced placed (ofStatements placed) := by
  induction placed using List.reverseRecOn with
  | nil => exact ⟨List.Pairwise.nil, fun _ member => by contradiction⟩
  | append_singleton placed entry ih =>
    rw [ofStatements, List.foldl_concat]
    exact ih.place entry.1 entry.2

end ObjectCode

/-! ## The second pass -/

/-- Why the second pass stops. -/
inductive Stop where
  /-- There is no word at the position of a fixup. -/
  | outside (position : Position)
  /-- The text is refused. -/
  | refused (e : Error)
deriving DecidableEq

/-- Fill in what a fixup says: resolve its reference, look for its word, and fill the value in. -/
def Fixup.fill (labels : List (String × Nat)) (segments : List Segment) (f : Fixup) :
    Except Stop (List Segment) :=
  match f.note.reference.resolve labels with
  | .error fault => .error (.refused ⟨f.note.line, fault⟩)
  | .ok value =>
    match f.position.word? segments with
    | none => .error (.outside f.position)
    | some word =>
      match f.note.field.fill word value with
      | .error fault => .error (.refused ⟨f.note.line, fault⟩)
      | .ok filled => .ok (f.position.put filled segments)

/-- The segments of object code after its fixups are filled in, one after the other. -/
def ObjectCode.resolve (code : ObjectCode) (labels : List (String × Nat)) :
    Except Stop (List Segment) :=
  code.fixups.foldlM (Fixup.fill labels) code.segments

/-- The image of object code: the segments that have words, after the second pass. -/
def ObjectCode.image (code : ObjectCode) (labels : List (String × Nat)) : Except Stop Image :=
  (code.resolve labels).map fun segments => ⟨segments.filter (!·.words.isEmpty)⟩

variable {labels : List (String × Nat)} {fixups : List Fixup} {before after : List Segment}
  {f : Fixup}

/-- Every fixup is at the position of a word. -/
def Inside (fixups : List Fixup) (segments : List Segment) : Prop :=
  ∀ f ∈ fixups, ∃ word, f.position.word? segments = some word

/-- A fixup at the position of a word fails for its note alone. -/
theorem error?_fill_fixup {word : Word} (inside : f.position.word? before = some word) :
    error? (f.fill labels before) = (f.note.error? labels).map .refused := by
  rw [Fixup.fill, Pending.error?, Reference.fault?, inside]
  cases f.note.reference.resolve labels with
  | error fault => rfl
  | ok value =>
    have same := error?_fill f.note.field word value
    dsimp only [Except.bind]
    rw [← same]
    cases f.note.field.fill word value <;> rfl

/-- A fixup that does not fail puts what is filled in at its position. -/
theorem exists_filled (filled : f.fill labels before = .ok after) :
    ∃ word value new, f.position.word? before = some word ∧
      f.note.reference.resolve labels = .ok value ∧ f.note.field.fill word value = .ok new ∧
      after = f.position.put new before := by
  rw [Fixup.fill] at filled
  split at filled
  · contradiction
  · rename_i value resolved
    split at filled
    · contradiction
    · rename_i word stands
      split at filled
      · contradiction
      · rename_i new fits
        exact ⟨word, value, new, stands, resolved, fits, (Except.ok.inj filled).symm⟩

/-- Filling in a fixup leaves a word at every position that has one. -/
theorem Inside.fill (inside : Inside fixups before) (filled : f.fill labels before = .ok after) :
    Inside fixups after := by
  obtain ⟨word, value, new, stands, -, -, rfl⟩ := exists_filled filled
  intro g member
  by_cases same : f.position = g.position
  · exact ⟨new, same ▸ Position.word?_put_self stands⟩
  · obtain ⟨other, found⟩ := inside g member
    exact ⟨other, (Position.word?_put_of_ne same).trans found⟩

/-- Fixups at the positions of words fail for the first note that fails, and for nothing else. -/
theorem error?_foldlM_fill (inside : Inside fixups before) :
    error? (fixups.foldlM (Fixup.fill labels) before) =
      (fixups.findSome? (·.note.error? labels)).map .refused := by
  induction fixups generalizing before with
  | nil => rfl
  | cons f rest ih =>
    obtain ⟨⟨word, stands⟩, others⟩ := List.forall_mem_cons.1 inside
    have first : error? (f.fill labels before) = (f.note.error? labels).map .refused :=
      error?_fill_fixup stands
    rw [List.foldlM_cons, List.findSome?_cons]
    cases filled : f.fill labels before with
    | error stop =>
      rw [filled] at first
      obtain ⟨e, note, rfl⟩ := Option.map_eq_some_iff.1 first.symm
      rw [note]
      rfl
    | ok next =>
      rw [filled] at first
      rw [Option.map_eq_none_iff.1 first.symm]
      exact ih (Inside.fill others filled)

/-- What filling in fixups makes of segments: the words at the fixups are filled in, and nothing
else is changed. -/
structure FilledIn (labels : List (String × Nat)) (fixups : List Fixup)
    (before after : List Segment) : Prop where
  /-- The segments start where they did and have as many words. -/
  outline : outline after = outline before
  /-- A word without a fixup stays. -/
  kept : ∀ p : Position, (∀ f ∈ fixups, f.position ≠ p) → p.word? after = p.word? before
  /-- A word with a fixup is replaced by itself with the value of the reference filled in. -/
  filled : ∀ f ∈ fixups, ∃ word value new, f.position.word? before = some word ∧
    f.note.reference.resolve labels = .ok value ∧ f.note.field.fill word value = .ok new ∧
    f.position.word? after = some new

/-- Fixups at different positions that do not fail are filled in. -/
theorem filledIn_of_foldlM (distinct : fixups.Pairwise (·.position ≠ ·.position))
    (filled : fixups.foldlM (Fixup.fill labels) before = .ok after) :
    FilledIn labels fixups before after := by
  -- The first word is filled in at once and kept by the others, whose fixups are elsewhere.
  induction fixups generalizing before with
  | nil =>
    obtain rfl := Except.ok.inj filled
    exact ⟨rfl, fun _ _ => rfl, fun _ member => by contradiction⟩
  | cons f rest ih =>
    obtain ⟨apart, distinct⟩ := List.pairwise_cons.1 distinct
    rw [List.foldlM_cons] at filled
    obtain ⟨next, first, others⟩ := bind_eq_ok_iff.1 filled
    obtain ⟨word, value, new, stands, resolved, fits, rfl⟩ := exists_filled first
    have later := ih distinct others
    refine ⟨later.outline.trans (outline_put ..), fun p free => ?_, fun g member => ?_⟩
    · obtain ⟨other, free⟩ := List.forall_mem_cons.1 free
      exact (later.kept p free).trans (Position.word?_put_of_ne other)
    · obtain rfl | member := List.mem_cons.1 member
      · refine ⟨word, value, new, stands, resolved, fits, ?_⟩
        rw [later.kept _ fun f member => (apart f member).symm]
        exact Position.word?_put_self stands
      · obtain ⟨word, value, new, stands, filled⟩ := later.filled g member
        rw [Position.word?_put_of_ne (apart g member)] at stands
        exact ⟨word, value, new, stands, filled⟩

/-- An address that is filled into a word changes none of the bits from 16 on. -/
theorem testBit_fill_address {word new : Word} {value : Int}
    (fits : Field.address.fill word value = .ok new) {i : Nat} (high : 16 ≤ i) :
    new.toNat.testBit i = word.toNat.testBit i := by
  obtain ⟨address, -, rfl⟩ := map_eq_ok_iff.1 fits
  have short : address.toNat.testBit i = false :=
    Nat.testBit_lt_two_pow (Nat.lt_of_lt_of_le address.toNat_lt
      (Nat.pow_le_pow_right (by decide) high))
  rw [UInt32.toNat_or, UInt32.toNat_and, Nat.testBit_or, Nat.testBit_and, UInt16.toNat_toUInt32,
    short, Bool.or_false]
  by_cases bound : i < 32
  · have mask : ∀ i < 32, 16 ≤ i → (~~~Instruction.addressMask).toNat.testBit i = true := by decide
    rw [mask i bound high, Bool.and_true]
  · have small : word.toNat < 2 ^ i :=
      Nat.lt_of_lt_of_le word.toNat_lt (Nat.pow_le_pow_right (by decide) (Nat.le_of_not_lt bound))
    rw [Nat.testBit_lt_two_pow small, Bool.false_and]

namespace ObjectCode

variable {placed : List (Nat × Statement)} {code : ObjectCode}

/-- Fixups that stand at their words are at the positions of words. -/
theorem WellPlaced.inside (well : WellPlaced placed code) : Inside code.fixups code.segments := by
  intro f member
  obtain ⟨-, -, -, word, -, -, -, stands⟩ := well.standing f member
  exact ⟨word, stands⟩

/-- The second pass fails for the first note that fails, and for nothing else. -/
theorem WellPlaced.error?_resolve (well : WellPlaced placed code) (labels : List (String × Nat)) :
    error? (code.resolve labels) =
      (code.fixups.findSome? (·.note.error? labels)).map .refused :=
  error?_foldlM_fill well.inside

/-- The second pass finds a word at every fixup. -/
theorem WellPlaced.resolve_ne_outside (well : WellPlaced placed code)
    (labels : List (String × Nat)) (p : Position) : code.resolve labels ≠ .error (.outside p) := by
  intro stops
  have failing := well.error?_resolve labels
  rw [stops] at failing
  obtain ⟨e, -, same⟩ := Option.map_eq_some_iff.1 failing.symm
  contradiction

/-- The second pass fills in the words at the fixups if it does not fail. -/
theorem WellPlaced.filledIn (well : WellPlaced placed code)
    (resolved : code.resolve labels = .ok after) :
    FilledIn labels code.fixups code.segments after :=
  filledIn_of_foldlM (well.increasing.imp Position.Before.ne) resolved

end ObjectCode

end DirectionCentral.Assembly

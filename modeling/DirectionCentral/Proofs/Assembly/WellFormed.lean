import DirectionCentral.Proofs.Assembly.Reading
import DirectionCentral.Proofs.Assembly.Wording

/-!
# Well-formed programs

A program is well formed if it defines no label twice and every number and every reference in it
fits the field that it is for, at the addresses that the program itself gives its labels. Then there
is a statement to hold each directive (`Admissible.exists_realizes`). A text is longer than the
words that it puts down are many, so a text of less than 2 ^ 63 characters has no address, and a
well-formed program of that size no number, beyond a signed integer of 64 bits (`numbers_fit`).
-/

namespace DirectionCentral.Assembly

/-- What a directive asks for fits its field where labels have the given addresses. -/
inductive Admissible (addressOf : String → Int → Prop) : Directive → Prop
  /-- An origin is an address. -/
  | origin {address : Int} (inside : 0 ≤ address ∧ address ≤ 65535) :
      Admissible addressOf (.origin address)
  /-- A number is one of 32 bits, signed or not. -/
  | number {value : Int} (inside : -2 ^ 31 ≤ value ∧ value ≤ 2 ^ 32 - 1) :
      Admissible addressOf (.data (.number value))
  /-- A reference comes to a number of 32 bits without a sign. -/
  | reference {r : Reference} {value : Int} (comes : OperandValue addressOf (.reference r) value)
      (inside : 0 ≤ value ∧ value ≤ 2 ^ 32 - 1) : Admissible addressOf (.data (.reference r))
  /-- An argument comes to an address. -/
  | instruction {op : Operation} {a : Argument} {indexed : Bool} {value : Int}
      (comes : ArgumentValue addressOf a value) (inside : 0 ≤ value ∧ value ≤ 65535) :
      Admissible addressOf (.instruction op a indexed)

/-- A program is well formed. -/
structure WellFormed (program : List Line) : Prop where
  /-- No label is defined twice. -/
  distinct : (Layout.labels program).Nodup
  /-- Every directive fits its field, with the labels of the program at their addresses. -/
  admissible : ∀ line ∈ program, ∀ d, line.directive? = some d →
    Admissible (Layout.LabelAt program) d

variable {program : List Line} {text : List Char}

/-! ## Statements for directives -/

/-- A number that is an address is that of a word of 16 bits. -/
theorem exists_address {value : Int} (inside : 0 ≤ value ∧ value ≤ 65535) :
    ∃ address : UInt16, (address.toNat : Int) = value := by
  refine ⟨UInt16.ofNat value.toNat, ?_⟩
  rw [UInt16.toNat_ofNat']
  omega

/-- There is a statement to hold a directive that fits its field. -/
theorem Admissible.exists_realizes {addressOf : String → Int → Prop} {d : Directive}
    (admissible : Admissible addressOf d) : ∃ s, Realizes d s := by
  cases admissible with
  | origin inside =>
    obtain ⟨address, rfl⟩ := exists_address inside
    exact ⟨_, .origin address⟩
  | number inside => exact ⟨_, .data (by omega)⟩
  | reference => exact ⟨_, .dataReference _⟩
  | instruction comes inside =>
    obtain ⟨address, rfl⟩ := exists_address inside
    generalize same : (address.toNat : Int) = value at comes
    cases comes with
    | none => exact ⟨_, @Realizes.instruction _ _ _ address fun _ => same ▸ .none⟩
    | operand comes =>
      cases comes with
      | number =>
        exact ⟨_, @Realizes.instruction _ _ _ address fun _ => .operand (same ▸ .number _)⟩
      | reference => exact ⟨_, .instructionReference ..⟩
    | counts high low =>
      exact ⟨_, @Realizes.instruction _ _ _ address fun _ => same ▸ .counts high low⟩

/-- There is a statement for a line whose directive, if there is one, fits its field. -/
theorem exists_realizes_of_admissible {addressOf : String → Int → Prop} {line : Line}
    (admissible : ∀ d, line.directive? = some d → Admissible addressOf d) :
    ∃ s?, Option.Rel Realizes line.directive? s? := by
  cases directive : line.directive? with
  | none => exact ⟨none, .none⟩
  | some d =>
    obtain ⟨s, realizes⟩ := (admissible d directive).exists_realizes
    exact ⟨some s, .some realizes⟩

/-- There is a statement for every line of a well-formed program that needs one. -/
theorem WellFormed.exists_realizes (wellFormed : WellFormed program) {line : Line}
    (member : line ∈ program) : ∃ s?, Option.Rel Realizes line.directive? s? :=
  exists_realizes_of_admissible (wellFormed.admissible line member)

/-! ## Addresses -/

/-- The next address lies after the last origin by no more than the words put down. -/
theorem nextAddress_bounds {before : List Line}
    (origins : ∀ line ∈ before, ∀ address, line.origin? = some address →
      0 ≤ address ∧ address ≤ 65535) :
    0 ≤ Layout.nextAddress before ∧
      Layout.nextAddress before ≤ 65535 + before.countP Line.emits := by
  induction before using List.reverseRecOn with
  | nil => exact ⟨Int.le_refl _, by decide⟩
  | append_singleton before line ih =>
    have last := origins line (by simp)
    have earlier := ih fun other member => origins other (List.mem_append_left _ member)
    rw [List.countP_append, List.countP_singleton]
    cases origin : line.origin? with
    | some address =>
      have inside := last address origin
      rw [Layout.nextAddress_origin before origin]
      omega
    | none =>
      rw [Layout.nextAddress_other before origin]
      split <;> omega

/-- The origins of a well-formed program are addresses. -/
theorem WellFormed.origin_inside (wellFormed : WellFormed program) {line : Line}
    (member : line ∈ program) {address : Int} (origin : line.origin? = some address) :
    0 ≤ address ∧ address ≤ 65535 := by
  have admissible := wellFormed.admissible line member
  obtain ⟨label?, _ | d⟩ := line
  · contradiction
  · cases d with
    | origin =>
      obtain rfl := Option.some.inj origin
      cases admissible _ rfl with
      | origin inside => exact inside
    | data | instruction => contradiction

/-- The labels of a well-formed program are not far beyond its origins. -/
theorem WellFormed.label_bounds (wellFormed : WellFormed program) {label : String} {address : Int}
    (found : Layout.LabelAt program label address) :
    0 ≤ address ∧ address ≤ 65535 + program.countP Line.emits := by
  obtain ⟨before, line, after, rfl, -, rfl⟩ := found
  have bounds := nextAddress_bounds fun other member address origin =>
    wellFormed.origin_inside (List.mem_append_left _ member) origin
  rw [List.countP_append]
  omega

/-! ## Sizes -/

/-- A statement has at least the three characters of its mnemonic. -/
theorem StatementForm.three_le_length {d : Directive} (form : StatementForm text d) :
    3 ≤ text.length := by
  have length {name : List Char} {word : String} (spells : Spells name word)
      (three : 3 ≤ word.toList.length) : 3 ≤ name.length := by
    rw [← spells] at three
    rwa [List.length_map] at three
  cases form with
  | origin spells =>
    have three := length spells (by decide)
    rw [List.length_append]
    omega
  | data spells =>
    have three := spells.elim (fun spells => length spells (by decide))
      fun spells => length spells (by decide)
    rw [List.length_append]
    omega
  | halt spells => exact length spells (by decide)
  | @instruction op _ _ _ _ _ _ spells =>
    have three := length spells (by cases op <;> decide)
    rw [List.length_append]
    omega

/-- A line that puts down a word has at least three characters. -/
theorem LineForm.three_le_length {line : Line} (form : LineForm text line)
    (emits : line.emits = true) : 3 ≤ text.length := by
  have length {text : List Char} {d? : Option Directive} (body : BodyForm text d?)
      (some : d? ≠ none) : 3 ≤ text.length := by
    cases body with
    | none => contradiction
    | some statement => exact statement.three_le_length
  obtain ⟨-, form, -, -⟩ := form
  cases form with
  | plain body =>
    have three := length body (by rintro rfl; contradiction)
    simp only [List.length_append]
    omega
  | labelled isName left right body =>
    have three := length body (by rintro rfl; contradiction)
    simp only [List.length_append, List.length_cons]
    omega

/-- A text is three times as long as the words that it puts down are many. -/
theorem SourceForm.countP_emits (form : SourceForm text program) :
    3 * program.countP Line.emits ≤ text.length := by
  have one {text : List Char} {line : Line} (form : LineForm text line) :
      3 * (if line.emits then 1 else 0) ≤ text.length := by
    split
    · rename_i emits
      exact form.three_le_length emits
    · exact Nat.zero_le _
  induction form with
  | nil => exact Nat.le_refl _
  | last form =>
    rw [List.countP_singleton]
    exact one form
  | cons form others ih =>
    have three := one form
    rw [List.countP_cons, List.length_append, List.length_cons]
    omega

/-- The numbers of a well-formed program are signed integers of 64 bits. -/
theorem WellFormed.numbers_fit (wellFormed : WellFormed program)
    (few : 3 * program.countP Line.emits < 2 ^ 63) {line : Line} (member : line ∈ program) :
    ∀ n ∈ line.numbers, n.natAbs < 2 ^ 63 := by
  have given {o : Operand} {value : Int} (comes : OperandValue (Layout.LabelAt program) o value)
      (inside : -2 ^ 31 ≤ value ∧ value ≤ 2 ^ 32 - 1) : o.given.natAbs < 2 ^ 63 := by
    cases comes with
    | number =>
      change value.natAbs < 2 ^ 63
      omega
    | @reference r address found =>
      have bounds := wellFormed.label_bounds found
      change r.offset.natAbs < 2 ^ 63
      omega
  have admissible := wellFormed.admissible line member
  obtain ⟨label?, _ | d⟩ := line
  · exact fun n member => by contradiction
  · cases admissible d rfl with
    | origin inside => exact List.forall_mem_singleton.2 (by omega)
    | number inside => exact List.forall_mem_singleton.2 (given (.number _) inside)
    | reference comes inside => exact List.forall_mem_singleton.2 (given comes (by omega))
    | instruction comes inside =>
      cases comes with
      | none => exact fun n member => by contradiction
      | operand comes => exact List.forall_mem_singleton.2 (given comes (by omega))
      | counts high low =>
        exact List.forall_mem_cons.2 ⟨by omega, List.forall_mem_singleton.2 (by omega)⟩

end DirectionCentral.Assembly

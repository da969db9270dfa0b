import Mathlib.Data.Nat.Bitwise
import Mathlib.Tactic
import DirectionCentral.Proofs.Instruction.Fields
import DirectionCentral.Proofs.Machine.OperationTable

/-!
# A step is what the table says

The readings before and after a step of a machine are related by the operation table, and by no
other outcome than the machine's own: a wrapped result is unique (`Wraps.unique`), so the table
determines what comes after. Each part of a step has one lemma that gives its reading.
-/

namespace DirectionCentral

/-! ## Wrapped results -/

/-- At most one signed number of a width is congruent to an exact result. -/
theorem Wraps.unique {width : Nat} (positive : 0 < width) {exact u v : Int}
    (left : Wraps width exact u) (right : Wraps width exact v) : u = v := by
  have modulus : (2 : Int) ^ width = 2 * 2 ^ (width - 1) := by
    rw [← pow_succ', Nat.sub_add_cancel positive]
  have differs := (left.congruent.trans right.congruent.symm).dvd
  have small : |v - u| < 2 ^ width := by
    rw [modulus, abs_lt]
    constructor <;> linarith only [left.lower, left.upper, right.lower, right.upper]
  have := Int.eq_zero_of_abs_lt_dvd differs small
  omega

/-- The balanced remainder is the wrapped result. -/
theorem Wraps.of_eq_bmod {width : Nat} (positive : 0 < width) {exact value : Int}
    (remainder : value = exact.bmod (2 ^ width)) : Wraps width exact value := by
  have modulus : ((2 ^ width : Nat) : Int) = 2 * 2 ^ (width - 1) := by
    rw [← pow_succ', Nat.sub_add_cancel positive]
    norm_cast
  have least := Int.le_bmod (x := exact) (m := 2 ^ width) (by positivity)
  have greatest := Int.bmod_lt (x := exact) (m := 2 ^ width) (by positivity)
  subst remainder
  refine ⟨by omega, by omega, ?_⟩
  have := Int.bmod_emod (x := exact) (m := 2 ^ width)
  exact_mod_cast this

/-- A word read as a signed number wraps the word. -/
theorem wraps_toInt32 (word : UInt32) : Wraps 32 word.toNat word.toInt32.toInt :=
  .of_eq_bmod (by decide) (BitVec.toInt_eq_toNat_bmod _)

/-- An address read as a signed number wraps the address. -/
theorem wraps_toInt64 (address : UInt64) : Wraps 64 address.toNat address.toInt64.toInt :=
  .of_eq_bmod (by decide) (BitVec.toInt_eq_toNat_bmod _)

/-- A stored accumulator is its residue. -/
theorem toNat_toWord (value : Int32) :
    (Accumulator.toWord value).toNat = (value.toInt % 2 ^ 32).toNat := by
  have signed : value.toInt = ((Accumulator.toWord value).toNat : Int).bmod (2 ^ 32) :=
    BitVec.toInt_eq_toNat_bmod _
  have := (Accumulator.toWord value).toNat_lt
  have residue : value.toInt % 2 ^ 32 = (Accumulator.toWord value).toNat := by
    rw [signed, Int.bmod_def]
    split <;> omega
  rw [residue, Int.toNat_natCast]

/-- A byte is not changed by widening. -/
theorem toInt_toInt64 (byte : UInt8) : byte.toUInt64.toInt64.toInt = byte.toNat := by
  have := byte.toNat_lt
  have signed : byte.toUInt64.toInt64.toInt = (byte.toUInt64.toNat : Int).bmod (2 ^ 64) :=
    BitVec.toInt_eq_toNat_bmod _
  rw [signed, UInt8.toNat_toUInt64]
  exact Int.bmod_eq_of_le (by omega) (by omega)

/-! ## Fields of a word -/

namespace Instruction
open Reading

/-- The operation byte is the quotient by `2 ^ 24`. -/
theorem toNat_code (word : Word) : (decode word).code.toNat = codeOf word.toNat := by
  have := word.toNat_lt
  simp only [decode, codeOf, UInt32.toNat_toUInt8, UInt32.toNat_shiftRight]
  simp [Nat.shiftRight_eq_div_pow]
  omega

/-- The address field is the remainder by `2 ^ 16`. -/
theorem toNat_address (word : Word) : (decode word).address.toNat = addressOf word.toNat := by
  simp [decode, addressOf]

/-- The index flag is the remainder by 2 of the quotient by `2 ^ 17`. -/
theorem indexed_eq_indexedOf (word : Word) : (decode word).indexed = indexedOf word.toNat := by
  rw [indexed_decode, indexedOf, ← Nat.testBit_eq_decide_div_mod_eq]
  rfl

/-- Indexing adds the exact index modulo 65536, whatever its sign. -/
theorem toNat_effectiveAddress (word : Word) (index : Int64) :
    ((decode word).effectiveAddress index).toNat = effectiveAddressOf word.toNat index.toInt := by
  have residue : (index.toUInt64.toNat : Int) % 65536 = index.toInt % 65536 := by
    have signed : index.toInt = (index.toUInt64.toNat : Int).bmod (2 ^ 64) :=
      BitVec.toInt_eq_toNat_bmod _
    rw [signed, Int.bmod_def]
    split <;> omega
  rw [effectiveAddress, effectiveAddressOf, indexed_eq_indexedOf]
  split
  · rw [UInt16.toNat_add, toNat_address]
    simp only [UInt64.toNat_toUInt16]
    omega
  · exact toNat_address word

end Instruction

/-! ## Parts of a machine -/

namespace Machine

/-- A reading has a number for each cell. -/
@[simp]
theorem length_reading_cells (m : Machine) : m.reading.cells.length = m.memory.size := by
  simp [reading, Memory.size]

/-- A cell is read alike. -/
theorem read_reading (m : Machine) (address : UInt64) :
    m.reading.read address.toNat = (m.memory.read address).toNat := by
  rw [Reading.read, reading, Memory.read, List.getD_eq_getElem?_getD, List.getElem?_map,
    Array.getElem?_toList]
  cases m.memory.cells[address.toNat]? <;> rfl

/-- An operand wraps the word in its cell. -/
theorem wraps_operand (m : Machine) (ea : UInt16) :
    Wraps 32 (m.reading.read ea.toNat) (m.operand ea).toInt := by
  rw [← UInt16.toNat_toUInt64, read_reading]
  exact wraps_toInt32 _

/-- Setting the index register changes nothing else. -/
theorem reading_setIndex (m : Machine) (value : Int64) :
    (m.setIndex value).reading = { m.reading with index := value.toInt } := rfl

/-- A jump is a transfer. -/
theorem reading_jump (m : Machine) (ea : UInt16) :
    (m.jump ea).reading = m.reading.transfer ea.toNat := by
  have parked : (UInt64.ofNat (min ea.toNat m.memory.size)).toNat =
      min ea.toNat m.reading.cells.length := by
    rw [UInt64.toNat_ofNat', length_reading_cells]
    exact Nat.mod_eq_of_lt (Nat.lt_of_le_of_lt (Nat.min_le_right ..) m.memory.size_lt)
  simp only [Reading.transfer, ← parked]
  rfl

/-- A word is written alike; past the end both drop it. -/
theorem reading_write (m : Machine) (ea : UInt16) (word : Word) :
    (m.write ea.toUInt64 word).reading = m.reading.write ea.toNat word.toNat := by
  have cells : (m.write ea.toUInt64 word).reading.cells =
      m.reading.cells.set ea.toNat word.toNat := by
    simp [reading, write, Memory.write, List.map_set]
  have others : (m.write ea.toUInt64 word).reading =
      { m.reading with cells := m.reading.cells.set ea.toNat word.toNat } := by
    rw [← cells]
    rfl
  rw [others, Reading.write]
  split
  · rfl
  · rw [List.set_eq_of_length_le (by omega)]

/-- An entry is recorded alike. -/
theorem reading_record (m : Machine) (entry : TraceEntry) :
    (m.record entry).reading = m.reading.record entry.reading := by
  unfold record Trace.record Reading.record reading
  by_cases h : m.trace.enabled = true <;> simp [h]

/-- The next address is a cell's just if it is below the number of cells. -/
theorem atEnd_iff (m : Machine) : m.atEnd = true ↔ ¬ m.reading.next < m.reading.cells.length := by
  rw [length_reading_cells, atEnd, decide_eq_true_eq, not_lt]
  rfl

/-- The same word is fetched. -/
theorem toNat_fetched (m : Machine) : m.fetched.toNat = m.reading.fetched := by
  rw [fetched, Reading.fetched]
  by_cases past : m.atEnd = true
  · rw [if_pos past, if_neg (m.atEnd_iff.1 past)]
    rfl
  · rw [if_neg past, if_pos (not_not.1 (mt m.atEnd_iff.2 past)), ← read_reading]
    rfl

/-- The trace says the same of the next step. -/
theorem reading_upcoming (m : Machine) : m.upcoming.reading = m.reading.entry := by
  simp only [upcoming, TraceEntry.reading, Reading.entry, Instruction.toNat_code,
    Instruction.toNat_address, Instruction.indexed_eq_indexedOf,
    Instruction.toNat_effectiveAddress, toNat_fetched]
  rfl

/-- The fetched word is passed alike. -/
theorem reading_passFetch (m : Machine) : m.passFetch.reading = m.reading.passFetch := by
  rw [passFetch, Reading.passFetch]
  by_cases past : m.atEnd = true
  · rw [if_pos past, if_neg (m.atEnd_iff.1 past)]
    rfl
  · have inside := not_not.1 (mt m.atEnd_iff.2 past)
    rw [if_neg past, if_pos inside]
    rw [length_reading_cells] at inside
    have advanced : (m.registers.next + 1).toNat = m.reading.next + 1 := by
      rw [UInt64.toNat_add]
      exact Nat.mod_eq_of_lt (Nat.lt_of_le_of_lt inside m.memory.size_lt)
    rw [← advanced]
    rfl

/-- Counters below their maximum count exactly. -/
theorem reading_tally (m : Machine) (instructions : m.registers.instructions.toNat + 1 < 2 ^ 64)
    (cycles : m.registers.cycles.toNat + 1 < 2 ^ 64) : m.tally.reading = m.reading.tally := by
  have first : (m.registers.instructions + 1).toNat = m.reading.instructions + 1 := by
    rw [UInt64.toNat_add]
    exact Nat.mod_eq_of_lt instructions
  have second : (m.registers.cycles + 1).toNat = m.reading.cycles + 1 := by
    rw [UInt64.toNat_add]
    exact Nat.mod_eq_of_lt cycles
  rw [Reading.tally, ← first, ← second]
  rfl

/-! ## What a step performs -/

/-- An operation has its effect in the table. -/
theorem effect_perform (m : Machine) (op : Operation) (i : Instruction) (ea : UInt16) :
    Reading.Effect m.reading i.address.toNat ea.toNat op (m.perform op i ea).reading := by
  have cell := m.wraps_operand ea
  cases op with
  | hlt => exact .hlt
  | lda => exact .lda cell
  | sto =>
    rw [perform, reading_write, toNat_toWord]
    exact .sto
  | add => exact .add cell (.of_eq_bmod (by decide) (Accumulator.toInt_add _ _))
  | sub => exact .sub cell (.of_eq_bmod (by decide) (Accumulator.toInt_subtract _ _))
  | mpy => exact .mpy cell (.of_eq_bmod (by decide) (Accumulator.toInt_multiply _ _))
  | dvh =>
    by_cases zero : m.operand ea = 0
    · have saturates : (m.perform .dvh i ea).reading =
          { m.reading with accumulator := 0x7FFFFFFF } := by
        simp only [perform, Accumulator.divide, zero]
        rfl
      rw [zero] at cell
      rw [saturates]
      exact .dvhZero cell
    · have nonzero : (m.operand ea).toInt ≠ 0 := fun h => zero (Int32.toInt.inj h)
      exact .dvh cell nonzero (.of_eq_bmod (by decide) (Accumulator.toInt_divide zero))
  | tra =>
    rw [perform, reading_jump]
    exact .tra
  | tnz =>
    have same : (m.registers.accumulator != 0) = true ↔ m.reading.accumulator ≠ 0 := by
      rw [bne_iff_ne]
      exact not_congr Int32.toInt_inj.symm
    simp only [perform, apply_ite reading, reading_jump, same]
    exact .tnz
  | tmi =>
    have same : m.registers.accumulator < 0 ↔ m.reading.accumulator < 0 := Int32.lt_iff_toInt_lt
    simp only [perform, apply_ite reading, reading_jump, same]
    exact .tmi
  | tsx =>
    rw [perform, reading_jump, reading_setIndex]
    exact .tsx (wraps_toInt64 _)
  | tix =>
    simp only [perform, apply_ite reading, reading_jump, reading_setIndex, Int64.lt_iff_toInt_lt]
    refine .tix (.of_eq_bmod (by decide) ?_)
    -- The difference first wraps to 64 bits, which changes nothing modulo `2 ^ 32`.
    rw [Int32.toInt_toInt64, Accumulator.wrap, Int64.toInt_toInt32, Int64.toInt_sub]
    exact Int.bmod_bmod_of_dvd (by decide)
  | txi =>
    simp only [perform, apply_ite reading, reading_jump, reading_setIndex, Int64.le_iff_toInt_le,
      toInt_toInt64, Instruction.toNat_limit]
    refine .txi (.of_eq_bmod (by decide) ?_)
    rw [Int64.toInt_add, toInt_toInt64, Instruction.toNat_increment]
    rfl

/-- A word is dispatched as in the table, also one without an operation. -/
theorem dispatch_reading (m : Machine) (e : TraceEntry) :
    Reading.Dispatch m.reading e.reading (m.dispatch e).reading := by
  rw [dispatch]
  cases known : e.instruction.operation? with
  | some op =>
    have byte := Operation.ofByte?_eq_some_iff.1 known
    exact .known (congrArg UInt8.toNat byte) (m.effect_perform op e.instruction e.effectiveAddress)
  | none =>
    have noByte : ∀ op : Operation, op.byte.toNat ≠ e.reading.code := by
      intro op same
      have found := Operation.ofByte?_eq_some_iff.2 (UInt8.toNat.inj same)
      rw [Instruction.operation?, found] at known
      contradiction
    exact .unknown noByte

end Machine

/-! ## The table determines the outcome -/

namespace Reading

/-- An operation has one effect. -/
theorem Effect.unique {s left right : Reading} {address ea : Nat} {op : Operation}
    (first : Effect s address ea op left) (second : Effect s address ea op right) :
    left = right := by
  cases first with
  | hlt => cases second; rfl
  | lda cell =>
    cases second with
    | lda cell' => rw [cell.unique (by decide) cell']
  | sto => cases second; rfl
  | add cell result =>
    cases second with
    | add cell' result' =>
      obtain rfl := cell.unique (by decide) cell'
      rw [result.unique (by decide) result']
  | sub cell result =>
    cases second with
    | sub cell' result' =>
      obtain rfl := cell.unique (by decide) cell'
      rw [result.unique (by decide) result']
  | mpy cell result =>
    cases second with
    | mpy cell' result' =>
      obtain rfl := cell.unique (by decide) cell'
      rw [result.unique (by decide) result']
  | dvhZero cell =>
    cases second with
    | dvhZero => rfl
    | dvh cell' nonzero => exact absurd (cell'.unique (by decide) cell) nonzero
  | dvh cell nonzero result =>
    cases second with
    | dvhZero cell' => exact absurd (cell.unique (by decide) cell') nonzero
    | dvh cell' _ result' =>
      obtain rfl := cell.unique (by decide) cell'
      rw [result.unique (by decide) result']
  | tra => cases second; rfl
  | tnz => cases second; rfl
  | tmi => cases second; rfl
  | tsx saved =>
    cases second with
    | tsx saved' => rw [saved.unique (by decide) saved']
  | tix down =>
    cases second with
    | tix down' => rw [down.unique (by decide) down']
  | txi up =>
    cases second with
    | txi up' => rw [up.unique (by decide) up']

/-- A word is dispatched in one way. -/
theorem Dispatch.unique {s left right : Reading} {e : EntryReading}
    (first : Dispatch s e left) (second : Dispatch s e right) : left = right := by
  cases first with
  | known byte effect =>
    cases second with
    | known other effect' =>
      have same : ∀ {a b : Operation}, a.byte.toNat = b.byte.toNat → a = b := by
        intro a b h
        have := Operation.ofByte?_eq_some_iff.2 (UInt8.toNat.inj h)
        rw [Operation.ofByte?_eq_some_iff.2 rfl] at this
        exact (Option.some.inj this).symm
      obtain rfl := same (byte.trans other.symm)
      exact effect.unique effect'
    | unknown noByte => exact absurd byte (noByte _)
  | unknown noByte =>
    cases second with
    | known byte effect => exact absurd byte (noByte _)
    | unknown => rfl

/-- A step has one outcome. -/
theorem Step.unique {s left right : Reading} {first second : Bool} (one : Step s first left)
    (other : Step s second right) : first = second ∧ left = right := by
  cases one with
  | halted stopped =>
    cases other with
    | halted => exact ⟨rfl, rfl⟩
    | performed running => simp [stopped] at running
  | performed running dispatched =>
    cases other with
    | halted stopped => simp [stopped] at running
    | performed _ dispatched' =>
      obtain rfl := dispatched.unique dispatched'
      exact ⟨rfl, rfl⟩

end Reading

namespace Machine

/-- Whether two machines have counted the same. -/
def SameCounters (m m' : Machine) : Prop :=
  m.registers.instructions = m'.registers.instructions ∧ m.registers.cycles = m'.registers.cycles

/-- Moving past the fetched word counts nothing. -/
theorem counters_passFetch (m : Machine) : m.passFetch.SameCounters m := by
  rw [passFetch]
  split <;> exact ⟨rfl, rfl⟩

/-- No operation counts. -/
theorem counters_perform (m : Machine) (op : Operation) (i : Instruction) (ea : UInt16) :
    (m.perform op i ea).SameCounters m := by
  cases op <;> simp only [perform] <;> (try split) <;> exact ⟨rfl, rfl⟩

/-- Dispatching counts nothing. -/
theorem counters_dispatch (m : Machine) (e : TraceEntry) : (m.dispatch e).SameCounters m := by
  rw [dispatch]
  split
  · exact counters_perform ..
  · exact ⟨rfl, rfl⟩

/-- While its counters are below their maximum, a machine steps as the operation table says: the
table relates its reading to that of the machine after the step, with the answer whether execution
goes on, and to no other. -/
theorem step_iff_table (m : Machine) (instructions : m.registers.instructions.toNat + 1 < 2 ^ 64)
    (cycles : m.registers.cycles.toNat + 1 < 2 ^ 64) (goesOn : Bool) (after : Reading) :
    m.reading.Step goesOn after ↔ goesOn = m.step.isRunning ∧ after = m.step.reading := by
  have stepped : m.reading.Step m.step.isRunning m.step.reading := by
    by_cases stopped : m.registers.halted = true
    · rw [step_of_halted stopped, isRunning, stopped]
      exact .halted stopped
    · have running : m.reading.halted = false := by simpa [reading] using stopped
      let e := m.upcoming
      have fetched := m.counters_passFetch
      have counted := (m.passFetch.record e).counters_dispatch e
      have dispatched := (m.passFetch.record e).dispatch_reading e
      rw [reading_record, reading_passFetch, reading_upcoming] at dispatched
      have performed := Reading.Step.performed running dispatched
      rw [← reading_tally] at performed
      · rw [step, if_neg stopped]
        exact performed
      · rwa [counted.1.trans fetched.1]
      · rwa [counted.2.trans fetched.2]
  constructor
  · intro outcome
    exact outcome.unique stepped
  · rintro ⟨rfl, rfl⟩
    exact stepped

/-- The quotient of the least number by minus one needs 33 bits; the table wraps it back to the
least number, and so does the machine. -/
theorem step_table_least_quotient :
    let m : Machine :=
      { registers := { accumulator := -2147483648 }
        memory := ⟨#[0x06000001, 0xFFFFFFFF], by decide⟩ }
    m.registers.instructions.toNat + 1 < 2 ^ 64 ∧ m.registers.cycles.toNat + 1 < 2 ^ 64 ∧
      m.reading.Step true
        { m.reading with
          accumulator := -2147483648, next := 1, instructions := 1, cycles := 1 } := by
  refine ⟨by decide, by decide, ?_⟩
  exact (step_iff_table _ (by decide) (by decide) _ _).2 ⟨by decide, rfl⟩

end Machine

end DirectionCentral

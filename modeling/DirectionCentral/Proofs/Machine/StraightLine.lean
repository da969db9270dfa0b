import DirectionCentral.Proofs.Machine.Execution
import DirectionCentral.Proofs.Machine.Footprint

/-!
# Straight lines of code

A straight line of code goes on from each instruction to the next one: it calculates, and it stores
outside itself. A machine that comes to its first cell goes through it cell by cell
(`Along.steps`). What was in memory stays there but for the cells at which the line stores, the
index register keeps its number, and so the instruction behind the line is performed as it was
written. The code of a loop and of a subroutine are such lines, each with one transfer behind it, so
a line is taken together with the cell behind it.
-/

namespace DirectionCentral

/-- An instruction of a straight line from cell `first` with cell `last` behind it. -/
inductive Plain (first last : Nat) (i : Instruction) : Prop
  /-- A calculation with any operand, indexed or not. -/
  | calculates {op : Operation} (known : i.operation? = some op) (reads : op.readsCell = true)
  /-- A direct store outside the line and the cell behind it. -/
  | stores (known : i.operation? = some .sto) (direct : i.indexed = false)
      (outside : ¬ (first ≤ i.address.toNat ∧ i.address.toNat ≤ last))

/-- An operation that reads the cell that it refers to calculates with it. -/
theorem Operation.exists_calculation {op : Operation} (reads : op.readsCell = true) :
    ∃ f, op.calculation? = some f := by
  cases op <;> first | contradiction | exact ⟨_, rfl⟩

/-- The operation of an instruction is the one whose byte it has. -/
theorem Instruction.operation?_mk (op : Operation) (address : UInt16) (indexed : Bool) :
    Instruction.operation? ⟨op.byte, address, indexed⟩ = some op :=
  Operation.ofByte?_eq_some_iff.2 rfl

namespace Memory

/-- The instruction in a cell. -/
def instructionAt (memory : Memory) (c : Nat) : Instruction :=
  Instruction.decode (memory.read (.ofNat c))

/-- The cells from `first` up to `last`, which is not one of them, hold a straight line. -/
def Straight (memory : Memory) (first last : Nat) : Prop :=
  ∀ c, first ≤ c → c < last → Plain first last (memory.instructionAt c)

/-- The addresses of the stores in the cells from `first` up to `last`. -/
def storedBy (memory : Memory) (first last : Nat) : Set UInt64 :=
  {a | ∃ c, first ≤ c ∧ c < last ∧ (memory.instructionAt c).operation? = some .sto ∧
    a = (memory.instructionAt c).address.toUInt64}

variable {memory : Memory} {first last : Nat}

/-- A straight line stores neither over itself nor over the cell behind it. -/
theorem Straight.notMem_storedBy (straight : memory.Straight first last) {a : UInt64}
    (low : first ≤ a.toNat) (high : a.toNat ≤ last) : a ∉ memory.storedBy first last := by
  rintro ⟨c, after, before, store, rfl⟩
  rw [UInt16.toNat_toUInt64] at low high
  cases straight c after before with
  | calculates known reads =>
    obtain rfl := Option.some.inj (known.symm.trans store)
    contradiction
  | stores _ _ outside => exact outside ⟨low, high⟩

end Memory

namespace Machine

/-- A running machine has come to cell `c` along a straight line that was in a memory when it began
with it. -/
structure Along (memory : Memory) (first last : Nat) (index : Int64) (c : Nat) (m : Machine) :
    Prop where
  /-- The machine has not halted. -/
  running : m.registers.halted = false
  /-- The address of the next instruction. -/
  next : m.registers.next.toNat = c
  /-- The index register. -/
  index : m.registers.index = index
  /-- The number of cells. -/
  size : m.memory.size = memory.size
  /-- The cells at which the line does not store are as they were. -/
  kept : ∀ a ∉ memory.storedBy first last, m.memory.read a = memory.read a

variable {memory : Memory} {first last c : Nat} {index : Int64} {m : Machine}

/-- A machine that has moved past a word in memory is at the next cell. -/
theorem toNat_next_moved (inside : m.registers.next.toNat < m.memory.size) :
    m.moved.registers.next.toNat = m.registers.next.toNat + 1 := by
  have fits : m.memory.size < 2 ^ 64 := m.memory.size_lt
  change (m.registers.next + 1).toNat = _
  rw [UInt64.toNat_add, UInt64.toNat_one]
  omega

namespace Along

/-- The next step performs the instruction that was in the cell when the machine began with the
line, whether it belongs to the line or is behind it: first it moves past the word, then the
operation follows. -/
theorem moves {op : Operation} (along : Along memory first last index c m)
    (straight : memory.Straight first last) (inside : last < memory.size) (low : first ≤ c)
    (high : c ≤ last) (known : (memory.instructionAt c).operation? = some op) :
    Along memory first last index (c + 1) m.moved ∧
      m.step = (m.moved.perform op (memory.instructionAt c)
        ((memory.instructionAt c).effectiveAddress index)).tally := by
  have cell : m.registers.next.toNat < m.memory.size := by
    rw [along.next, along.size]
    omega
  have here : m.registers.next = .ofNat c := by
    rw [← along.next, UInt64.ofNat_toNat]
  have untouched : m.registers.next ∉ memory.storedBy first last := by
    apply straight.notMem_storedBy
    · rwa [along.next]
    · rwa [along.next]
  have decoded : Instruction.decode (m.memory.read m.registers.next) = memory.instructionAt c := by
    rw [along.kept _ untouched, here]
    rfl
  constructor
  · refine ⟨along.running, ?_, along.index, along.size, along.kept⟩
    rw [toNat_next_moved cell, along.next]
  · rw [step_of_operation along.running cell decoded known, along.index]

/-- An instruction of the line leads to the next cell. -/
theorem advance (along : Along memory first last index c m) (straight : memory.Straight first last)
    (inside : last < memory.size) (low : first ≤ c) (high : c < last) :
    Along memory first last index (c + 1) m.step := by
  cases straight c low high with
  | @calculates op known reads =>
    obtain ⟨f, calculates⟩ := op.exists_calculation reads
    obtain ⟨past, performed⟩ := along.moves straight inside low (Nat.le_of_lt high) known
    rw [performed, perform_of_calculation _ calculates]
    exact ⟨past.running, past.next, past.index, past.size, past.kept⟩
  | stores known direct outside =>
    obtain ⟨past, performed⟩ := along.moves straight inside low (Nat.le_of_lt high) known
    rw [performed]
    have target : (memory.instructionAt c).effectiveAddress index =
        (memory.instructionAt c).address := by
      rw [Instruction.effectiveAddress, direct]
      rfl
    rw [target]
    refine ⟨past.running, past.next, past.index, ?_, ?_⟩
    · exact (Memory.size_write ..).trans past.size
    · intro a other
      have missed : (memory.instructionAt c).address.toUInt64 ≠ a := by
        rintro rfl
        exact other ⟨c, low, high, known, rfl⟩
      exact (Memory.read_write_of_ne missed _).trans (past.kept a other)

/-- From its first cell a machine goes along a straight line, a cell with each step. -/
theorem steps (along : Along memory first last index first m)
    (straight : memory.Straight first last) (inside : last < memory.size) {k : Nat}
    (within : first + k ≤ last) : Along memory first last index (first + k) (step^[k] m) := by
  induction k with
  | zero => exact along
  | succ k ih =>
    rw [Function.iterate_succ_apply']
    exact (ih (by omega)).advance straight inside (by omega) (by omega)

end Along

end Machine

end DirectionCentral

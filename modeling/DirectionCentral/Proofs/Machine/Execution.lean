import DirectionCentral.Proofs.Machine.IndexRange
import DirectionCentral.Proofs.Machine.Recording
import DirectionCentral.Proofs.Machine.Stores

/-!
# Performing a program

What a program does is found instruction by instruction. A machine stands before an instruction with
certain contents of its registers and memory (`Stands`), and for each kind of operation one rule
says with which contents it stands before the next one. A loop is passed by the rule for its passes
(`passes`): what one pass does to a count, all passes do. The halting word ends the program, and a
run with a budget that is large enough is then finished (`Stands.halts`). The rules leave out the
trace and the clock, which no operation reads, and the counters, which follow from the number of
steps.
-/

namespace DirectionCentral

/-- What an operation that sets the accumulator makes of it and of the operand. -/
def Operation.calculation? : Operation → Option (Int32 → Int32 → Int32)
  | .lda => some fun _ operand => operand
  | .add => some Accumulator.add
  | .sub => some Accumulator.subtract
  | .mpy => some Accumulator.multiply
  | .dvh => some Accumulator.divide
  | _ => none

/-! ## Counts in the index register -/

/-- Counting down by one in 32 bits is exact up to `2 ^ 31`. -/
theorem wrap_sub_one {k : Nat} (small : k + 1 ≤ 2 ^ 31) :
    (Accumulator.wrap (Int64.ofNat (k + 1) - 1)).toInt64 = Int64.ofNat k := by
  have before : (Int64.ofNat (k + 1)).toInt = (k + 1 : Nat) := Int64.toInt_ofNat_of_lt (by omega)
  have after : (Int64.ofNat k).toInt = k := Int64.toInt_ofNat_of_lt (by omega)
  have one : (1 : Int64).toInt = 1 := rfl
  have difference : (Int64.ofNat (k + 1) - 1).toInt = k := by
    rw [toInt_sub_of_fits (by omega) (by omega)]
    omega
  apply Int64.toInt_inj.1
  rw [Int32.toInt_toInt64, Accumulator.wrap, Int64.toInt_toInt32, difference, after]
  exact Int.bmod_eq_of_le (by omega) (by omega)

/-- A count in the index register is positive just if it is as a number. -/
theorem zero_lt_ofNat_iff {k : Nat} (small : k < 2 ^ 63) : 0 < Int64.ofNat k ↔ 0 < k := by
  have exact : (Int64.ofNat k).toInt = k := Int64.toInt_ofNat_of_lt small
  rw [Int64.lt_iff_toInt_lt, exact]
  exact Int.natCast_pos

/-- Adding a byte to a count is exact. -/
theorem ofNat_add_byte {k : Nat} {byte : UInt8} (small : k + byte.toNat < 2 ^ 63) :
    Int64.ofNat k + byte.toUInt64.toInt64 = Int64.ofNat (k + byte.toNat) := by
  have before : (Int64.ofNat k).toInt = k := Int64.toInt_ofNat_of_lt (by omega)
  have after : (Int64.ofNat (k + byte.toNat)).toInt = (k + byte.toNat : Nat) :=
    Int64.toInt_ofNat_of_lt small
  have amount := toInt_toInt64 byte
  apply Int64.toInt_inj.1
  rw [toInt_add_of_fits (by omega) (by omega), before, after, amount]
  rfl

/-- A count is at most a byte just if it is as a number. -/
theorem ofNat_le_byte_iff {k : Nat} {byte : UInt8} (small : k < 2 ^ 63) :
    Int64.ofNat k ≤ byte.toUInt64.toInt64 ↔ k ≤ byte.toNat := by
  have exact : (Int64.ofNat k).toInt = k := Int64.toInt_ofNat_of_lt small
  rw [Int64.le_iff_toInt_le, exact, toInt_toInt64]
  exact Int.ofNat_le

/-- An indexed instruction refers to the cell as many cells on as the index register counts. -/
theorem Instruction.toUInt64_effectiveAddress {i : Instruction} {k : Nat}
    (indexed : i.indexed = true) (fits : k + i.address.toNat < 65536) :
    (i.effectiveAddress (.ofNat k)).toUInt64 = .ofNat (k + i.address.toNat) := by
  have cell : (UInt64.ofNat (k + i.address.toNat)).toNat = k + i.address.toNat :=
    UInt64.toNat_ofNat_of_lt' (Nat.lt_trans fits (by decide))
  have offset : (Int64.ofNat k).toUInt64.toUInt16.toNat = k := by
    simp only [Int64.toUInt64_ofNat', UInt64.toNat_toUInt16, UInt64.toNat_ofNat']
    omega
  apply UInt64.toNat_inj.1
  rw [UInt16.toNat_toUInt64, cell, effectiveAddress, if_pos indexed, UInt16.toNat_add, offset,
    Nat.add_comm]
  exact Nat.mod_eq_of_lt fits

namespace Machine

/-- A running machine without a diagnostic stands before an instruction, with certain contents of
its registers and memory. -/
structure Stands (m : Machine) (next : UInt64) (accumulator : Int32) (index : Int64)
    (memory : Memory) : Prop where
  /-- The machine has not halted. -/
  running : m.registers.halted = false
  /-- The address of the instruction. -/
  next : m.registers.next = next
  /-- The accumulator. -/
  accumulator : m.registers.accumulator = accumulator
  /-- The index register. -/
  index : m.registers.index = index
  /-- The memory. -/
  memory : m.memory = memory
  /-- There was no fault. -/
  diagnostic : m.diagnostic = none

/-- A machine has halted without a fault, a number of instructions after another one, and with a
certain memory. -/
structure Finished (start : Machine) (count : Nat) (memory : Memory) (m : Machine) : Prop where
  /-- The machine has halted. -/
  halted : m.registers.halted = true
  /-- There was no fault. -/
  diagnostic : m.diagnostic = none
  /-- The instructions are counted. -/
  instructions : m.registers.instructions = start.registers.instructions + .ofNat count
  /-- The memory. -/
  memory : m.memory = memory

/-- A machine that has moved past the word at the next address and recorded it. -/
def moved (m : Machine) : Machine :=
  ({ m with registers := m.registers.advance }).record m.upcoming

variable {m : Machine} {n : Nat} {p : UInt64} {a : Int32} {index : Int64} {memory : Memory}
  {i : Instruction} {target : UInt64}

/-! ## What one operation does -/

/-- Operations that calculate set the accumulator to the result and do nothing else. -/
theorem perform_of_calculation (m : Machine) {op : Operation} {f : Int32 → Int32 → Int32}
    (calculates : op.calculation? = some f) (i : Instruction) (ea : UInt16) :
    m.perform op i ea = m.setAccumulator (f m.registers.accumulator (m.operand ea)) := by
  cases op <;> first | contradiction | (cases calculates; rfl)

/-- A jump to an address in memory or at its end leads there. -/
theorem next_jump (m : Machine) {ea : UInt16} (within : ea.toUInt64.toNat ≤ m.memory.size) :
    (m.jump ea).registers.next = ea.toUInt64 := by
  rw [UInt16.toNat_toUInt64] at within
  change UInt64.ofNat (min ea.toNat m.memory.size) = _
  rw [Nat.min_eq_left within]
  exact UInt64.toNat_inj.1 (by simp)

/-- A running machine in memory performs the operation that its word has, once it has moved past the
word and recorded it. -/
theorem step_of_operation {op : Operation} (running : m.registers.halted = false)
    (inside : m.registers.next.toNat < m.memory.size)
    (decoded : Instruction.decode (m.memory.read m.registers.next) = i)
    (known : i.operation? = some op) :
    m.step = (m.moved.perform op i (i.effectiveAddress m.registers.index)).tally := by
  have here : ¬ m.atEnd = true := by simpa [atEnd] using inside
  have fetched : m.fetched = m.memory.read m.registers.next := by rw [fetched, if_neg here]
  have instruction : m.upcoming.instruction = i := by
    change Instruction.decode m.fetched = i
    rw [fetched, decoded]
  have address : m.upcoming.effectiveAddress = i.effectiveAddress m.registers.index := by
    change (Instruction.decode m.fetched).effectiveAddress _ = _
    rw [fetched, decoded]
  have passed : m.passFetch = { m with registers := m.registers.advance } := by
    rw [passFetch, if_neg here]
  rw [step, if_neg (ne_true_of_eq_false running)]
  simp only [dispatch, instruction, known, address, passed]
  rfl

namespace Stands

/-- The next step performs the instruction before which the machine stands: first it moves past the
word, then the operation follows. -/
theorem moves {op : Operation} (stands : Stands (step^[n] m) p a index memory)
    (cell : memory.Has p i) (known : i.operation? = some op) :
    Stands (step^[n] m).moved (p + 1) a index memory ∧
      step^[n + 1] m =
        ((step^[n] m).moved.perform op i (i.effectiveAddress index)).tally := by
  obtain ⟨running, rfl, rfl, rfl, rfl, diagnostic⟩ := stands
  rw [Function.iterate_succ_apply',
    step_of_operation running cell.inside cell.decoded known]
  exact ⟨⟨running, rfl, rfl, rfl, rfl, diagnostic⟩, rfl⟩

/-- An operation that calculates puts the result in the accumulator. -/
theorem calculate {op : Operation} {f : Int32 → Int32 → Int32} {value : Int32}
    (stands : Stands (step^[n] m) p a index memory) (cell : memory.Has p i)
    (known : i.operation? = some op) (calculates : op.calculation? = some f)
    (refers : (i.effectiveAddress index).toUInt64 = target)
    (result : f a (Accumulator.ofWord (memory.read target)) = value) :
    Stands (step^[n + 1] m) (p + 1) value index memory := by
  subst refers
  obtain ⟨past, performed⟩ := stands.moves cell known
  rw [performed, perform_of_calculation _ calculates]
  have calculated : f (step^[n] m).moved.registers.accumulator
        ((step^[n] m).moved.operand (i.effectiveAddress index)) = value := by
    rw [operand, past.accumulator, past.memory, result]
  exact { past with accumulator := calculated }

/-- Storing puts the accumulator in a cell. -/
theorem store (stands : Stands (step^[n] m) p a index memory) (cell : memory.Has p i)
    (known : i.operation? = some .sto) (refers : (i.effectiveAddress index).toUInt64 = target) :
    Stands (step^[n + 1] m) (p + 1) a index (memory.write target (Accumulator.toWord a)) := by
  subst refers
  obtain ⟨past, performed⟩ := stands.moves cell known
  rw [performed]
  have stored : ((step^[n] m).moved.perform .sto i (i.effectiveAddress index)).memory =
      memory.write (i.effectiveAddress index).toUInt64 (Accumulator.toWord a) := by
    change (step^[n] m).moved.memory.write _ (Accumulator.toWord _) = _
    rw [past.accumulator, past.memory]
  exact { past with memory := stored }

/-- A transfer leads to its address. -/
theorem transfer (stands : Stands (step^[n] m) p a index memory) (cell : memory.Has p i)
    (known : i.operation? = some .tra) (refers : (i.effectiveAddress index).toUInt64 = target)
    (within : target.toNat ≤ memory.size) :
    Stands (step^[n + 1] m) target a index memory := by
  subst refers
  obtain ⟨past, performed⟩ := stands.moves cell known
  rw [performed]
  rw [← past.memory] at within
  exact { past with next := next_jump _ within }

/-- A call saves the address of the instruction after it and leads to its own address. -/
theorem call (stands : Stands (step^[n] m) p a index memory) (cell : memory.Has p i)
    (known : i.operation? = some .tsx) (refers : (i.effectiveAddress index).toUInt64 = target)
    (within : target.toNat ≤ memory.size) :
    Stands (step^[n + 1] m) target a (p + 1).toInt64 memory := by
  subst refers
  obtain ⟨past, performed⟩ := stands.moves cell known
  rw [performed]
  rw [← past.memory] at within
  have saved : (step^[n] m).moved.registers.next.toInt64 = (p + 1).toInt64 := congrArg _ past.next
  exact { past with
    next := next_jump _ within
    index := saved }

/-- Counting down leads back while the count is not used up. -/
theorem countDown {k : Nat} (stands : Stands (step^[n] m) p a (.ofNat (k + 1)) memory)
    (cell : memory.Has p i) (known : i.operation? = some .tix) (small : k + 1 ≤ 2 ^ 31)
    (refers : (i.effectiveAddress (.ofNat (k + 1))).toUInt64 = target)
    (within : target.toNat ≤ memory.size) :
    Stands (step^[n + 1] m) (if 0 < k then target else p + 1) a (.ofNat k) memory := by
  subst refers
  obtain ⟨past, performed⟩ := stands.moves cell known
  rw [performed]
  rw [← past.memory] at within
  have lowered :
      (Accumulator.wrap ((step^[n] m).moved.registers.index - 1)).toInt64 = .ofNat k := by
    rw [past.index, wrap_sub_one small]
  simp only [perform, lowered, zero_lt_ofNat_iff (show k < 2 ^ 63 by omega)]
  split
  · exact { past with next := next_jump _ within, index := rfl }
  · exact { past with index := rfl }

/-- Counting up leads on to the address while the count is within the limit. -/
theorem countUp {k : Nat} {next : UInt64} (stands : Stands (step^[n] m) p a (.ofNat k) memory)
    (cell : memory.Has p i) (known : i.operation? = some .txi)
    (small : k + i.increment.toNat < 2 ^ 63)
    (refers : (i.effectiveAddress (.ofNat k)).toUInt64 = target)
    (leads : (if k + i.increment.toNat ≤ i.limit.toNat then target else p + 1) = next)
    (within : k + i.increment.toNat ≤ i.limit.toNat → target.toNat ≤ memory.size) :
    Stands (step^[n + 1] m) next a (.ofNat (k + i.increment.toNat)) memory := by
  subst refers leads
  obtain ⟨past, performed⟩ := stands.moves cell known
  rw [performed]
  rw [← past.memory] at within
  have raised : (step^[n] m).moved.registers.index + i.increment.toUInt64.toInt64 =
      .ofNat (k + i.increment.toNat) := by
    rw [past.index, ofNat_add_byte small]
  simp only [perform, raised, ofNat_le_byte_iff small]
  split
  · next low =>
    exact { past with
      next := next_jump _ (within low)
      index := rfl }
  · exact { past with index := rfl }

/-- At a halting word the program is finished, if the budget suffices. -/
theorem halts (stands : Stands (step^[n] m) p a index memory) (cell : memory.Has p i)
    (known : i.operation? = some .hlt) {budget : Nat} (enough : n + 1 ≤ budget) :
    Finished m (n + 1) memory (m.run budget) := by
  obtain ⟨past, performed⟩ := stands.moves cell known
  have halted : (step^[n + 1] m).registers.halted = true := by
    rw [performed]
    rfl
  have ended : m.run budget = step^[n + 1] m := by
    rw [run_eq_steps, ← Nat.sub_add_cancel enough, Function.iterate_add_apply,
      steps_of_halted halted]
  have active : m.activeSteps (n + 1) = n + 1 := by
    rw [activeSteps_succ, activeSteps_of_running stands.running, isRunning, stands.running]
    rfl
  rw [ended]
  refine ⟨halted, ?_, ?_, ?_⟩
  · rw [performed]
    exact past.diagnostic
  · rw [instructions_steps, active]
  · rw [performed]
    exact past.memory

end Stands

/-! ## Loops -/

/-- What holds with a count, and after a pass of so many steps with the count that is one less,
holds with the count zero after as many passes. -/
theorem passes {P : Nat → Machine → Prop} {steps bound : Nat}
    (pass : ∀ k n, k < bound → P (k + 1) (step^[n] m) → P k (step^[n + steps] m)) {k : Nat}
    (within : k ≤ bound) (start : P k (step^[n] m)) : P 0 (step^[n + steps * k] m) := by
  induction k generalizing n with
  | zero => exact start
  | succ k ih =>
    have rest := ih (Nat.le_of_succ_le within) (pass k n within start)
    have total : n + steps + steps * k = n + steps * (k + 1) := by
      rw [Nat.mul_succ]
      omega
    rwa [total] at rest

end Machine

end DirectionCentral

import DirectionCentral.Proofs.Machine.StraightLine

/-!
# Subroutines

A straight line with `TRA 0,X` behind it is a subroutine. `TSX` leaves the address of the
instruction after it in the index register (`entered_call`), the line keeps the register, and the
last instruction goes to the address that is in it (`Along.goBack`). So a call of a subroutine takes
one step to enter it, one for each instruction of its line and one to come back (`call_returns`). It
comes back also if the call stands in the last cell, and then to the end of memory.
-/

namespace DirectionCentral

namespace Memory

/-- A subroutine that begins in cell `first` and goes back to its caller in cell `last`. -/
structure Subroutine (memory : Memory) (first last : Nat) : Prop where
  /-- There is a last cell. -/
  inside : last < memory.size
  /-- Before the last cell there is a straight line. -/
  body : memory.Straight first last
  /-- The last cell transfers to the address in the index register. -/
  returns : memory.instructionAt last = ⟨Operation.tra.byte, 0, true⟩

end Memory

namespace Machine

variable {memory : Memory} {first last c k : Nat} {s : UInt16} {m : Machine}

/-- The address that a machine has moved on to is the number that a call leaves in the index
register. -/
theorem toInt64_next_moved (inside : m.registers.next.toNat < m.memory.size) :
    m.moved.registers.next.toInt64 = .ofNat (m.registers.next.toNat + 1) := by
  rw [← toNat_next_moved inside, ← UInt64.toInt64_ofNat', UInt64.ofNat_toNat]

/-- A call goes to the first cell of a subroutine and leaves the address of the cell after it in the
index register. -/
theorem entered_call (site : c < m.memory.size)
    (call : m.memory.instructionAt c = ⟨Operation.tsx.byte, s, false⟩)
    (target : s.toNat ≤ m.memory.size) (running : m.registers.halted = false)
    (start : m.registers.next.toNat = c) (last : Nat) :
    Along m.memory s.toNat last (.ofNat (c + 1)) s.toNat m.step := by
  have inside : m.registers.next.toNat < m.memory.size := by rwa [start]
  have decoded : Instruction.decode (m.memory.read m.registers.next) =
      ⟨Operation.tsx.byte, s, false⟩ := by
    rw [← call, ← start, Memory.instructionAt, UInt64.ofNat_toNat]
  have saved := toInt64_next_moved inside
  rw [start] at saved
  have within : s.toUInt64.toNat ≤ m.moved.memory.size := by
    rw [UInt16.toNat_toUInt64]
    exact target
  have entered : (m.moved.jump s).registers.next.toNat = s.toNat := by
    rw [next_jump _ within, UInt16.toNat_toUInt64]
  rw [step_of_operation running inside decoded (Instruction.operation?_mk ..)]
  exact ⟨running, entered, saved, rfl, fun _ _ => rfl⟩

/-- Behind its line a subroutine goes to the address in the index register, if this is an address of
16 bits in memory or its end. -/
theorem Along.goBack (along : Along memory first last (.ofNat c) last m)
    (routine : memory.Subroutine first last) (ordered : first ≤ last) (narrow : c ≤ 65535)
    (within : c ≤ memory.size) : Along memory first last (.ofNat c) c m.step := by
  have known : (memory.instructionAt last).operation? = some .tra := by
    rw [routine.returns]
    exact Instruction.operation?_mk ..
  obtain ⟨past, performed⟩ :=
    along.moves routine.body routine.inside ordered (Nat.le_refl last) known
  have address : (memory.instructionAt last).address.toNat = 0 := by
    rw [routine.returns]
    rfl
  have indexed : (memory.instructionAt last).indexed = true := by rw [routine.returns]
  have refers := Instruction.toUInt64_effectiveAddress (k := c) indexed (by omega)
  rw [address, Nat.add_zero] at refers
  have number : ((memory.instructionAt last).effectiveAddress (.ofNat c)).toUInt64.toNat = c := by
    rw [refers]
    exact UInt64.toNat_ofNat_of_lt' (Nat.lt_of_le_of_lt narrow (by decide))
  have back := next_jump m.moved (by rwa [number, past.size])
  rw [performed]
  exact ⟨past.running, (congrArg UInt64.toNat back).trans number, past.index, past.size,
    past.kept⟩

/-- A call of a subroutine with a line of `k` instructions comes back after `k + 2` steps, with the
machine still running: to the cell after the call, whose address is then in the index register. Only
cells at which the line stores have changed. The first step enters the subroutine, and the next ones
go through its cells in order. -/
theorem call_returns (site : c < m.memory.size) (narrow : c + 1 ≤ 65535)
    (call : m.memory.instructionAt c = ⟨Operation.tsx.byte, s, false⟩)
    (routine : m.memory.Subroutine s.toNat (s.toNat + k)) (running : m.registers.halted = false)
    (start : m.registers.next.toNat = c) :
    let back := step^[k + 2] m
    back.registers.halted = false ∧ back.registers.next.toNat = c + 1 ∧
      back.registers.index = .ofNat (c + 1) ∧
      (∀ a ∉ m.memory.storedBy s.toNat (s.toNat + k), back.memory.read a = m.memory.read a) ∧
      (∀ j ≤ k, (step^[j + 1] m).registers.halted = false ∧
        (step^[j + 1] m).registers.next.toNat = s.toNat + j) ∧
      back.registers.instructions = m.registers.instructions + .ofNat (k + 2) := by
  intro back
  have inside := routine.inside
  have entered := entered_call site call (by omega) running start (s.toNat + k)
  have line {j : Nat} (within : j ≤ k) :
      Along m.memory s.toNat (s.toNat + k) (.ofNat (c + 1)) (s.toNat + j) (step^[j + 1] m) :=
    entered.steps routine.body inside (by omega)
  have ended : Along m.memory s.toNat (s.toNat + k) (.ofNat (c + 1)) (c + 1) back := by
    have last := (line (Nat.le_refl k)).goBack routine (Nat.le_add_right _ k) narrow site
    rwa [← Function.iterate_succ_apply' step] at last
  refine ⟨ended.running, ended.next, ended.index, ended.kept, fun j within => ?_, ?_⟩
  · exact ⟨(line within).running, (line within).next⟩
  · rw [instructions_steps, activeSteps_of_running ended.running]

/-- The call stands in the last cell, the subroutine stores its sum over the call and in a cell
that does not exist, and the index register held another number before. -/
theorem call_returns_last_cell :
    let m : Machine :=
      { registers := { index := -5, next := 5 }
        memory := ⟨#[0x03020000, 0x02000005, 0x02000009, 0x10020000, 0, 0x13000000], by decide⟩ }
    5 < m.memory.size ∧ 5 + 1 ≤ 65535 ∧
      m.memory.instructionAt 5 = ⟨Operation.tsx.byte, 0, false⟩ ∧ m.memory.Subroutine 0 (0 + 3) ∧
      m.registers.halted = false ∧ m.registers.next.toNat = 5 ∧
      (step^[3 + 2] m).registers.halted = false ∧ (step^[3 + 2] m).registers.next.toNat = 6 ∧
      (step^[3 + 2] m).registers.index = 6 ∧ (step^[3 + 2] m).memory.read 5 = 0 ∧
      ∀ a ∉ m.memory.storedBy 0 (0 + 3), (step^[3 + 2] m).memory.read a = m.memory.read a := by
  intro m
  have body : m.memory.Straight 0 3 := by
    intro i low high
    obtain rfl | rfl | rfl : i = 0 ∨ i = 1 ∨ i = 2 := by omega
    · exact @Plain.calculates _ _ _ .add (by decide) rfl
    · exact .stores (by decide) (by decide) (by decide)
    · exact .stores (by decide) (by decide) (by decide)
  have routine : m.memory.Subroutine 0 (0 + 3) := ⟨by decide, body, by decide⟩
  obtain ⟨running, next, index, kept, -⟩ :=
    call_returns (s := 0) (by decide : 5 < m.memory.size) (by decide) (by decide) routine rfl rfl
  exact ⟨by decide, by decide, by decide, routine, rfl, rfl, running, next, index,
    by decide +kernel, kept⟩

end Machine

end DirectionCentral

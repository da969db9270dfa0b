import Mathlib.Data.Int.CardIntervalMod
import DirectionCentral.Proofs.Machine.StraightLine

/-!
# Loops that count down

A straight line with a `TIX` behind it that leads back to its first cell is a loop. A pass of it
performs each of its cells once and lowers the index register by one (`Along.pass`), so that a loop
which is entered with a count goes through all its cells as many times as the register counted
(`loop_performs`). The count may be up to `2 ^ 31`: the first decrement of it is a signed number of
32 bits, as every later one is.
-/

namespace DirectionCentral

namespace Memory

/-- A loop of the cells from `first` to `last` that counts the index register down. -/
structure Loop (memory : Memory) (first last : Nat) : Prop where
  /-- The last cell does not come before the first one. -/
  ordered : first ≤ last
  /-- There is a last cell. -/
  inside : last < memory.size
  /-- The first cell has an address of 16 bits. -/
  narrow : first ≤ 65535
  /-- Before the last cell there is a straight line. -/
  body : memory.Straight first last
  /-- The last cell counts down and leads directly to the first one. -/
  counts : memory.instructionAt last = ⟨Operation.tix.byte, .ofNat first, false⟩

end Memory

namespace Machine

/-- How many of the first `n` steps perform the instruction in cell `c`. -/
def timesPerformed (m : Machine) (c n : Nat) : Nat :=
  n.count fun k => (step^[k] m).registers.halted = false ∧ (step^[k] m).registers.next.toNat = c

variable {memory : Memory} {first last c k n : Nat} {index : Int64} {m : Machine}

/-! ## A pass -/

/-- Behind its line a loop lowers the count and goes back to its first cell, unless the count is
used up. -/
theorem Along.countDown (along : Along memory first last (.ofNat (k + 1)) last m)
    (loop : memory.Loop first last) (small : k + 1 ≤ 2 ^ 31) :
    Along memory first last (.ofNat k) (if 0 < k then first else last + 1) m.step := by
  have known : (memory.instructionAt last).operation? = some .tix := by
    rw [loop.counts]
    exact Instruction.operation?_mk ..
  obtain ⟨past, performed⟩ :=
    along.moves loop.body loop.inside loop.ordered (Nat.le_refl last) known
  have target : (memory.instructionAt last).effectiveAddress (.ofNat (k + 1)) = .ofNat first := by
    rw [loop.counts]
    rfl
  have start : (UInt16.ofNat first).toUInt64.toNat = first := by
    rw [UInt16.toNat_toUInt64, UInt16.toNat_ofNat_of_lt' (Nat.lt_succ_of_le loop.narrow)]
  have within : (UInt16.ofNat first).toUInt64.toNat ≤ m.moved.memory.size := by
    rw [start, past.size]
    exact loop.ordered.trans (Nat.le_of_lt loop.inside)
  have lowered : (Accumulator.wrap (m.moved.registers.index - 1)).toInt64 = .ofNat k := by
    rw [past.index, wrap_sub_one small]
  rw [performed, target]
  simp only [perform, lowered, zero_lt_ofNat_iff (show k < 2 ^ 63 by omega)]
  split
  · have back := congrArg UInt64.toNat (next_jump m.moved within)
    exact ⟨past.running, back.trans start, rfl, past.size, past.kept⟩
  · exact ⟨past.running, past.next, rfl, past.size, past.kept⟩

/-- A pass of a loop performs each of its cells, lowers the count and leads back to the first cell,
unless the count is used up. -/
theorem Along.pass (along : Along memory first last (.ofNat (k + 1)) first m)
    (loop : memory.Loop first last) (small : k + 1 ≤ 2 ^ 31) :
    Along memory first last (.ofNat k) (if 0 < k then first else last + 1)
      (step^[last - first + 1] m) := by
  have ordered := loop.ordered
  have line := along.steps loop.body loop.inside (k := last - first) (by omega)
  rw [show first + (last - first) = last by omega] at line
  rw [Function.iterate_succ_apply']
  exact line.countDown loop small

/-! ## All passes -/

/-- After some passes of a loop the count is lower by as many, and the loop is left with the last
one. -/
theorem Along.passes (along : Along memory first last (.ofNat n) first m)
    (loop : memory.Loop first last) (positive : 0 < n) (small : n ≤ 2 ^ 31) {q : Nat}
    (within : q ≤ n) :
    Along memory first last (.ofNat (n - q)) (if 0 < n - q then first else last + 1)
      (step^[(last - first + 1) * q] m) := by
  induction q with
  | zero => simpa [positive] using along
  | succ q ih =>
    have before := ih (Nat.le_of_succ_le within)
    have left : n - q = n - (q + 1) + 1 := by omega
    rw [left, if_pos (Nat.succ_pos _)] at before
    rw [Nat.mul_succ, Nat.add_comm (_ * q), Function.iterate_add_apply]
    exact before.pass loop (by omega)

/-- Before each step of its passes a loop is in the cell that the remainder by the number of its
cells says, with the count that is left. -/
theorem Along.within (along : Along memory first last (.ofNat n) first m)
    (loop : memory.Loop first last) (small : n ≤ 2 ^ 31)
    (before : k < n * (last - first + 1)) :
    Along memory first last (.ofNat (n - k / (last - first + 1)))
      (first + k % (last - first + 1)) (step^[k] m) := by
  have ordered := loop.ordered
  have position : k % (last - first + 1) < last - first + 1 := Nat.mod_lt k (Nat.succ_pos _)
  have pass : k / (last - first + 1) < n := Nat.div_lt_of_lt_mul (by rwa [Nat.mul_comm])
  have start := along.passes loop (Nat.zero_lt_of_lt pass) small (Nat.le_of_lt pass)
  rw [if_pos (Nat.sub_pos_of_lt pass)] at start
  have here := start.steps loop.body loop.inside (k := k % (last - first + 1)) (by omega)
  rwa [← Function.iterate_add_apply, Nat.mod_add_div] at here

/-- In so many passes each cell of a loop is performed as many times. -/
theorem Along.timesPerformed (along : Along memory first last (.ofNat n) first m)
    (loop : memory.Loop first last) (small : n ≤ 2 ^ 31) (low : first ≤ c) (high : c ≤ last) :
    m.timesPerformed c (n * (last - first + 1)) = n := by
  have performs {k : Nat} (before : k < n * (last - first + 1)) :
      ((step^[k] m).registers.halted = false ∧ (step^[k] m).registers.next.toNat = c) ↔
        k ≡ c - first [MOD last - first + 1] := by
    have here := along.within loop small before
    have position : c - first < last - first + 1 := by omega
    simp only [here.running, here.next, Nat.ModEq, Nat.mod_eq_of_lt position, true_and]
    omega
  have same : m.timesPerformed c (n * (last - first + 1)) =
      (n * (last - first + 1)).count (· ≡ c - first [MOD last - first + 1]) := by
    apply Nat.le_antisymm
    · exact Nat.count_mono_left fun k before => (performs before).1
    · exact Nat.count_mono_left fun k before => (performs before).2
  rw [same, Nat.count_modEq_card _ (Nat.succ_pos _), Nat.mul_mod_left,
    Nat.mul_div_cancel _ (Nat.succ_pos _), if_neg (Nat.not_lt_zero _), Nat.add_zero]

/-- A loop that is entered with a count of 1 to `2 ^ 31` in the index register is left behind its
last cell, with the machine still running, when its cells have been performed as many times as the
register counted, and no step before that is outside it. The count is then zero, the loop itself is
as it was, and of the other cells only those have changed at which it stores. -/
theorem loop_performs (loop : m.memory.Loop first last) (running : m.registers.halted = false)
    (start : m.registers.next.toNat = first) (count : m.registers.index = .ofNat n)
    (positive : 1 ≤ n) (small : n ≤ 2 ^ 31) :
    let total := n * (last - first + 1)
    let left := step^[total] m
    left.registers.halted = false ∧ left.registers.next.toNat = last + 1 ∧
      left.registers.index = 0 ∧
      (∀ a : UInt64, first ≤ a.toNat → a.toNat ≤ last → left.memory.read a = m.memory.read a) ∧
      (∀ a ∉ m.memory.storedBy first last, left.memory.read a = m.memory.read a) ∧
      (∀ c, first ≤ c → c ≤ last → m.timesPerformed c total = n) ∧
      (∀ k < total, first ≤ (step^[k] m).registers.next.toNat ∧
        (step^[k] m).registers.next.toNat ≤ last) ∧
      left.registers.instructions = m.registers.instructions + .ofNat total := by
  intro total left
  have ordered := loop.ordered
  have entered : Along m.memory first last (.ofNat n) first m :=
    ⟨running, start, count, rfl, fun _ _ => rfl⟩
  have ended := entered.passes loop positive small (Nat.le_refl n)
  rw [Nat.sub_self, if_neg (Nat.lt_irrefl 0), Nat.mul_comm] at ended
  refine ⟨ended.running, ended.next, ended.index, fun a low high => ?_, ended.kept,
    fun c low high => entered.timesPerformed loop small low high, fun k before => ?_, ?_⟩
  · exact ended.kept a (loop.body.notMem_storedBy low high)
  · have position : k % (last - first + 1) < last - first + 1 := Nat.mod_lt k (Nat.succ_pos _)
    rw [(entered.within loop small before).next]
    omega
  · rw [instructions_steps, activeSteps_of_running ended.running]

/-- A loop that adds up cells which its index register refers to and stores each sum, entered with
the greatest count, 2147483648, and left for the end of memory. -/
theorem loop_performs_greatest_count :
    let m : Machine :=
      { registers := { index := 2147483648, next := 1 }
        memory := ⟨#[7, 0x03020003, 0x02000000, 0x14000001], by decide⟩ }
    m.memory.Loop 1 3 ∧ m.registers.halted = false ∧ m.registers.next.toNat = 1 ∧
      m.registers.index = .ofNat 2147483648 ∧ 1 ≤ 2147483648 ∧ 2147483648 ≤ 2 ^ 31 ∧
      (step^[2147483648 * (3 - 1 + 1)] m).registers.halted = false ∧
      (step^[2147483648 * (3 - 1 + 1)] m).registers.next.toNat = 4 ∧
      (step^[2147483648 * (3 - 1 + 1)] m).registers.index = 0 ∧
      m.timesPerformed 3 (2147483648 * (3 - 1 + 1)) = 2147483648 := by
  intro m
  have body : m.memory.Straight 1 3 := by
    intro c low high
    obtain rfl | rfl : c = 1 ∨ c = 2 := by omega
    · exact @Plain.calculates _ _ _ .add (by decide) rfl
    · exact .stores (by decide) (by decide) (by decide)
  have loop : m.memory.Loop 1 3 := ⟨by decide, by decide, by decide, body, by decide⟩
  obtain ⟨running, next, index, -, -, times, -⟩ :=
    loop_performs (n := 2147483648) loop rfl rfl rfl (by decide) (by omega)
  exact ⟨loop, rfl, rfl, rfl, by decide, by omega, running, next, index,
    times 3 (by decide) (Nat.le_refl 3)⟩

end Machine

end DirectionCentral

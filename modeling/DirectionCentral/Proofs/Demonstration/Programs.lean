import Mathlib.Algebra.Order.BigOperators.Group.LocallyFinite
import DirectionCentral.Demonstration
import DirectionCentral.Proofs.Machine.Execution

/-!
# The demonstration programs performed

The demonstration programs are performed on arbitrary words: a program is `Ready` when the machine
stands before its first instruction and memory carries all of them. Each loop is passed with an
invariant for every count of the index register; where the loop stores, the invariant says which
words are stored so far. A program is then finished after a fixed number of instructions, with
certain words in its cells.
-/

namespace DirectionCentral

/-- An operation with a direct address. -/
def Operation.on (op : Operation) (address : UInt16) : Instruction := ⟨op.byte, address, false⟩

/-- An operation with an indexed address. -/
def Operation.onIndexed (op : Operation) (address : UInt16) : Instruction :=
  ⟨op.byte, address, true⟩

/-- Store words in cells of the memory of a machine, in the order of the list. -/
def Machine.overwrite (m : Machine) (data : List (UInt64 × Word)) : Machine :=
  data.foldl (fun m cell => m.write cell.1 cell.2) m

namespace Demonstration

open Accumulator Machine

/-- The instructions in the first segments of a program, with their addresses. -/
def listing (d : Demonstration) (code : Nat) : List (UInt64 × Instruction) :=
  (d.image.segments.take code).flatMap fun s =>
    s.words.mapIdx fun offset word => (s.start + .ofNat offset, .decode word)

/-- A machine is about to perform a program whose instructions are in its first segments. -/
structure Ready (d : Demonstration) (code : Nat) (m : Machine) : Prop where
  /-- The machine stands before the first instruction with zero in its registers. -/
  stands : Stands (step^[0] m) 0 0 (.ofNat 0) m.memory
  /-- No instruction was counted. -/
  fresh : m.registers.instructions = 0
  /-- The instructions are in memory. -/
  carries : m.memory.Carries (d.listing code)
  /-- There are cells for all that the demonstration programs refer to. -/
  large : 302 ≤ m.memory.size

variable {m : Machine} {memory : Memory} {budget : Nat}

/-- A program may begin by setting the index register: counting up by more than the limit leads on
to the next instruction. -/
theorem Ready.stands_countUp {d : Demonstration} {code n : Nat} (ready : Ready d code m)
    {i : Instruction} (first : (0, i) ∈ d.listing code) (known : i.operation? = some .txi)
    (increment : i.increment.toNat = n) (limit : i.limit.toNat < n) :
    Stands (step^[1] m) 1 0 (.ofNat n) m.memory := by
  have high : ¬ 0 + i.increment.toNat ≤ i.limit.toNat := by omega
  have small : 0 + i.increment.toNat < 2 ^ 63 := by
    have := i.increment.toNat_lt
    omega
  have counted : Stands (step^[1] m) 1 0 (.ofNat (0 + i.increment.toNat)) m.memory :=
    ready.stands.countUp (ready.carries (0, i) first) known small rfl (if_neg high) fun low =>
      absurd low high
  rwa [Nat.zero_add, increment] at counted

/-! ## The sum of a table -/

/-- The word in cell 200 with those of the cells from `k + 101` to 110 added to it. -/
def partialSum (cell : UInt64 → Word) (k : Nat) : Word :=
  .ofNat ((cell 200).toNat + ∑ a ∈ Finset.Icc (k + 101) 110, (cell (.ofNat a)).toNat)

/-- At first nothing is added. -/
theorem partialSum_ten (cell : UInt64 → Word) : partialSum cell 10 = cell 200 := by
  simp [partialSum]

/-- The cells are added from the last one down. -/
theorem partialSum_eq_add (cell : UInt64 → Word) {k : Nat} (within : k < 10) :
    partialSum cell k = partialSum cell (k + 1) + cell (.ofNat (k + 101)) := by
  have later : Finset.Icc (k + 1 + 101) 110 = Finset.Ioc (k + 101) 110 :=
    Nat.add_right_comm k 101 1 ▸ Finset.Icc_add_one_left_eq_Ioc (k + 101) 110
  have first : k + 101 ≤ 110 := by omega
  rw [partialSum, partialSum, later, ← Finset.sum_Ioc_add_eq_sum_Icc first, ← Nat.add_assoc,
    UInt32.ofNat_add, UInt32.ofNat_toNat]

/-- The machine stands before the loop with a count, or after it with the count zero, and cell 200
holds the sum so far. -/
def Summing (memory : Memory) (k : Nat) (m : Machine) : Prop :=
  ∃ a, Stands m (if 0 < k then 1 else 5) a (.ofNat k)
    (memory.write 200 (partialSum memory.read k))

/-- A pass of the loop adds one more cell. -/
theorem summing_pass (carries : memory.Carries (arraySum.listing 1)) (large : 302 ≤ memory.size)
    (k n : Nat) (within : k < 10) (summing : Summing memory (k + 1) (step^[n] m)) :
    Summing memory k (step^[n + 4] m) := by
  obtain ⟨a, stands⟩ := summing
  -- The table ends before cell 200, so neither the code nor the next entry is stored over.
  have code (word : Word) : (memory.write 200 word).Carries (arraySum.listing 1) :=
    carries.write (by decide) word
  have sum : (memory.write 200 (partialSum memory.read (k + 1))).read 200 =
      partialSum memory.read (k + 1) :=
    Memory.read_write_self (Nat.lt_of_lt_of_le (by decide) large) _
  have other : UInt64.ofNat 200 ≠ .ofNat (k + 101) :=
    ofNat_ne_ofNat (by omega) (by omega) (by omega)
  have entry : (memory.write 200 (partialSum memory.read (k + 1))).read (.ofNat (k + 101)) =
      memory.read (.ofNat (k + 101)) :=
    Memory.read_write_of_ne other _
  have loaded : Stands (step^[n + 1] m) 2 (ofWord (partialSum memory.read (k + 1))) (.ofNat (k + 1))
      (memory.write 200 (partialSum memory.read (k + 1))) :=
    stands.calculate (code _ (1, Operation.lda.on 200) (by decide)) rfl rfl rfl
      (congrArg ofWord sum)
  have added : Stands (step^[n + 2] m) 3 (ofWord (partialSum memory.read k)) (.ofNat (k + 1))
      (memory.write 200 (partialSum memory.read (k + 1))) := by
    have refers : ((Operation.add.onIndexed 100).effectiveAddress (.ofNat (k + 1))).toUInt64 =
        .ofNat (k + 101) :=
      Instruction.toUInt64_effectiveAddress rfl (show k + 1 + 100 < 65536 by omega)
    refine loaded.calculate (code _ (2, Operation.add.onIndexed 100) (by decide)) rfl rfl refers ?_
    rw [entry, partialSum_eq_add _ within]
    rfl
  have stored : Stands (step^[n + 3] m) 4 (ofWord (partialSum memory.read k)) (.ofNat (k + 1))
      (memory.write 200 (partialSum memory.read k)) := by
    rw [← memory.write_write 200 (partialSum memory.read (k + 1))]
    exact added.store (code _ (3, Operation.sto.on 200) (by decide)) rfl rfl
  exact ⟨_, stored.countDown (code _ (4, Operation.tix.on 1) (by decide)) rfl (by omega) rfl
    (by rw [Memory.size_write]; exact Nat.le_trans (by decide) large)⟩

/-- The first program adds the cells from 101 to 110 to cell 200. -/
theorem finished_arraySum (ready : Ready arraySum 1 m) (enough : 42 ≤ budget) :
    Finished m 42 (m.memory.store [(200, partialSum m.memory.read 0)]) (m.run budget) := by
  have start : Summing m.memory 10 (step^[1] m) := by
    refine ⟨0, ?_⟩
    rw [partialSum_ten, Memory.write_read]
    exact ready.stands_countUp (show (0, Operation.txi.on 2560) ∈ _ by decide) rfl rfl (by decide)
  obtain ⟨a, stands⟩ := passes (summing_pass ready.carries ready.large) (Nat.le_refl 10) start
  have code := ready.carries.write (show 200 ∉ (arraySum.listing 1).map Prod.fst by decide)
    (partialSum m.memory.read 0)
  exact stands.halts (code (5, Operation.hlt.on 0) (by decide)) rfl enough

/-! ## Repeated addition -/

/-- A multiple of a word. -/
def times (word : Word) (j : Nat) : Word := .ofNat (j * word.toNat)

/-- No word at all is zero. -/
theorem ofWord_times_zero (word : Word) : ofWord (times word 0) = 0 := by
  simp [times, ofWord]

/-- The next multiple is the word more. -/
theorem add_times (word : Word) (j : Nat) :
    add (ofWord (times word j)) (ofWord word) = ofWord (times word (j + 1)) := by
  have more : times word (j + 1) = times word j + word := by
    rw [times, times, Nat.succ_mul, UInt32.ofNat_add, UInt32.ofNat_toNat]
  rw [more]
  rfl

/-- The accumulator holds a multiple of cell 200, and the multiple and the count make six. -/
def Multiplying (memory : Memory) (k : Nat) (m : Machine) : Prop :=
  ∃ j, j + k = 6 ∧ Stands m (if 0 < k then 1 else 3) (ofWord (times (memory.read 200) j)) (.ofNat k)
    memory

/-- A pass of the loop adds the cell once more. -/
theorem multiplying_pass (carries : memory.Carries (multiply.listing 1)) (large : 302 ≤ memory.size)
    (k n : Nat) (within : k < 6) (multiplying : Multiplying memory (k + 1) (step^[n] m)) :
    Multiplying memory k (step^[n + 2] m) := by
  obtain ⟨j, total, stands⟩ := multiplying
  have added : Stands (step^[n + 1] m) 2 (ofWord (times (memory.read 200) (j + 1))) (.ofNat (k + 1))
      memory :=
    stands.calculate (carries (1, Operation.add.on 200) (by decide)) rfl rfl rfl (add_times _ j)
  exact ⟨j + 1, by omega, added.countDown (carries (2, Operation.tix.on 1) (by decide)) rfl
    (by omega) rfl (Nat.le_trans (by decide) large)⟩

/-- The second program adds cell 200 six times. -/
theorem finished_multiply (ready : Ready multiply 1 m) (enough : 15 ≤ budget) :
    Finished m 15 (m.memory.store [(201, times (m.memory.read 200) 6)]) (m.run budget) := by
  have start : Multiplying m.memory 6 (step^[1] m) := by
    refine ⟨0, rfl, ?_⟩
    rw [ofWord_times_zero]
    exact ready.stands_countUp (show (0, Operation.txi.on 1536) ∈ _ by decide) rfl rfl (by decide)
  obtain ⟨j, total, stands⟩ :=
    passes (multiplying_pass ready.carries ready.large) (Nat.le_refl 6) start
  obtain rfl : j = 6 := total
  have stored : Stands (step^[14] m) 4 (ofWord (times (m.memory.read 200) 6)) (.ofNat 0)
      (m.memory.store [(201, times (m.memory.read 200) 6)]) :=
    stands.store (ready.carries (3, Operation.sto.on 201) (by decide)) rfl rfl
  have code := ready.carries.write (show 201 ∉ (multiply.listing 1).map Prod.fst by decide)
    (times (m.memory.read 200) 6)
  exact stored.halts (code (4, Operation.hlt.on 0) (by decide)) rfl enough

/-- The machine stands before the counting instruction, and the accumulator holds as many times cell
301 as the index register counts. The passes that are left make five with it. -/
def Counting (memory : Memory) (k : Nat) (m : Machine) : Prop :=
  ∃ j, j + k = 5 ∧ Stands m 0 (ofWord (times (memory.read 301) j)) (.ofNat j) memory

/-- A pass counts one more and adds the cell once more. -/
theorem counting_pass (carries : memory.Carries (countUp.listing 2)) (large : 302 ≤ memory.size)
    (k n : Nat) (within : k < 5) (counting : Counting memory (k + 1) (step^[n] m)) :
    Counting memory k (step^[n + 3] m) := by
  obtain ⟨j, total, stands⟩ := counting
  have body : (261 : UInt64).toNat ≤ memory.size := Nat.le_trans (by decide) large
  have counted : Stands (step^[n + 1] m) 261 (ofWord (times (memory.read 301) j)) (.ofNat (j + 1))
      memory :=
    stands.countUp (carries (0, Operation.txi.on 261) (by decide)) rfl
      (show j + 1 < 2 ^ 63 by omega) rfl (if_pos (show j + 1 ≤ 5 by omega)) fun _ => body
  have added : Stands (step^[n + 2] m) 262 (ofWord (times (memory.read 301) (j + 1)))
      (.ofNat (j + 1)) memory :=
    counted.calculate (carries (261, Operation.add.on 301) (by decide)) rfl rfl rfl (add_times _ j)
  exact ⟨j + 1, by omega,
    added.transfer (carries (262, Operation.tra.on 0) (by decide)) rfl rfl (Nat.zero_le _)⟩

/-- The fifth program adds cell 301 five times. -/
theorem finished_countUp (ready : Ready countUp 2 m) (enough : 18 ≤ budget) :
    Finished m 18 (m.memory.store [(300, times (m.memory.read 301) 5)]) (m.run budget) := by
  have start : Counting m.memory 5 (step^[0] m) := by
    refine ⟨0, rfl, ?_⟩
    rw [ofWord_times_zero]
    exact ready.stands
  obtain ⟨j, total, stands⟩ :=
    passes (counting_pass ready.carries ready.large) (Nat.le_refl 5) start
  obtain rfl : j = 5 := total
  -- The sixth count is above the limit, so the program leaves the loop.
  have left : Stands (step^[16] m) 1 (ofWord (times (m.memory.read 301) 5)) (.ofNat 6) m.memory :=
    stands.countUp (ready.carries (0, Operation.txi.on 261) (by decide)) rfl (by decide) rfl rfl
      fun low => absurd low (by decide)
  have stored : Stands (step^[17] m) 2 (ofWord (times (m.memory.read 301) 5)) (.ofNat 6)
      (m.memory.store [(300, times (m.memory.read 301) 5)]) :=
    left.store (ready.carries (1, Operation.sto.on 300) (by decide)) rfl rfl
  have code := ready.carries.write (show 300 ∉ (countUp.listing 2).map Prod.fst by decide)
    (times (m.memory.read 301) 5)
  exact stored.halts (code (2, Operation.hlt.on 0) (by decide)) rfl enough

/-! ## A subroutine -/

/-- The third program squares cell 200 in a subroutine. -/
theorem finished_subroutine (ready : Ready subroutine 2 m) (enough : 6 ≤ budget) :
    Finished m 6 (m.memory.store [(201, m.memory.read 200 * m.memory.read 200)])
      (m.run budget) := by
  have carries := ready.carries
  have inside (address : UInt64) (low : address.toNat ≤ 302) : address.toNat ≤ m.memory.size :=
    Nat.le_trans low ready.large
  have loaded : Stands (step^[1] m) 1 (ofWord (m.memory.read 200)) (.ofNat 0) m.memory :=
    ready.stands.calculate (carries (0, Operation.lda.on 200) (by decide)) rfl rfl rfl rfl
  have called : Stands (step^[2] m) 10 (ofWord (m.memory.read 200)) (.ofNat 2) m.memory :=
    loaded.call (carries (1, Operation.tsx.on 10) (by decide)) rfl rfl (inside 10 (by decide))
  have squared : Stands (step^[3] m) 11 (ofWord (m.memory.read 200 * m.memory.read 200)) (.ofNat 2)
      m.memory :=
    called.calculate (carries (10, Operation.mpy.on 200) (by decide)) rfl rfl rfl rfl
  have returned : Stands (step^[4] m) 2 (ofWord (m.memory.read 200 * m.memory.read 200)) (.ofNat 2)
      m.memory :=
    squared.transfer (carries (11, Operation.tra.onIndexed 0) (by decide)) rfl rfl
      (inside 2 (by decide))
  have stored : Stands (step^[5] m) 3 (ofWord (m.memory.read 200 * m.memory.read 200)) (.ofNat 2)
      (m.memory.store [(201, m.memory.read 200 * m.memory.read 200)]) :=
    returned.store (carries (2, Operation.sto.on 201) (by decide)) rfl rfl
  have code := carries.write (show 201 ∉ (subroutine.listing 2).map Prod.fst by decide)
    (m.memory.read 200 * m.memory.read 200)
  exact stored.halts (code (3, Operation.hlt.on 0) (by decide)) rfl enough

/-! ## A block copied -/

/-- The cells from `k + 120` to 127 with the words from twenty cells before. -/
def copied (cell : UInt64 → Word) (k : Nat) : List (UInt64 × Word) :=
  (List.range' k (8 - k)).map fun j => (.ofNat (j + 120), cell (.ofNat (j + 100)))

/-- The cells are copied from the last one down. -/
theorem copied_eq_cons (cell : UInt64 → Word) {k : Nat} (within : k < 8) :
    copied cell k = (.ofNat (k + 120), cell (.ofNat (k + 100))) :: copied cell (k + 1) := by
  have left : 8 - k = 8 - (k + 1) + 1 := by omega
  rw [copied, left, List.range'_succ]
  rfl

/-- The cells are among eight. -/
theorem exists_of_mem_copied {cell : UInt64 → Word} {k : Nat} {a : UInt64}
    (copy : a ∈ (copied cell k).map Prod.fst) : ∃ j < 8, .ofNat (j + 120) = a := by
  obtain ⟨entry, listed, rfl⟩ := List.mem_map.1 copy
  obtain ⟨j, range, rfl⟩ := List.mem_map.1 listed
  exact ⟨j, by rw [List.mem_range'_1] at range; omega, rfl⟩

/-- The copies are not made over the instructions. -/
theorem carries_copied (carries : memory.Carries (blockCopy.listing 1)) (cell : UInt64 → Word)
    (k : Nat) : (memory.store (copied cell k)).Carries (blockCopy.listing 1) := by
  refine carries.store fun entry listed => ?_
  obtain ⟨j, small, same⟩ := exists_of_mem_copied (List.mem_map_of_mem listed)
  have elsewhere : ∀ j < 8, UInt64.ofNat (j + 120) ∉ (blockCopy.listing 1).map Prod.fst := by decide
  rw [← same]
  exact elsewhere j small

/-- The machine stands before the loop with a count, or after it with the count zero, and the cells
from the count on are copied. -/
def Copying (memory : Memory) (k : Nat) (m : Machine) : Prop :=
  ∃ a, Stands m (if 0 < k then 1 else 4) a (.ofNat k) (memory.store (copied memory.read k))

/-- A pass of the loop copies one more cell. -/
theorem copying_pass (carries : memory.Carries (blockCopy.listing 1)) (large : 302 ≤ memory.size)
    (k n : Nat) (within : k < 8) (copying : Copying memory (k + 1) (step^[n] m)) :
    Copying memory k (step^[n + 3] m) := by
  obtain ⟨a, stands⟩ := copying
  have code := carries_copied carries memory.read
  have source : (memory.store (copied memory.read (k + 1))).read (.ofNat (k + 100)) =
      memory.read (.ofNat (k + 100)) := by
    refine Memory.read_store_of_notMem fun copy => ?_
    obtain ⟨j, small, same⟩ := exists_of_mem_copied copy
    exact ofNat_ne_ofNat (by omega) (by omega) (by omega) same
  have loaded : Stands (step^[n + 1] m) 2 (ofWord (memory.read (.ofNat (k + 100)))) (.ofNat (k + 1))
      (memory.store (copied memory.read (k + 1))) := by
    have refers : ((Operation.lda.onIndexed 99).effectiveAddress (.ofNat (k + 1))).toUInt64 =
        .ofNat (k + 100) :=
      Instruction.toUInt64_effectiveAddress rfl (show k + 1 + 99 < 65536 by omega)
    exact stands.calculate (code _ (1, Operation.lda.onIndexed 99) (by decide)) rfl rfl refers
      (congrArg ofWord source)
  have stored : Stands (step^[n + 2] m) 3 (ofWord (memory.read (.ofNat (k + 100)))) (.ofNat (k + 1))
      (memory.store (copied memory.read k)) := by
    have refers : ((Operation.sto.onIndexed 119).effectiveAddress (.ofNat (k + 1))).toUInt64 =
        .ofNat (k + 120) :=
      Instruction.toUInt64_effectiveAddress rfl (show k + 1 + 119 < 65536 by omega)
    rw [copied_eq_cons _ within]
    exact loaded.store (code _ (2, Operation.sto.onIndexed 119) (by decide)) rfl refers
  exact ⟨_, stored.countDown (code _ (3, Operation.tix.on 1) (by decide)) rfl (by omega) rfl
    (by rw [Memory.size_store]; exact Nat.le_trans (by decide) large)⟩

/-- The fourth program copies the cells from 100 to 107. -/
theorem finished_blockCopy (ready : Ready blockCopy 1 m) (enough : 26 ≤ budget) :
    Finished m 26 (m.memory.store (copied m.memory.read 0)) (m.run budget) := by
  have start : Copying m.memory 8 (step^[1] m) :=
    ⟨0, ready.stands_countUp (show (0, Operation.txi.on 2048) ∈ _ by decide) rfl rfl (by decide)⟩
  obtain ⟨a, stands⟩ := passes (copying_pass ready.carries ready.large) (Nat.le_refl 8) start
  have code := carries_copied ready.carries m.memory.read 0
  exact stands.halts (code (4, Operation.hlt.on 0) (by decide)) rfl enough

/-! ## Two quotients -/

/-- The word of a quotient of words. -/
def quotient (v w : Word) : Word := toWord (divide (ofWord v) (ofWord w))

/-- The last program divides cell 200 by cell 201 and by cell 203. -/
theorem finished_division (ready : Ready division 1 m) (enough : 7 ≤ budget) :
    Finished m 7
      (m.memory.store [(202, quotient (m.memory.read 200) (m.memory.read 201)),
        (204, quotient (m.memory.read 200) (m.memory.read 203))])
      (m.run budget) := by
  let first := divide (ofWord (m.memory.read 200)) (ofWord (m.memory.read 201))
  let second := divide (ofWord (m.memory.read 200)) (ofWord (m.memory.read 203))
  let between := m.memory.write 202 (toWord first)
  have carries := ready.carries
  have code : between.Carries (division.listing 1) := carries.write (by decide) _
  have kept {a : UInt64} (other : 202 ≠ a) : between.read a = m.memory.read a :=
    Memory.read_write_of_ne other _
  have loaded : Stands (step^[1] m) 1 (ofWord (m.memory.read 200)) (.ofNat 0) m.memory :=
    ready.stands.calculate (carries (0, Operation.lda.on 200) (by decide)) rfl rfl rfl rfl
  have divided : Stands (step^[2] m) 2 first (.ofNat 0) m.memory :=
    loaded.calculate (carries (1, Operation.dvh.on 201) (by decide)) rfl rfl rfl rfl
  have stored : Stands (step^[3] m) 3 first (.ofNat 0) between :=
    divided.store (carries (2, Operation.sto.on 202) (by decide)) rfl rfl
  have again : Stands (step^[4] m) 4 (ofWord (m.memory.read 200)) (.ofNat 0) between :=
    stored.calculate (code (3, Operation.lda.on 200) (by decide)) rfl rfl rfl
      (congrArg ofWord (kept (by decide)))
  have rest : divide (ofWord (m.memory.read 200)) (ofWord (between.read 203)) = second := by
    rw [kept (by decide)]
  have dividedAgain : Stands (step^[5] m) 5 second (.ofNat 0) between :=
    again.calculate (code (4, Operation.dvh.on 203) (by decide)) rfl rfl rfl rest
  have storedAgain : Stands (step^[6] m) 6 second (.ofNat 0) (between.write 204 (toWord second)) :=
    dividedAgain.store (code (5, Operation.sto.on 204) (by decide)) rfl rfl
  have code := code.write (show 204 ∉ (division.listing 1).map Prod.fst by decide) (toWord second)
  have finished := storedAgain.halts (code (6, Operation.hlt.on 0) (by decide)) rfl enough
  -- The first of the stores in a list is made last, but here the results are in the order of the
  -- addresses.
  rwa [m.memory.write_comm (by decide)] at finished

end Demonstration

end DirectionCentral

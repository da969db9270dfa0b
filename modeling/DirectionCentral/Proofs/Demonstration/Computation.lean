import DirectionCentral.Proofs.Demonstration.Programs
import DirectionCentral.Proofs.Workbench.Repetition

/-!
# What the demonstration programs compute

Each demonstration program computes a function of the words in its data cells: a sum, a product, a
square, a copy, a multiple, two quotients. A program `Performs` a function when it is finished with
the results in their cells from any machine that is ready for it. A machine is ready after a reset,
whatever was in memory before (`ready_prepare`), and stays so whatever is then stored outside the
instructions (`Ready.overwrite`). So the programs compute their functions on all data
(`computes_on_all_data`).
-/

namespace DirectionCentral

namespace Demonstration

open Accumulator Machine

/-- A run has halted without a fault after so many instructions, and of the cells only those of the
results have changed. -/
structure Leaves (start : Machine) (count : Nat) (results : List (UInt64 × Word))
    (final : Machine) : Prop where
  /-- The machine has halted. -/
  halted : final.registers.halted = true
  /-- There was no fault. -/
  diagnostic : final.diagnostic = none
  /-- The instructions that were performed. -/
  instructions : final.registers.instructions = .ofNat count
  /-- The results are in their cells. -/
  stored : ∀ cell ∈ results, final.memory.read cell.1 = cell.2
  /-- The other cells hold what they held. -/
  others : ∀ a, a ∉ results.map Prod.fst → final.memory.read a = start.memory.read a
  /-- The number of cells is the same. -/
  size : final.memory.size = start.memory.size

/-- On a machine that is reset and has the program loaded, whatever words are then stored outside
its instructions, which are in the first segments, a run leaves the results of the words in its
cells. -/
def ComputesOn (d : Demonstration) (m : Machine) (code count : Nat)
    (results : (UInt64 → Word) → List (UInt64 × Word)) : Prop :=
  ∀ data : List (UInt64 × Word), (∀ cell ∈ data, cell.1 ∉ (d.listing code).map Prod.fst) →
    let start := (d.prepare m).overwrite data
    Leaves start count (results start.memory.read) (start.run budget)

/-- A program whose instructions are in its first segments stores the results of the words in its
cells. -/
structure Performs (d : Demonstration) (code count : Nat)
    (results : (UInt64 → Word) → List (UInt64 × Word)) : Prop where
  /-- The image has the instructions where they are listed. -/
  covered : ((d.listing code).all fun entry =>
    entry.1.toNat < 302 ∧ (d.image.wordAt? entry.1).map .decode = some entry.2) = true
  /-- A run is finished with the results stored. -/
  finished : ∀ m, d.Ready code m →
    Finished m count (m.memory.store (results m.memory.read)) (m.run budget)
  /-- The cells of the results are the same for all words. -/
  places : ∀ cell, (results cell).map Prod.fst = (results fun _ => 0).map Prod.fst
  /-- They are different cells. -/
  distinct : ((results fun _ => 0).map Prod.fst).Nodup
  /-- There are such cells. -/
  inside : (((results fun _ => 0).map Prod.fst).all fun a => a.toNat < 302) = true

variable {d : Demonstration} {m : Machine} {code count : Nat}
  {results : (UInt64 → Word) → List (UInt64 × Word)}

/-! ## Ready for a program -/

/-- A cell for which the image has a word holds this word once the program is loaded. -/
theorem read_prepare (large : 302 ≤ m.memory.size) {a : UInt64} {word : Word}
    (here : d.image.wordAt? a = some word) (low : a.toNat < 302) :
    (d.prepare m).memory.read a = word := by
  have loaded := m.read_freshly d.image (Nat.lt_of_lt_of_le low large)
  rwa [here, Option.getD_some] at loaded

/-- After a reset a machine is ready for the program that is loaded. -/
theorem ready_prepare (performs : d.Performs code count results) (large : 302 ≤ m.memory.size) :
    d.Ready code (d.prepare m) := by
  have fresh : d.prepare m =
      { memory := (d.prepare m).memory, trace := { enabled := m.trace.enabled } } :=
    m.freshly_eq d.image
  have size : (d.prepare m).memory.size = m.memory.size := m.size_freshly d.image
  have registers : (d.prepare m).registers = {} := congrArg Machine.registers fresh
  refine ⟨?_, by rw [registers], fun entry listed => ?_, by rwa [size]⟩
  · exact ⟨by rw [Function.iterate_zero_apply, registers], congrArg _ registers,
      congrArg _ registers, congrArg _ registers, rfl, congrArg Machine.diagnostic fresh⟩
  · have covered := List.all_eq_true.1 performs.covered entry listed
    obtain ⟨low, coded⟩ := of_decide_eq_true covered
    obtain ⟨word, here, decoded⟩ := Option.map_eq_some_iff.1 coded
    exact ⟨by rw [size]; exact Nat.lt_of_lt_of_le low large,
      by rw [read_prepare large here low, decoded]⟩

/-- A store outside the instructions leaves a machine ready. -/
theorem Ready.write (ready : d.Ready code m) {a : UInt64}
    (elsewhere : a ∉ (d.listing code).map Prod.fst) (word : Word) : d.Ready code (m.write a word) :=
  ⟨{ ready.stands with memory := rfl }, ready.fresh, ready.carries.write elsewhere word,
    by rw [Machine.write, Memory.size_write]; exact ready.large⟩

/-- Stores outside the instructions leave a machine ready. -/
theorem Ready.overwrite (ready : d.Ready code m) {data : List (UInt64 × Word)}
    (elsewhere : ∀ cell ∈ data, cell.1 ∉ (d.listing code).map Prod.fst) :
    d.Ready code (m.overwrite data) := by
  induction data generalizing m with
  | nil => exact ready
  | cons cell rest ih =>
    obtain ⟨first, later⟩ := List.forall_mem_cons.1 elsewhere
    exact ih (ready.write first cell.2) later

/-! ## The functions -/

/-- What a ready machine leaves. -/
theorem Performs.leaves (performs : d.Performs code count results) (ready : d.Ready code m) :
    Leaves m count (results m.memory.read) (m.run budget) := by
  have finished := performs.finished m ready
  refine ⟨finished.halted, finished.diagnostic, ?_, fun cell listed => ?_, fun a other => ?_, ?_⟩
  · rw [finished.instructions, ready.fresh, UInt64.zero_add]
  · have place := List.mem_map_of_mem (f := Prod.fst) listed
    rw [performs.places] at place
    have low : cell.1.toNat < 302 :=
      of_decide_eq_true (List.all_eq_true.1 performs.inside cell.1 place)
    have distinct : ((results m.memory.read).map Prod.fst).Nodup := by
      rw [performs.places]
      exact performs.distinct
    rw [finished.memory]
    exact Memory.read_store_of_mem distinct listed (Nat.lt_of_lt_of_le low ready.large)
  · rw [finished.memory, Memory.read_store_of_notMem other]
  · rw [finished.memory, Memory.size_store]

/-- What a program performs it computes on all data. -/
theorem Performs.computesOn (performs : d.Performs code count results)
    (large : 302 ≤ m.memory.size) : d.ComputesOn m code count results :=
  fun _ elsewhere => performs.leaves ((ready_prepare performs large).overwrite elsewhere)

/-- The sum of a table. -/
theorem performs_arraySum : arraySum.Performs 1 42 fun cell => [(200, partialSum cell 0)] where
  covered := by decide
  finished _ ready := finished_arraySum ready (by decide)
  places _ := by simp only [List.map_cons, List.map_nil]
  distinct := by decide
  inside := by decide

/-- The product by six. -/
theorem performs_multiply : multiply.Performs 1 15 fun cell => [(201, times (cell 200) 6)] where
  covered := by decide
  finished _ ready := finished_multiply ready (by decide)
  places _ := rfl
  distinct := by decide
  inside := by decide

/-- The square. -/
theorem performs_subroutine :
    subroutine.Performs 2 6 fun cell => [(201, cell 200 * cell 200)] where
  covered := by decide
  finished _ ready := finished_subroutine ready (by decide)
  places _ := rfl
  distinct := by decide
  inside := by decide

/-- The copy of eight words. -/
theorem performs_blockCopy : blockCopy.Performs 1 26 fun cell => copied cell 0 where
  covered := by decide
  finished _ ready := finished_blockCopy ready (by decide)
  places _ := rfl
  distinct := by decide
  inside := by decide

/-- The multiple by five. -/
theorem performs_countUp : countUp.Performs 2 18 fun cell => [(300, times (cell 301) 5)] where
  covered := by decide
  finished _ ready := finished_countUp ready (by decide)
  places _ := rfl
  distinct := by decide
  inside := by decide

/-- The two quotients. -/
theorem performs_division :
    division.Performs 1 7 fun cell =>
      [(202, quotient (cell 200) (cell 201)), (204, quotient (cell 200) (cell 203))] where
  covered := by decide
  finished _ ready := finished_division ready (by decide)
  places _ := rfl
  distinct := by decide
  inside := by decide

/-- The demonstration programs compute their functions on all data. A machine of at least 302 cells
is reset, whatever it did before, the program is loaded and words are stored outside its
instructions. Then it halts without a fault, and but for the results no cell changes: the sum of the
cells from 101 to 110 added to cell 200; cell 200 times six; the square of cell 200; eight copied
cells; cell 301 times five; and the quotients of cell 200 by cells 201 and 203. -/
theorem computes_on_all_data (m : Machine) (large : 302 ≤ m.memory.size) :
    (arraySum.ComputesOn m 1 42 fun cell =>
      [(200, .ofNat ((cell 200).toNat + ∑ a ∈ Finset.Icc 101 110, (cell (.ofNat a)).toNat))]) ∧
    (multiply.ComputesOn m 1 15 fun cell => [(201, .ofNat (6 * (cell 200).toNat))]) ∧
    (subroutine.ComputesOn m 2 6 fun cell => [(201, .ofNat ((cell 200).toNat ^ 2))]) ∧
    (blockCopy.ComputesOn m 1 26 fun cell =>
      (List.range 8).map fun j => (.ofNat (120 + j), cell (.ofNat (100 + j)))) ∧
    (countUp.ComputesOn m 2 18 fun cell => [(300, .ofNat (5 * (cell 301).toNat))]) ∧
    (division.ComputesOn m 1 7 fun cell =>
      [(202, toWord (divide (ofWord (cell 200)) (ofWord (cell 201)))),
        (204, toWord (divide (ofWord (cell 200)) (ofWord (cell 203))))]) := by
  have square (word : Word) : word * word = .ofNat (word.toNat ^ 2) := by
    rw [Nat.pow_two, UInt32.ofNat_mul, UInt32.ofNat_toNat]
  refine ⟨performs_arraySum.computesOn large, performs_multiply.computesOn large, ?_, ?_,
    performs_countUp.computesOn large, performs_division.computesOn large⟩
  · simpa only [square] using performs_subroutine.computesOn large
  · exact performs_blockCopy.computesOn large

/-- A machine that has halted, with a one in each of 302 cells. -/
def littered : Machine where
  registers := { accumulator := 5, index := 7, next := 9, halted := true }
  memory := ⟨Array.replicate 302 1, by rw [Array.size_replicate]; decide⟩
  diagnostic := some "out of order"

/-- It has enough cells for the demonstrations. -/
theorem large_littered : 302 ≤ littered.memory.size := Nat.le_of_eq Array.size_replicate.symm

/-- On it the sum of 5, of the greatest word, of the words from cell 102 to cell 109 and of 2 is 266
modulo `2 ^ 32`. -/
theorem computes_on_all_data_littered :
    let start := (arraySum.prepare littered).overwrite [(200, 5), (101, 4294967295), (110, 2)]
    302 ≤ littered.memory.size ∧ (start.run budget).registers.halted = true ∧
      (start.run budget).registers.instructions = 42 ∧
      (start.run budget).memory.read 200 = 266 ∧ (start.run budget).memory.read 201 = 1 := by
  intro start
  have elsewhere : ∀ cell ∈ [((200 : UInt64), (5 : Word)), (101, 4294967295), (110, 2)],
      cell.1 ∉ (arraySum.listing 1).map Prod.fst :=
    List.forall_mem_cons.2 ⟨by decide, List.forall_mem_cons.2 ⟨by decide,
      List.forall_mem_singleton.2 (by decide)⟩⟩
  have leaves : Leaves start 42 _ (start.run budget) :=
    (computes_on_all_data littered large_littered).1 _ elsewhere
  exact ⟨large_littered, leaves.halted, leaves.instructions,
    (leaves.stored _ (List.mem_singleton_self _)).trans (by decide +kernel),
    (leaves.others 201 (by simp)).trans (by decide +kernel)⟩

end Demonstration

end DirectionCentral

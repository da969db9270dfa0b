import DirectionCentral.Proofs.Demonstration.Computation

/-!
# The verdict on a demonstration

A demonstration is judged by the words in certain cells after its run. The run begins with a reset,
which leaves memory as it was, so the verdict can depend on what the machine held before. It does
not if the image has a word for every cell on which the results depend (`Determined`): then the
words are those expected. This holds of all programs but the sum of a table, which adds cell 110
although its image has no word there. What it leaves is the sum expected and the word that was left
in cell 110 (`mismatches_arraySum`).
-/

namespace DirectionCentral

namespace Demonstration

open Accumulator Machine

variable {d : Demonstration} {m : Machine} {code count : Nat}
  {results : (UInt64 → Word) → List (UInt64 × Word)}

/-- The cells hold the words that the image has for them. -/
def Loaded (d : Demonstration) (cell : UInt64 → Word) : Prop :=
  ∀ a word, a.toNat < 302 → d.image.wordAt? a = some word → cell a = word

/-- The words of the image determine the results, and these are the words expected. -/
def Determined (d : Demonstration) (results : (UInt64 → Word) → List (UInt64 × Word)) : Prop :=
  ∀ cell, d.Loaded cell → results cell = d.expected

/-- A cell for which the image has a word holds this word. -/
theorem Loaded.eq_getD {cell : UInt64 → Word} (loaded : d.Loaded cell) {a : UInt64}
    (low : a.toNat < 302) (some : (d.image.wordAt? a).isSome = true) :
    cell a = (d.image.wordAt? a).getD 0 := by
  obtain ⟨word, here⟩ := Option.isSome_iff_exists.1 some
  rw [loaded a word low here, here, Option.getD_some]

/-- After a reset the words of the image are in their cells. -/
theorem loaded_prepare (large : 302 ≤ m.memory.size) : d.Loaded (d.prepare m).memory.read :=
  fun _ _ low here => read_prepare large here low

/-- If all cells hold the words expected, there is no mismatch. -/
theorem mismatches_eq_nil (meets : ∀ cell ∈ d.expected, m.memory.read cell.1 = cell.2) :
    d.mismatches m = [] :=
  List.filterMap_eq_nil_iff.2 fun cell listed => if_pos (meets cell listed)

/-- What a run of a demonstration leaves. -/
theorem Performs.leaves_runOn (performs : d.Performs code count results)
    (large : 302 ≤ m.memory.size) :
    Leaves (d.prepare m) count (results (d.prepare m).memory.read) (d.runOn m budget) :=
  performs.leaves (ready_prepare performs large)

/-- A program whose results are determined leaves no mismatch. -/
theorem Performs.mismatches_runOn (performs : d.Performs code count results)
    (determined : d.Determined results) (large : 302 ≤ m.memory.size) :
    d.mismatches (d.runOn m budget) = [] := by
  have leaves := performs.leaves_runOn large
  rw [determined _ (loaded_prepare large)] at leaves
  exact mismatches_eq_nil leaves.stored

/-! ## The programs -/

/-- The product by six is that of 7. -/
theorem determined_multiply : multiply.Determined fun cell => [(201, times (cell 200) 6)] := by
  intro cell loaded
  have factor : cell 200 = 7 := loaded 200 7 (by decide) (by decide)
  simp only [factor]
  decide

/-- The square is that of 12. -/
theorem determined_subroutine : subroutine.Determined fun cell => [(201, cell 200 * cell 200)] := by
  intro cell loaded
  have root : cell 200 = 12 := loaded 200 12 (by decide) (by decide)
  simp only [root]
  decide

/-- The words that are copied are those of the image. -/
theorem determined_blockCopy : blockCopy.Determined fun cell => copied cell 0 := by
  intro cell loaded
  have table : ∀ j < 8, (UInt64.ofNat (j + 100)).toNat < 302 ∧
      (blockCopy.image.wordAt? (.ofNat (j + 100))).isSome = true := by decide
  have image : copied cell 0 = copied (fun a => (blockCopy.image.wordAt? a).getD 0) 0 := by
    refine List.map_congr_left fun j range => ?_
    obtain ⟨low, some⟩ := table j (by rw [List.mem_range'_1] at range; omega)
    rw [loaded.eq_getD low some]
  exact image.trans (by decide)

/-- The multiple by five is that of 3. -/
theorem determined_countUp : countUp.Determined fun cell => [(300, times (cell 301) 5)] := by
  intro cell loaded
  have factor : cell 301 = 3 := loaded 301 3 (by decide) (by decide)
  simp only [factor]
  decide

/-- The quotients are those of 100 by 0 and by 7. -/
theorem determined_division :
    division.Determined fun cell =>
      [(202, quotient (cell 200) (cell 201)), (204, quotient (cell 200) (cell 203))] := by
  intro cell loaded
  have dividend : cell 200 = 100 := loaded 200 100 (by decide) (by decide)
  have zero : cell 201 = 0 := loaded 201 0 (by decide) (by decide)
  have divisor : cell 203 = 7 := loaded 203 7 (by decide) (by decide)
  simp only [dividend, zero, divisor]
  decide

/-- The sum of the table is that of the image and the word in cell 110. -/
theorem partialSum_of_loaded {cell : UInt64 → Word} (loaded : arraySum.Loaded cell) :
    partialSum cell 0 = 270 + cell 110 := by
  have zero : cell 200 = 0 := loaded 200 0 (by decide) (by decide)
  -- The image has words for all cells of the sum but the last one.
  have table : ∀ a < 110, 101 ≤ a → (UInt64.ofNat a).toNat < 302 ∧
      (arraySum.image.wordAt? (.ofNat a)).isSome = true := by decide +kernel
  have image : ∑ a ∈ Finset.Icc 101 109, (cell (.ofNat a)).toNat =
      ∑ a ∈ Finset.Icc 101 109, ((arraySum.image.wordAt? (.ofNat a)).getD 0).toNat := by
    refine Finset.sum_congr rfl fun a range => ?_
    obtain ⟨first, last⟩ := Finset.mem_Icc.1 range
    obtain ⟨low, some⟩ := table a (by omega) first
    rw [loaded.eq_getD low some]
  have sum :
      ∑ a ∈ Finset.Icc 101 109, ((arraySum.image.wordAt? (.ofNat a)).getD 0).toNat = 270 := by
    decide +kernel
  have last : ∑ a ∈ Finset.Icc 101 110, (cell (.ofNat a)).toNat =
      ∑ a ∈ Finset.Icc 101 109, (cell (.ofNat a)).toNat + (cell 110).toNat :=
    Finset.sum_Icc_succ_top (by decide) _
  rw [partialSum, Nat.zero_add, last, image, sum, zero, UInt32.toNat_zero, Nat.zero_add,
    UInt32.ofNat_add, UInt32.ofNat_toNat]
  rfl

/-- The verdict on the sum of a table depends on the word that the machine held in cell 110. -/
theorem mismatches_arraySum (large : 302 ≤ m.memory.size) :
    arraySum.mismatches (arraySum.runOn m budget) =
      if m.memory.read 110 = 0 then [] else [⟨200, 270, 270 + m.memory.read 110⟩] := by
  have leaves := performs_arraySum.leaves_runOn large
  have kept : (arraySum.prepare m).memory.read 110 = m.memory.read 110 :=
    m.read_freshly arraySum.image (Nat.lt_of_lt_of_le (by decide) large)
  have sum : (arraySum.runOn m budget).memory.read 200 = 270 + m.memory.read 110 := by
    rw [← kept, ← partialSum_of_loaded (loaded_prepare large)]
    exact leaves.stored _ (List.mem_singleton_self _)
  have right : 270 + m.memory.read 110 = 270 ↔ m.memory.read 110 = 0 := UInt32.add_eq_left
  have expected : arraySum.expected = [(200, 270)] := rfl
  simp only [mismatches, expected, List.filterMap_cons, List.filterMap_nil, sum, right]
  by_cases zero : m.memory.read 110 = 0
  · simp only [if_pos zero]
  · simp only [if_neg zero]

/-- Whatever a machine of at least 302 cells held before, every demonstration halts on it without a
fault, and all but the sum of a table leave the words expected. The sum of a table does if cell 110
was zero, and else is wrong by the word in this cell. -/
theorem verdict_whatever_before (m : Machine) (large : 302 ≤ m.memory.size) :
    (∀ d ∈ all, (d.runOn m budget).registers.halted = true ∧
      (d.runOn m budget).diagnostic = none) ∧
    (∀ d ∈ all, d ≠ arraySum → d.mismatches (d.runOn m budget) = []) ∧
    arraySum.mismatches (arraySum.runOn m budget) =
      if m.memory.read 110 = 0 then [] else [⟨200, 270, 270 + m.memory.read 110⟩] := by
  have leaves {d : Demonstration} {code count : Nat} {results}
      (performs : d.Performs code count results) :
      (d.runOn m budget).registers.halted = true ∧ (d.runOn m budget).diagnostic = none :=
    ⟨(performs.leaves_runOn large).halted, (performs.leaves_runOn large).diagnostic⟩
  refine ⟨?_, ?_, mismatches_arraySum large⟩
  · simp only [all, List.forall_mem_cons]
    exact ⟨leaves performs_arraySum, leaves performs_multiply, leaves performs_subroutine,
      leaves performs_blockCopy, leaves performs_countUp, leaves performs_division,
      List.forall_mem_nil _⟩
  · simp only [all, List.forall_mem_cons]
    exact ⟨fun other => absurd rfl other,
      fun _ => performs_multiply.mismatches_runOn determined_multiply large,
      fun _ => performs_subroutine.mismatches_runOn determined_subroutine large,
      fun _ => performs_blockCopy.mismatches_runOn determined_blockCopy large,
      fun _ => performs_countUp.mismatches_runOn determined_countUp large,
      fun _ => performs_division.mismatches_runOn determined_division large,
      List.forall_mem_nil _⟩

/-- On the machine with a one in each of 302 cells the product is right. -/
theorem verdict_whatever_before_littered :
    302 ≤ littered.memory.size ∧ multiply ∈ all ∧ multiply ≠ arraySum ∧
      (multiply.runOn littered budget).registers.halted = true ∧
      (multiply.runOn littered budget).diagnostic = none ∧
      multiply.mismatches (multiply.runOn littered budget) = [] := by
  have listed : multiply ∈ all := by simp [all]
  have other : multiply ≠ arraySum := fun same => absurd (congrArg name same) (by decide)
  obtain ⟨halts, meets, -⟩ := verdict_whatever_before littered large_littered
  exact ⟨large_littered, listed, other, (halts _ listed).1, (halts _ listed).2,
    meets _ listed other⟩

/-- The sum of the table is wrong on it, although the machine has enough cells. -/
theorem mismatches_littered :
    302 ≤ littered.memory.size ∧ arraySum ∈ all ∧
      arraySum.mismatches (arraySum.runOn littered budget) = [⟨200, 270, 271⟩] := by
  have one : littered.memory.read 110 = 1 := by decide +kernel
  refine ⟨large_littered, List.mem_cons_self, ?_⟩
  rw [mismatches_arraySum large_littered, one]
  decide

end Demonstration

end DirectionCentral

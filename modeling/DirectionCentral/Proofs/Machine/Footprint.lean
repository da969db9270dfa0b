import Mathlib.Data.Set.Insert
import Mathlib.Logic.Function.Iterate
import DirectionCentral.Machine

/-!
# What a run depends on and what it changes

A step reads the cell that it fetches and at most one operand, and stores in at most one cell. Two
machines that are alike but for cells that a run never reads before it stores them perform the run
alike (`sameOn_steps`); what the run stores becomes alike as well. A run leaves alone every cell
that none of its stores addresses, and so every cell past the 16 bits of an address
(`unchanged_steps`).
-/

namespace DirectionCentral

/-- Whether an operation reads the cell that it refers to. -/
def Operation.readsCell : Operation → Bool
  | .lda | .add | .sub | .mpy | .dvh => true
  | _ => false

namespace Machine

/-! ## Footprints -/

/-- The operation of the next step, unless the machine has stopped or the word has none. -/
def operation? (m : Machine) : Option Operation :=
  if m.registers.halted then none else m.upcoming.instruction.operation?

/-- The address that the next step refers to. -/
def target (m : Machine) : UInt64 := m.upcoming.effectiveAddress.toUInt64

/-- The cells that the next step fetches or reads as an operand; there are none past the end. -/
def readCells (m : Machine) : List UInt64 :=
  let fetch := if m.registers.halted then [] else [m.registers.next]
  let operand := if m.operation?.any (·.readsCell) then [m.target] else []
  (fetch ++ operand).filter (·.toNat < m.memory.size)

/-- The address at which the next step stores, if its operation is to store. -/
def storeAddress? (m : Machine) : Option UInt64 :=
  if m.operation? = some .sto then some m.target else none

/-- The addresses at which the first `n` steps store, in order. -/
def stores (m : Machine) (n : Nat) : List UInt64 :=
  (List.range n).filterMap fun k => (step^[k] m).storeAddress?

/-- Every cell that one of the first `n` steps reads is one of the given cells or was stored by an
earlier step. -/
def ReadsWithin (m : Machine) (cells : Set UInt64) (n : Nat) : Prop :=
  ∀ k < n, ∀ a ∈ (step^[k] m).readCells, a ∈ cells ∨ a ∈ m.stores k

/-- Two machines are alike but for their clocks and for cells other than the given ones. -/
structure SameOn (cells : Set UInt64) (m m' : Machine) : Prop where
  /-- The registers and counters are the same. -/
  registers : m.registers = m'.registers
  /-- The memories have the same size. -/
  size : m.memory.size = m'.memory.size
  /-- The traces are the same. -/
  trace : m.trace = m'.trace
  /-- The diagnostics are the same. -/
  diagnostic : m.diagnostic = m'.diagnostic
  /-- The given cells hold the same words. -/
  reads : ∀ a ∈ cells, m.memory.read a = m'.memory.read a

/-- A machine has the memory of an earlier one but for the cells at some addresses. -/
structure UnchangedBut (stores : List UInt64) (before after : Machine) : Prop where
  /-- No cell was added or removed. -/
  size : after.memory.size = before.memory.size
  /-- A cell at no such address holds its old word. -/
  reads : ∀ a ∉ stores, after.memory.read a = before.memory.read a
  /-- A cell past the 16 bits of an address holds its old word. -/
  high : ∀ a : UInt64, 65536 ≤ a.toNat → after.memory.read a = before.memory.read a

variable {cells : Set UInt64} {m m' : Machine}

/-- Moving past the fetched word leaves the memory alone. -/
theorem memory_passFetch (m : Machine) : m.passFetch.memory = m.memory := by
  rw [passFetch]
  split <;> rfl

/-! ## Alike machines step alike -/

namespace SameOn

/-- Fewer cells are compared. -/
theorem mono {fewer : Set UInt64} (same : SameOn cells m m') (subset : fewer ⊆ cells) :
    SameOn fewer m m' :=
  { same with reads := fun a member => same.reads a (subset member) }

/-- Both machines are at the end of their memories, or neither is. -/
theorem atEnd (same : SameOn cells m m') : m.atEnd = m'.atEnd := by
  rw [Machine.atEnd, Machine.atEnd, same.registers, same.size]

/-- The same word is fetched if the cell is compared. -/
theorem fetched (same : SameOn cells m m')
    (next : m.registers.next.toNat < m.memory.size → m.registers.next ∈ cells) :
    m.fetched = m'.fetched := by
  rw [Machine.fetched, Machine.fetched, ← same.atEnd, ← same.registers]
  split
  · rfl
  · rename_i inside
    rw [Machine.atEnd, decide_eq_true_eq, not_le] at inside
    exact same.reads _ (next inside)

/-- The trace says the same of the next step if the fetched cell is compared. -/
theorem upcoming (same : SameOn cells m m')
    (next : m.registers.next.toNat < m.memory.size → m.registers.next ∈ cells) :
    m.upcoming = m'.upcoming := by
  simp only [Machine.upcoming, same.fetched next, same.registers]

/-- The same operand is read if its cell is compared; past the end both read zero. -/
theorem operand (same : SameOn cells m m') (ea : UInt16)
    (cell : ea.toNat < m.memory.size → ea.toUInt64 ∈ cells) : m.operand ea = m'.operand ea := by
  rw [Machine.operand, Machine.operand]
  by_cases inside : ea.toNat < m.memory.size
  · rw [same.reads _ (cell inside)]
  · have past : m.memory.size ≤ ea.toUInt64.toNat := by simpa using inside
    rw [Memory.read_of_size_le past, Memory.read_of_size_le (same.size ▸ past)]

/-- The same change of the registers keeps machines alike. -/
theorem setRegisters (same : SameOn cells m m') (registers : Registers) :
    SameOn cells { m with registers } { m' with registers } :=
  { same with registers := rfl }

/-- Jumps keep machines alike. -/
theorem jump (same : SameOn cells m m') (ea : UInt16) : SameOn cells (m.jump ea) (m'.jump ea) := by
  rw [Machine.jump, Machine.jump, same.registers, same.size]
  exact same.setRegisters _

/-- The same accumulator keeps machines alike. -/
theorem setAccumulator (same : SameOn cells m m') (value : Int32) :
    SameOn cells (m.setAccumulator value) (m'.setAccumulator value) := by
  rw [Machine.setAccumulator, Machine.setAccumulator, same.registers]
  exact same.setRegisters _

/-- The same index keeps machines alike. -/
theorem setIndex (same : SameOn cells m m') (value : Int64) :
    SameOn cells (m.setIndex value) (m'.setIndex value) := by
  rw [Machine.setIndex, Machine.setIndex, same.registers]
  exact same.setRegisters _

/-- The same store keeps machines alike, and the stored cell becomes alike. -/
theorem write (same : SameOn cells m m') (address : UInt64) (word : Word) :
    SameOn (insert address cells) (m.write address word) (m'.write address word) where
  registers := same.registers
  size := by simpa [Machine.write] using same.size
  trace := same.trace
  diagnostic := same.diagnostic
  reads a member := by
    rw [Machine.write, Machine.write, Memory.read_write, Memory.read_write, ← same.size]
    split
    · rfl
    · rename_i other
      rcases member with rfl | member
      · have past : m.memory.size ≤ a.toNat := not_lt.1 fun inside => other ⟨rfl, inside⟩
        rw [Memory.read_of_size_le past, Memory.read_of_size_le (same.size ▸ past)]
      · exact same.reads a member

/-- The same fault keeps machines alike. -/
theorem fault (same : SameOn cells m m') (diagnostic : Diagnostic) :
    SameOn cells (m.fault diagnostic) (m'.fault diagnostic) := by
  rw [Machine.fault, Machine.fault, same.registers]
  exact { same with registers := rfl, diagnostic := rfl }

/-- Moving past the fetched word keeps machines alike. -/
theorem passFetch (same : SameOn cells m m') : SameOn cells m.passFetch m'.passFetch := by
  rw [Machine.passFetch, Machine.passFetch, ← same.atEnd, ← same.registers]
  split
  · exact same.fault _
  · exact same.setRegisters _

/-- The same entry keeps machines alike. -/
theorem record (same : SameOn cells m m') (entry : TraceEntry) :
    SameOn cells (m.record entry) (m'.record entry) := by
  rw [Machine.record, Machine.record, same.trace]
  exact { same with trace := rfl }

/-- Counting keeps machines alike. -/
theorem tally (same : SameOn cells m m') : SameOn cells m.tally m'.tally := by
  rw [Machine.tally, Machine.tally, same.registers]
  exact same.setRegisters _

/-- An operation keeps machines alike if it reads the same operand; a store adds its cell to those
that are alike. -/
theorem perform (same : SameOn cells m m') (op : Operation) (i : Instruction) (ea : UInt16)
    (operand : op.readsCell = true → m.operand ea = m'.operand ea) :
    SameOn (cells ∪ {a | op = .sto ∧ a = ea.toUInt64}) (m.perform op i ea)
      (m'.perform op i ea) := by
  by_cases store : op = .sto
  · subst store
    have union : cells ∪ {a | Operation.sto = .sto ∧ a = ea.toUInt64} =
        insert ea.toUInt64 cells := by
      ext a
      simp [or_comm]
    rw [union, Machine.perform, Machine.perform, same.registers]
    exact same.write _ _
  · have union : cells ∪ {a | op = .sto ∧ a = ea.toUInt64} = cells := by simp [store]
    rw [union]
    cases op <;> simp only [Machine.perform, ← same.registers]
    case hlt => exact same.setRegisters _
    case sto => contradiction
    case lda | add | sub | mpy | dvh =>
      rw [operand rfl]
      exact same.setAccumulator _
    case tra => exact same.jump ea
    case tnz | tmi =>
      split
      · exact same.jump ea
      · exact same
    case tsx => exact (same.setIndex _).jump ea
    case tix | txi =>
      split
      · exact (same.setIndex _).jump ea
      · exact same.setIndex _

/-- A step keeps machines alike if the cells that it reads are compared; both store at the same
address, and the stored cell becomes alike. -/
theorem step (same : SameOn cells m m') (reads : ∀ a ∈ m.readCells, a ∈ cells) :
    SameOn (cells ∪ {a | m.storeAddress? = some a}) m.step m'.step ∧
      m'.storeAddress? = m.storeAddress? := by
  by_cases stopped : m.registers.halted = true
  · have stopped' : m'.registers.halted = true := same.registers ▸ stopped
    rw [step_of_halted stopped, step_of_halted stopped']
    simp [storeAddress?, operation?, stopped, stopped', same]
  have next : m.registers.next.toNat < m.memory.size → m.registers.next ∈ cells := fun inside =>
    reads _ (by simp [readCells, stopped, inside])
  have entry := same.upcoming next
  have operation : m'.operation? = m.operation? := by
    rw [operation?, operation?, ← same.registers, ← entry]
  have address : m'.storeAddress? = m.storeAddress? := by
    rw [storeAddress?, storeAddress?, operation, target, target, ← entry]
  refine ⟨?_, address⟩
  have stopped' : ¬ m'.registers.halted = true := same.registers ▸ stopped
  rw [Machine.step, Machine.step, if_neg stopped, if_neg stopped', ← entry]
  refine tally ?_
  have fetched := same.passFetch.record m.upcoming
  rw [Machine.dispatch, Machine.dispatch]
  cases known : m.upcoming.instruction.operation? with
  | none =>
    have none : m.storeAddress? = .none := by simp [storeAddress?, operation?, known]
    simpa [none] using fetched.fault _
  | some op =>
    have stores : {a | m.storeAddress? = some a} =
        {a | op = .sto ∧ a = m.upcoming.effectiveAddress.toUInt64} := by
      ext a
      by_cases store : op = .sto <;>
        simp [storeAddress?, operation?, stopped, known, store, target, eq_comm]
    rw [stores]
    refine fetched.perform op _ _ fun readsCell => ?_
    refine fetched.operand _ fun inside => ?_
    have inside : m.upcoming.effectiveAddress.toNat < m.memory.size := by
      rwa [Machine.record, memory_passFetch] at inside
    exact reads _ (by simp [readCells, operation?, stopped, known, readsCell, target, inside])

end SameOn

/-- The stores of one step more are those before and that of the last step, if it stores. -/
theorem stores_succ (m : Machine) (n : Nat) :
    m.stores (n + 1) = m.stores n ++ (step^[n] m).storeAddress?.toList := by
  rw [stores, List.range_succ, List.filterMap_append, ← stores]
  cases h : (step^[n] m).storeAddress? <;> simp [h]

/-- Alike machines run alike as long as the run reads only cells that are compared or that it has
stored before. -/
theorem sameOn_steps (same : SameOn cells m m') {n : Nat} (reads : m.ReadsWithin cells n) :
    SameOn (cells ∪ {a | a ∈ m.stores n}) (step^[n] m) (step^[n] m') ∧
      m'.stores n = m.stores n := by
  induction n with
  | zero => simpa [stores] using same
  | succ n ih =>
    obtain ⟨before, stored⟩ := ih fun k below => reads k (Nat.lt_succ_of_lt below)
    obtain ⟨after, last⟩ := before.step (reads n (Nat.lt_succ_self n))
    rw [Function.iterate_succ_apply', Function.iterate_succ_apply', stores_succ, stores_succ,
      stored, last]
    refine ⟨after.mono ?_, rfl⟩
    intro a member
    simpa [or_assoc] using member

/-! ## What a run leaves alone -/

/-- An operation other than a store leaves the memory alone. -/
theorem memory_perform (m : Machine) {op : Operation} (other : op ≠ .sto) (i : Instruction)
    (ea : UInt16) : (m.perform op i ea).memory = m.memory := by
  cases op <;> simp only [perform] <;> first | contradiction | rfl | (split <;> rfl)

/-- A step stores the accumulator at the address of its store, and otherwise leaves the memory
alone. -/
theorem memory_step (m : Machine) :
    m.step.memory =
      match m.storeAddress? with
      | some a => m.memory.write a (Accumulator.toWord m.registers.accumulator)
      | none => m.memory := by
  by_cases stopped : m.registers.halted = true
  · simp [step_of_halted stopped, storeAddress?, operation?, stopped]
  rw [step, if_neg stopped]
  change ((m.passFetch.record m.upcoming).dispatch m.upcoming).memory = _
  rw [dispatch]
  cases known : m.upcoming.instruction.operation? with
  | none =>
    have none : m.storeAddress? = .none := by simp [storeAddress?, operation?, known]
    rw [none]
    exact m.memory_passFetch
  | some op =>
    by_cases store : op = .sto
    · subst store
      have address : m.storeAddress? = some m.target := by
        simp [storeAddress?, operation?, stopped, known]
      have kept : m.passFetch.registers.accumulator = m.registers.accumulator := by
        rw [passFetch]
        split <;> rfl
      rw [address, ← kept, ← m.memory_passFetch]
      rfl
    · have none : m.storeAddress? = .none := by
        simp [storeAddress?, operation?, stopped, known, store]
      rw [none, memory_perform _ store]
      exact m.memory_passFetch

/-- A step changes no cell but the one at which it stores. -/
theorem read_step (m : Machine) {a : UInt64} (other : m.storeAddress? ≠ some a) :
    m.step.memory.read a = m.memory.read a := by
  rw [memory_step]
  cases store : m.storeAddress? with
  | none => rfl
  | some b =>
    have missed : b ≠ a := fun hit => other (hit ▸ store)
    exact (Memory.read_write ..).trans (if_neg fun hit => missed hit.1)

/-- A step keeps the number of cells. -/
theorem size_step (m : Machine) : m.step.memory.size = m.memory.size := by
  rw [memory_step]
  cases m.storeAddress? with
  | none => rfl
  | some a => exact Memory.size_write ..

/-- A store is at an address of 16 bits. -/
theorem narrow_storeAddress {m : Machine} {a : UInt64} (store : m.storeAddress? = some a) :
    a.toNat < 65536 := by
  rw [storeAddress?] at store
  split at store
  · obtain rfl := Option.some.inj store
    rw [target, UInt16.toNat_toUInt64]
    exact UInt16.toNat_lt _
  · contradiction

/-- A run changes no cell but those at which it stores. -/
theorem unchanged_steps (m : Machine) (n : Nat) : UnchangedBut (m.stores n) m (step^[n] m) := by
  induction n with
  | zero => exact ⟨rfl, fun _ _ => rfl, fun _ _ => rfl⟩
  | succ n ih =>
    rw [Function.iterate_succ_apply', stores_succ]
    refine ⟨(size_step _).trans ih.size, ?_, ?_⟩
    · intro a other
      simp only [List.mem_append, Option.mem_toList, not_or] at other
      rw [read_step _ other.2, ih.reads a other.1]
    · intro a high
      have missed : (step^[n] m).storeAddress? ≠ some a := fun hit =>
        absurd (narrow_storeAddress hit) (not_lt.2 high)
      rw [read_step _ missed, ih.high a high]

/-! ## The two together -/

/-- A run depends on no other cells than those that it reads, and changes no others than those at
which it stores. -/
theorem run_within_footprint (same : SameOn cells m m') {n : Nat}
    (reads : m.ReadsWithin cells n) :
    SameOn (cells ∪ {a | a ∈ m.stores n}) (step^[n] m) (step^[n] m') ∧
      m'.stores n = m.stores n ∧ UnchangedBut (m.stores n) m (step^[n] m) ∧
      UnchangedBut (m.stores n) m' (step^[n] m') := by
  obtain ⟨alike, stored⟩ := sameOn_steps same reads
  exact ⟨alike, stored, unchanged_steps m n, stored ▸ unchanged_steps m' n⟩

/-- A program that stores a halting word in cell 3 and then runs into it: the run depends on neither
the old word of that cell nor cells 4 and 6. -/
theorem run_within_footprint_overwritten :
    let m : Machine :=
      { memory := ⟨#[0x01000005, 0x02000003, 0x10000003, 1, 2, 0, 3], by decide⟩ }
    let m' : Machine :=
      { memory := ⟨#[0x01000005, 0x02000003, 0x10000003, 4, 5, 0, 6], by decide⟩ }
    let cells : Set UInt64 := {a | a ∈ [0, 1, 2, 5]}
    SameOn cells m m' ∧ m.ReadsWithin cells 4 ∧ m.stores 4 = [3] ∧
      (step^[4] m').registers.halted = true ∧
      SameOn (cells ∪ {a | a ∈ m.stores 4}) (step^[4] m) (step^[4] m') ∧
      m'.stores 4 = m.stores 4 ∧ UnchangedBut (m.stores 4) m (step^[4] m) ∧
      UnchangedBut (m.stores 4) m' (step^[4] m') := by
  intro m m' cells
  have same : SameOn cells m m' := by
    refine ⟨rfl, rfl, rfl, rfl, fun a member => ?_⟩
    have listed : a = 0 ∨ a = 1 ∨ a = 2 ∨ a = 5 := by simpa [cells] using member
    obtain rfl | rfl | rfl | rfl := listed <;> rfl
  have reads : m.ReadsWithin cells 4 := by
    have all : (List.range 4).all fun k => (step^[k] m).readCells.all fun a =>
        [0, 1, 2, 5].contains a || (m.stores k).contains a := by decide +kernel
    simp only [List.all_eq_true, List.mem_range, Bool.or_eq_true, List.contains_iff_mem] at all
    exact all
  exact ⟨same, reads, by decide +kernel, by decide +kernel, run_within_footprint same reads⟩

end Machine

end DirectionCentral

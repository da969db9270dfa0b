import DirectionCentral.Word

/-!
# Memory

A row of cells with addresses from zero. No access faults: past the end a cell reads as zero and
stores nothing. The number of cells fits the 64 bits of an address register, so that an address past
the last cell can always be held.
-/

namespace DirectionCentral

/-- A row of cells. -/
structure Memory where
  /-- The cells in the order of their addresses. -/
  cells : Array Word
  /-- An address register can hold the number of cells. -/
  size_lt : cells.size < UInt64.size

namespace Memory

/-- The number of cells of the full 16-bit address space. -/
def standardSize : UInt64 := 65536

/-- A memory of zero cells in the given number. -/
def zeroed (size : UInt64) : Memory where
  cells := Array.replicate size.toNat 0
  size_lt := by simpa using size.toNat_lt

/-- The memory with the given cells; none if they are too many for an address register. -/
def ofList? (cells : List Word) : Option Memory :=
  if h : cells.toArray.size < UInt64.size then some ⟨cells.toArray, h⟩ else none

/-- The number of cells. -/
def size (m : Memory) : Nat := m.cells.size

/-- The word in a cell; zero past the end. -/
def read (m : Memory) (address : UInt64) : Word := m.cells[address.toNat]?.getD 0

/-- Store a word in a cell; past the end nothing changes. -/
def write (m : Memory) (address : UInt64) (word : Word) : Memory where
  cells := m.cells.setIfInBounds address.toNat word
  size_lt := by simpa using m.size_lt

/-- Store words in the cells from position `at` on. -/
def storeFrom (cells : Array Word) (position : Nat) : List Word → Array Word
  | [] => cells
  | word :: rest => storeFrom (cells.setIfInBounds position word) (position + 1) rest

/-- Storing words keeps the number of cells. -/
theorem size_storeFrom (cells : Array Word) (position : Nat) (words : List Word) :
    (storeFrom cells position words).size = cells.size := by
  induction words generalizing cells position with
  | nil => rfl
  | cons word rest ih => simp [storeFrom, ih]

/-- Store words in the cells from an address on; those past the end are dropped. -/
def load (m : Memory) (words : List Word) (start : UInt64) : Memory where
  cells := storeFrom m.cells start.toNat words
  size_lt := by simpa [size_storeFrom] using m.size_lt

/-- How many words `load` stores. -/
def stored (m : Memory) (words : List Word) (start : UInt64) : Nat :=
  min words.length (m.size - start.toNat)

/-- The cells from an address on, at most `count` of them, with their addresses. -/
def dump (m : Memory) (start count : UInt64) : List (UInt64 × Word) :=
  (List.range' start.toNat (min count.toNat (m.size - start.toNat))).map fun address =>
    (UInt64.ofNat address, m.read (UInt64.ofNat address))

/-- How many cells hold another word than zero. -/
def nonzeroCount (m : Memory) : Nat := m.cells.countP (· != 0)

/-- The memory in a line: how many cells are not zero, of how many. -/
def summary (m : Memory) : String :=
  s!"Memory \x7b non_zero_cells: {m.nonzeroCount}, total_cells: {m.size} \x7d"

/-- Writing keeps the number of cells. -/
@[simp]
theorem size_write (m : Memory) (address : UInt64) (word : Word) :
    (m.write address word).size = m.size := by
  simp [size, write]

/-- Loading keeps the number of cells. -/
@[simp]
theorem size_load (m : Memory) (words : List Word) (start : UInt64) :
    (m.load words start).size = m.size := by
  simp [size, load, size_storeFrom]

/-- A written cell holds the word, if there is such a cell, and every other cell what it held. -/
theorem read_write (m : Memory) (address other : UInt64) (word : Word) :
    (m.write address word).read other =
      if address = other ∧ address.toNat < m.size then word else m.read other := by
  simp only [read, write, size, Array.getElem?_setIfInBounds]
  by_cases h : address = other
  · subst h
    by_cases hs : address.toNat < m.cells.size <;> simp [hs]
  · have : address.toNat ≠ other.toNat := fun e => h (UInt64.toNat_inj.1 e)
    simp [h, this]

/-- A cell past the end reads as zero. -/
theorem read_of_size_le {m : Memory} {address : UInt64} (h : m.size ≤ address.toNat) :
    m.read address = 0 := by
  simp [read, size] at *
  simp [h]

end Memory

end DirectionCentral

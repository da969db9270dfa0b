import Mathlib.Data.Int.ModEq
import DirectionCentral.Machine

/-!
# The operation table over exact integers

The table says what each operation does in terms of unbounded integers. A `Reading` of a machine
holds every register, counter and cell as such a number, together with the trace and the
diagnostic, so nothing of the machine is left out. Where a register is narrower than an exact
result, the table names the one number of the register's width that is congruent to the result
(`Wraps`). The table is a relation that does not mention the word operations of the machine.
-/

namespace DirectionCentral

/-- A value is the signed number of the given width that is congruent to an exact result. -/
structure Wraps (width : Nat) (exact value : Int) : Prop where
  /-- The value is not below the least signed number. -/
  lower : -2 ^ (width - 1) ≤ value
  /-- The value is not above the greatest signed number. -/
  upper : value < 2 ^ (width - 1)
  /-- The value differs from the exact result by a multiple of the modulus. -/
  congruent : value ≡ exact [ZMOD 2 ^ width]

/-- What a trace entry says, in exact numbers. -/
structure EntryReading where
  /-- The address of the instruction. -/
  location : Nat
  word : Nat
  code : Nat
  address : Nat
  indexed : Bool
  /-- The address that the instruction refers to. -/
  effectiveAddress : Nat
  /-- The accumulator before the instruction. -/
  accumulator : Int
  /-- The index register before the instruction. -/
  index : Int

/-- A machine in exact numbers. -/
structure Reading where
  accumulator : Int
  index : Int
  /-- The address of the next instruction. -/
  next : Nat
  /-- Whether the machine has stopped. -/
  halted : Bool
  /-- How many instructions were performed. -/
  instructions : Nat
  /-- How many cycles have passed. -/
  cycles : Nat
  /-- The words of the memory in the order of their addresses. -/
  cells : List Nat
  /-- Whether entries are recorded. -/
  tracing : Bool
  /-- The recorded entries, the oldest first. -/
  trace : List EntryReading
  /-- The clock, which the table never mentions. -/
  clock : Clock
  /-- The diagnostic of the last fault, in words. -/
  diagnostic : Option String

namespace Reading

/-- The operation byte of a word: bits 31 to 24. -/
def codeOf (word : Nat) : Nat := word / 2 ^ 24

/-- The address field of a word: bits 15 to 0. -/
def addressOf (word : Nat) : Nat := word % 2 ^ 16

/-- The index flag of a word: bit 17. -/
def indexedOf (word : Nat) : Bool := word / 2 ^ 17 % 2 = 1

/-- The address that a word refers to: its address field, and under the index flag the index added
to it modulo 65536. -/
def effectiveAddressOf (word : Nat) (index : Int) : Nat :=
  if indexedOf word then ((addressOf word + index) % 65536).toNat else addressOf word

/-- The word in a cell; zero past the end. -/
def read (s : Reading) (address : Nat) : Nat := s.cells.getD address 0

/-- Store a word in a cell; past the end nothing changes. -/
def write (s : Reading) (address word : Nat) : Reading :=
  if address < s.cells.length then { s with cells := s.cells.set address word } else s

/-- Continue at an address, or at the end of memory if that comes first. -/
def transfer (s : Reading) (address : Nat) : Reading :=
  { s with next := min address s.cells.length }

/-- The word at the next address; past the end of memory the halting word, which is zero. -/
def fetched (s : Reading) : Nat := if s.next < s.cells.length then s.read s.next else 0

/-- Move past the fetched word; past the end of memory stay there and halt. -/
def passFetch (s : Reading) : Reading :=
  if s.next < s.cells.length then { s with next := s.next + 1 }
  else
    { s with
      halted := true
      diagnostic := some s!"program counter {s.next} reached end of memory" }

/-- What the trace says of the next step. -/
def entry (s : Reading) : EntryReading where
  location := s.next
  word := s.fetched
  code := codeOf s.fetched
  address := addressOf s.fetched
  indexed := indexedOf s.fetched
  effectiveAddress := effectiveAddressOf s.fetched s.index
  accumulator := s.accumulator
  index := s.index

/-- Record an entry if tracing is on. -/
def record (s : Reading) (entry : EntryReading) : Reading :=
  if s.tracing then { s with trace := s.trace ++ [entry] } else s

/-- Count an instruction and its cycle. -/
def tally (s : Reading) : Reading :=
  { s with instructions := s.instructions + 1, cycles := s.cycles + 1 }

/-- The operation table: what an operation with the given address field and effective address makes
of a reading whose next address is already past the instruction. -/
inductive Effect (s : Reading) (address ea : Nat) : Operation → Reading → Prop
  | hlt : Effect s address ea .hlt { s with halted := true }
  | lda {v : Int} (cell : Wraps 32 (s.read ea) v) :
      Effect s address ea .lda { s with accumulator := v }
  | sto : Effect s address ea .sto (s.write ea (s.accumulator % 2 ^ 32).toNat)
  | add {x v : Int} (cell : Wraps 32 (s.read ea) x) (result : Wraps 32 (s.accumulator + x) v) :
      Effect s address ea .add { s with accumulator := v }
  | sub {x v : Int} (cell : Wraps 32 (s.read ea) x) (result : Wraps 32 (s.accumulator - x) v) :
      Effect s address ea .sub { s with accumulator := v }
  | mpy {x v : Int} (cell : Wraps 32 (s.read ea) x) (result : Wraps 32 (s.accumulator * x) v) :
      Effect s address ea .mpy { s with accumulator := v }
  /-- Divide by a cell that holds zero. -/
  | dvhZero (cell : Wraps 32 (s.read ea) 0) :
      Effect s address ea .dvh { s with accumulator := 0x7FFFFFFF }
  /-- Divide by the cell, toward zero. -/
  | dvh {x v : Int} (cell : Wraps 32 (s.read ea) x) (nonzero : x ≠ 0)
      (result : Wraps 32 (s.accumulator.tdiv x) v) :
      Effect s address ea .dvh { s with accumulator := v }
  | tra : Effect s address ea .tra (s.transfer ea)
  | tnz : Effect s address ea .tnz (if s.accumulator ≠ 0 then s.transfer ea else s)
  | tmi : Effect s address ea .tmi (if s.accumulator < 0 then s.transfer ea else s)
  /-- Save the next address and transfer. -/
  | tsx {i : Int} (saved : Wraps 64 s.next i) :
      Effect s address ea .tsx ({ s with index := i }.transfer ea)
  /-- Count down and transfer while the count is positive. -/
  | tix {i : Int} (down : Wraps 32 (s.index - 1) i) :
      Effect s address ea .tix
        (if 0 < i then { s with index := i }.transfer ea else { s with index := i })
  /-- Count up by the high byte of the address field and transfer while the count is within the low
  byte. -/
  | txi {i : Int} (up : Wraps 64 (s.index + (address / 256 : Nat)) i) :
      Effect s address ea .txi
        (if i ≤ (address % 256 : Nat) then { s with index := i }.transfer ea
        else { s with index := i })

/-- What the word of an entry makes of a reading: the effect of its operation, or a halt if its byte
stands for none. -/
inductive Dispatch (s : Reading) (e : EntryReading) : Reading → Prop
  | known {op : Operation} {after : Reading} (byte : op.byte.toNat = e.code)
      (effect : Effect s e.address e.effectiveAddress op after) : Dispatch s e after
  | unknown (noByte : ∀ op : Operation, op.byte.toNat ≠ e.code) :
      Dispatch s e
        { s with
          halted := true
          diagnostic := some
            ("unknown opcode: 0x" ++ String.ofList (Text.hexadecimal 2 e.code) ++ " at " ++
              toString e.location) }

/-- One step by the table, with the answer whether execution goes on. -/
inductive Step (s : Reading) : Bool → Reading → Prop
  /-- A halted machine stays as it is. -/
  | halted (stopped : s.halted = true) : Step s false s
  /-- Fetch, record, dispatch and count. -/
  | performed {after : Reading} (running : s.halted = false)
      (dispatched : Dispatch (s.passFetch.record s.entry) s.entry after) :
      Step s (!after.halted) after.tally

end Reading

/-! ## Reading a machine -/

/-- A trace entry in exact numbers. -/
def TraceEntry.reading (e : TraceEntry) : EntryReading where
  location := e.location.toNat
  word := e.word.toNat
  code := e.instruction.code.toNat
  address := e.instruction.address.toNat
  indexed := e.instruction.indexed
  effectiveAddress := e.effectiveAddress.toNat
  accumulator := e.accumulator.toInt
  index := e.index.toInt

/-- A machine in exact numbers. -/
def Machine.reading (m : Machine) : Reading where
  accumulator := m.registers.accumulator.toInt
  index := m.registers.index.toInt
  next := m.registers.next.toNat
  halted := m.registers.halted
  instructions := m.registers.instructions.toNat
  cycles := m.registers.cycles.toNat
  cells := m.memory.cells.toList.map UInt32.toNat
  tracing := m.trace.enabled
  trace := m.trace.entries.toList.map TraceEntry.reading
  clock := m.clock
  diagnostic := m.diagnostic

end DirectionCentral

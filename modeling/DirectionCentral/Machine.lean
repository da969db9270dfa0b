import DirectionCentral.Clock
import DirectionCentral.Diagnostic
import DirectionCentral.Image
import DirectionCentral.Memory
import DirectionCentral.Registers
import DirectionCentral.Trace

/-!
# The machine

A machine is its registers, memory, trace and clock, with the diagnostic of its last fault. A step
fetches the word at the next address, records it in the trace and performs it. Every fault ends in
the halted state: a fetch past the end of memory performs the halting word, and a word without an
operation halts. A halted machine does not change in a step, so that a run may always be continued.
-/

namespace DirectionCentral

/-- The machine as a whole. -/
structure Machine where
  /-- The registers. -/
  registers : Registers := {}
  /-- The memory. -/
  memory : Memory
  /-- What was performed while tracing was on. -/
  trace : Trace := {}
  /-- The real-time clock. -/
  clock : Clock := {}
  /-- The diagnostic of the last fault since the last reset, in words. -/
  diagnostic : Option String := none

/-- What a machine is built from. -/
structure Configuration where
  /-- The number of memory cells. -/
  memorySize : UInt64 := Memory.standardSize
  /-- Whether the machine records a trace. -/
  traceEnabled : Bool := false
deriving DecidableEq

namespace Machine

/-! ## Building, loading, resetting -/

/-- The machine of a configuration, with zero in every register and cell. -/
def ofConfiguration (config : Configuration) : Machine where
  memory := .zeroed config.memorySize
  trace := { enabled := config.traceEnabled }

/-- The machine with the given number of cells, not tracing. -/
def ofSize (memorySize : UInt64) : Machine := ofConfiguration { memorySize }

/-- The machine as it was built, but for its memory and for whether it traces. -/
def reset (m : Machine) : Machine where
  memory := m.memory
  trace := m.trace.clear

/-- Store words in memory from an address on. -/
def load (m : Machine) (words : List Word) (start : UInt64) : Machine :=
  { m with memory := m.memory.load words start }

/-- Store the segments of an image in memory, one after the other. -/
def loadImage (m : Machine) (image : Image) : Machine :=
  image.segments.foldl (fun m s => m.load s.words s.start) m

/-- How many words `loadImage` stores. -/
def storedOfImage (m : Machine) (image : Image) : Nat :=
  image.segments.foldl (fun count s => count + m.memory.stored s.words s.start) 0

/-- Store a word in a cell. -/
def write (m : Machine) (address : UInt64) (word : Word) : Machine :=
  { m with memory := m.memory.write address word }

/-- Turn tracing on or off. -/
def setTrace (m : Machine) (enabled : Bool) : Machine :=
  { m with trace := m.trace.enable enabled }

/-- Forget the trace. -/
def clearTrace (m : Machine) : Machine := { m with trace := m.trace.clear }

/-- Let seconds pass on the clock. -/
def passTime (m : Machine) (seconds : Float) : Machine :=
  { m with clock := m.clock.advance seconds }

/-- Whether the machine goes on at its next step. -/
def isRunning (m : Machine) : Bool := !m.registers.halted

/-! ## A step -/

/-- Whether the next address lies past the end of memory. -/
def atEnd (m : Machine) : Bool := m.memory.size ≤ m.registers.next.toNat

/-- The word at the next address; past the end of memory the halting word. -/
def fetched (m : Machine) : Word :=
  if m.atEnd then Instruction.haltWord else m.memory.read m.registers.next

/-- What the trace says of the next step. -/
def upcoming (m : Machine) : TraceEntry :=
  let word := m.fetched
  let instruction := Instruction.decode word
  { location := m.registers.next
    word
    instruction
    effectiveAddress := instruction.effectiveAddress m.registers.index
    accumulator := m.registers.accumulator
    index := m.registers.index }

/-- Halt for a fault. -/
def fault (m : Machine) (diagnostic : Diagnostic) : Machine :=
  { m with
    registers := { m.registers with halted := true }
    diagnostic := some diagnostic.text }

/-- Move past the fetched word; past the end of memory halt instead. -/
def passFetch (m : Machine) : Machine :=
  if m.atEnd then m.fault (.endOfMemory m.registers.next)
  else { m with registers := m.registers.advance }

/-- The signed number in the cell that an instruction refers to. -/
def operand (m : Machine) (address : UInt16) : Int32 :=
  Accumulator.ofWord (m.memory.read address.toUInt64)

/-- Continue at an address. -/
def jump (m : Machine) (address : UInt16) : Machine :=
  { m with registers := m.registers.jump address m.memory.size }

/-- Set the accumulator. -/
def setAccumulator (m : Machine) (value : Int32) : Machine :=
  { m with registers := { m.registers with accumulator := value } }

/-- Set the index register. -/
def setIndex (m : Machine) (value : Int64) : Machine :=
  { m with registers := { m.registers with index := value } }

/-- Perform an operation on an address. -/
def perform (m : Machine) (op : Operation) (i : Instruction) (address : UInt16) : Machine :=
  let a := m.registers.accumulator
  match op with
  | .hlt => { m with registers := { m.registers with halted := true } }
  | .lda => m.setAccumulator (m.operand address)
  | .sto => m.write address.toUInt64 (Accumulator.toWord a)
  | .add => m.setAccumulator (Accumulator.add a (m.operand address))
  | .sub => m.setAccumulator (Accumulator.subtract a (m.operand address))
  | .mpy => m.setAccumulator (Accumulator.multiply a (m.operand address))
  | .dvh => m.setAccumulator (Accumulator.divide a (m.operand address))
  | .tra => m.jump address
  | .tnz => if a != 0 then m.jump address else m
  | .tmi => if a < 0 then m.jump address else m
  | .tsx => (m.setIndex m.registers.next.toInt64).jump address
  | .tix =>
    let index := (Accumulator.wrap (m.registers.index - 1)).toInt64
    if 0 < index then (m.setIndex index).jump address else m.setIndex index
  | .txi =>
    let index := m.registers.index + i.increment.toUInt64.toInt64
    if index ≤ i.limit.toUInt64.toInt64 then (m.setIndex index).jump address
    else m.setIndex index

/-- Perform the word of a trace entry, or halt if it has no operation. -/
def dispatch (m : Machine) (entry : TraceEntry) : Machine :=
  match entry.instruction.operation? with
  | some op => m.perform op entry.instruction entry.effectiveAddress
  | none => m.fault (.unknownOperation entry.instruction.code entry.location)

/-- Record an entry in the trace. -/
def record (m : Machine) (entry : TraceEntry) : Machine :=
  { m with trace := m.trace.record entry }

/-- Count the instruction. -/
def tally (m : Machine) : Machine := { m with registers := m.registers.tally }

/-- Fetch, record and perform one instruction. A halted machine stays as it is. -/
def step (m : Machine) : Machine :=
  if m.registers.halted then m
  else
    let entry := m.upcoming
    ((m.passFetch.record entry).dispatch entry).tally

/-! ## A run -/

/-- Step at most `budget` times, until the machine halts. -/
def run (budget : Nat) (m : Machine) : Machine :=
  match budget with
  | 0 => m
  | budget + 1 =>
    let m := m.step
    if m.registers.halted then m else m.run budget

/-- How many instructions a run performs. -/
def performed (m : Machine) (budget : Nat) : UInt64 :=
  (m.run budget).registers.instructions - m.registers.instructions

/-- A run together with the number of instructions it performs. -/
def runCounted (m : Machine) (budget : Nat) : UInt64 × Machine :=
  let before := m.registers.instructions
  let m := m.run budget
  (m.registers.instructions - before, m)

/-- A halted machine stays as it is. -/
theorem step_of_halted {m : Machine} (h : m.registers.halted = true) : m.step = m := by
  simp [step, h]

/-- A halted machine stays as it is, whatever the budget. -/
theorem run_of_halted {m : Machine} (h : m.registers.halted = true) (budget : Nat) :
    m.run budget = m := by
  cases budget <;> simp [run, step_of_halted h, h]

end Machine

end DirectionCentral

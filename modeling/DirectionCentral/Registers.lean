import DirectionCentral.Instruction

/-!
# Registers

The accumulator, the index register and the address of the next instruction, with the halted flag
and two counters. A transfer past the end of memory parks at the end, where the next fetch halts.
-/

namespace DirectionCentral

/-- The registers. -/
structure Registers where
  /-- The accumulator. -/
  accumulator : Int32 := 0
  /-- The index register: loop counter and address offset. -/
  index : Int64 := 0
  /-- The address of the next instruction. -/
  next : UInt64 := 0
  /-- Whether the machine has stopped. -/
  halted : Bool := false
  /-- How many instructions were performed since the last reset. -/
  instructions : UInt64 := 0
  /-- How many cycles have passed since the last reset, one for each instruction. -/
  cycles : UInt64 := 0
deriving DecidableEq

namespace Registers

/-- Move on to the following address. -/
def advance (r : Registers) : Registers := { r with next := r.next + 1 }

/-- Continue at an address, or at the end of a memory of `size` cells if that comes first. -/
def jump (r : Registers) (address : UInt16) (size : Nat) : Registers :=
  { r with next := UInt64.ofNat (min address.toNat size) }

/-- Count an instruction and its cycle. -/
def tally (r : Registers) : Registers :=
  { r with instructions := r.instructions + 1, cycles := r.cycles + 1 }

/-- The address that a word refers to under the index register. -/
def effectiveAddress (r : Registers) (word : Word) : UInt16 :=
  (Instruction.decode word).effectiveAddress r.index

end Registers

end DirectionCentral

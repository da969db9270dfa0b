import DirectionCentral.Instruction

/-!
# Traces

A trace holds one entry for each instruction performed while tracing is on: what the machine had
before it, in the order of performance.
-/

namespace DirectionCentral

/-- What the machine had before one instruction. -/
structure TraceEntry where
  /-- The address of the instruction. -/
  location : UInt64
  /-- The instruction word. -/
  word : Word
  /-- The fields of the word. -/
  instruction : Instruction
  /-- The address that the instruction refers to. -/
  effectiveAddress : UInt16
  /-- The accumulator. -/
  accumulator : Int32
  /-- The index register. -/
  index : Int64
deriving DecidableEq

/-- The entries recorded so far, and whether more are recorded. -/
structure Trace where
  /-- Whether entries are recorded. -/
  enabled : Bool := false
  /-- The recorded entries, the oldest first. -/
  entries : Array TraceEntry := #[]
deriving DecidableEq

namespace Trace

/-- Record an entry if tracing is on. -/
def record (t : Trace) (entry : TraceEntry) : Trace :=
  if t.enabled then { t with entries := t.entries.push entry } else t

/-- Turn tracing on or off; the entries stay. -/
def enable (t : Trace) (enabled : Bool) : Trace := { t with enabled }

/-- Forget the entries. -/
def clear (t : Trace) : Trace := { t with entries := #[] }

/-- The last entries, at most `count` of them, the oldest first. -/
def recent (t : Trace) (count : Nat) : List TraceEntry :=
  t.entries.toList.drop (t.entries.size - count)

end Trace

end DirectionCentral

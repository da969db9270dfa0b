import DirectionCentral.Machine

/-!
# Summaries

A machine in one line: its display state, how much of its memory is in use, and how long its trace
is.
-/

namespace DirectionCentral

/-- The display state in a line. -/
def Registers.summary (r : Registers) : String :=
  s!"CpuState \x7b accumulator: {r.accumulator.toInt}, index_register: {r.index.toInt}, " ++
    s!"program_counter: {r.next.toNat}, halted: {r.halted}, " ++
    s!"instruction_count: {r.instructions.toNat}, cycle_count: {r.cycles.toNat} \x7d"

/-- The machine in a line. -/
def Machine.summary (m : Machine) : String :=
  s!"Cpu \x7b state: {m.registers.summary}, mem: {m.memory.summary}, " ++
    s!"trace_entries: {m.trace.entries.size} \x7d"

end DirectionCentral

import DirectionCentral.Json.Float
import DirectionCentral.Json.Printer
import DirectionCentral.Json.Reader
import DirectionCentral.Json.Record
import DirectionCentral.Machine

/-!
# Machines in JSON

The JSON values of a machine and its parts, written and read field by field. A machine whose clock
carries a finite residue is read back as it was written. The registers have a second form, the
display state, under longer names.
-/

namespace DirectionCentral

namespace Operation

/-- The name of an operation in JSON: its mnemonic with one capital. -/
def jsonName (op : Operation) : String :=
  match op.mnemonic.toList with
  | [] => ""
  | first :: rest => String.ofList (first :: rest.map Char.toLower)

/-- The JSON value of an operation. -/
def toJson (op : Operation) : Json := .ofString op.jsonName

/-- The operation with the given JSON name. -/
def ofJsonName? (name : String) : Option Operation := all.find? (·.jsonName == name)

/-- The operation that a JSON value names: by a string, or by an object whose one member has that
name and the value `null`. -/
def ofJson? : Json → Option Operation
  | .string (some name) => ofJsonName? name
  | .object [(some name, .null)] => ofJsonName? name
  | _ => none

end Operation

namespace Instruction

/-- The fields of an instruction in JSON. -/
def fieldNames : List String := ["opcode", "address", "indexed"]

/-- The JSON value of an instruction. -/
def toJson (i : Instruction) : Json :=
  .record [("opcode", .ofNat i.code.toNat), ("address", .ofNat i.address.toNat),
    ("indexed", .bool i.indexed)]

/-- The instruction that a JSON value describes. -/
def ofJson? (value : Json) : Option Instruction :=
  match value.fields? fieldNames with
  | some [some code, some address, some indexed] => do
    let code ← code.uint8?
    let address ← address.uint16?
    let indexed ← indexed.bool?
    some ⟨code, address, indexed⟩
  | _ => none

end Instruction

namespace TraceEntry

/-- The fields of a trace entry in JSON. -/
def fieldNames : List String :=
  ["pc", "word", "decoded", "effective_address", "accumulator", "index_register"]

/-- The JSON value of a trace entry. -/
def toJson (e : TraceEntry) : Json :=
  .record [("pc", .ofNat e.location.toNat), ("word", .ofNat e.word.toNat),
    ("decoded", e.instruction.toJson), ("effective_address", .ofNat e.effectiveAddress.toNat),
    ("accumulator", .ofInt e.accumulator.toInt), ("index_register", .ofInt e.index.toInt)]

/-- The trace entry that a JSON value describes. -/
def ofJson? (value : Json) : Option TraceEntry :=
  match value.fields? fieldNames with
  | some [some location, some word, some instruction, some address, some accumulator,
      some index] => do
    let location ← location.uint64?
    let word ← word.uint32?
    let instruction ← Instruction.ofJson? instruction
    let address ← address.uint16?
    let accumulator ← accumulator.int32?
    let index ← index.int64?
    some ⟨location, word, instruction, address, accumulator, index⟩
  | _ => none

end TraceEntry

namespace Trace

/-- The fields of a trace in JSON. -/
def fieldNames : List String := ["enabled", "entries"]

/-- The JSON value of the entries of a trace. -/
def entriesJson (entries : List TraceEntry) : Json := .ofList TraceEntry.toJson entries

/-- The JSON value of a trace. -/
def toJson (t : Trace) : Json :=
  .record [("enabled", .bool t.enabled), ("entries", entriesJson t.entries.toList)]

/-- The trace that a JSON value describes. -/
def ofJson? (value : Json) : Option Trace :=
  match value.fields? fieldNames with
  | some [some enabled, some entries] => do
    let enabled ← enabled.bool?
    let entries ← entries.list? TraceEntry.ofJson?
    some ⟨enabled, entries.toArray⟩
  | _ => none

end Trace

namespace Registers

/-- The fields of the registers in JSON. -/
def fieldNames : List String := ["a", "i", "p", "halted", "instructions", "cycles"]

/-- The fields of the display state in JSON. -/
def stateNames : List String :=
  ["accumulator", "index_register", "program_counter", "halted", "instruction_count",
    "cycle_count"]

/-- The JSON values of the registers in order. -/
def values (r : Registers) : List Json :=
  [.ofInt r.accumulator.toInt, .ofInt r.index.toInt, .ofNat r.next.toNat, .bool r.halted,
    .ofNat r.instructions.toNat, .ofNat r.cycles.toNat]

/-- The registers that JSON values in order describe. -/
def ofValues? : List (Option Json) → Option Registers
  | [some accumulator, some index, some next, some halted, some instructions, some cycles] => do
    let accumulator ← accumulator.int32?
    let index ← index.int64?
    let next ← next.uint64?
    let halted ← halted.bool?
    let instructions ← instructions.uint64?
    let cycles ← cycles.uint64?
    some { accumulator, index, next, halted, instructions, cycles }
  | _ => none

/-- The JSON value of the registers. -/
def toJson (r : Registers) : Json := .record (fieldNames.zip r.values)

/-- The registers that a JSON value describes. -/
def ofJson? (value : Json) : Option Registers := (value.fields? fieldNames).bind ofValues?

/-- The JSON value of the display state. -/
def toStateJson (r : Registers) : Json := .record (stateNames.zip r.values)

/-- The registers that the JSON value of a display state describes. -/
def ofStateJson? (value : Json) : Option Registers := (value.fields? stateNames).bind ofValues?

end Registers

namespace Memory

/-- The fields of a memory in JSON. -/
def fieldNames : List String := ["cells"]

/-- The JSON value of a memory. -/
def toJson (m : Memory) : Json :=
  .record [("cells", .ofList (fun w => .ofNat w.toNat) m.cells.toList)]

/-- The memory that a JSON value describes. -/
def ofJson? (value : Json) : Option Memory :=
  match value.fields? fieldNames with
  | some [some cells] => (cells.list? Json.uint32?).bind ofList?
  | _ => none

end Memory

namespace Configuration

/-- The fields of a configuration in JSON. -/
def fieldNames : List String := ["memory_size", "trace_enabled"]

/-- The JSON value of a configuration. -/
def toJson (c : Configuration) : Json :=
  .record [("memory_size", .ofNat c.memorySize.toNat), ("trace_enabled", .bool c.traceEnabled)]

/-- The configuration that a JSON value describes; a field that is missing has its default. -/
def ofJson? (value : Json) : Option Configuration :=
  match value.optionalFields? fieldNames with
  | some [size, trace] => do
    let memorySize ← size.elim (some Memory.standardSize) Json.uint64?
    let traceEnabled ← trace.elim (some false) Json.bool?
    some { memorySize, traceEnabled }
  | _ => none

end Configuration

namespace Machine

/-- The fields of a machine in JSON. -/
def fieldNames : List String :=
  ["regs", "mem", "trace", "rtc_ticks", "rtc_residue", "diagnostic"]

/-- The JSON value of a machine, with the given value for the residue of its clock. -/
def toJsonWithResidue (m : Machine) (residue : Json) : Json :=
  .record [("regs", m.registers.toJson), ("mem", m.memory.toJson), ("trace", m.trace.toJson),
    ("rtc_ticks", .ofNat m.clock.ticks.toNat), ("rtc_residue", residue),
    ("diagnostic", .ofOption .ofString m.diagnostic)]

/-- The JSON value of a machine. -/
def toJson (m : Machine) : Json := m.toJsonWithResidue (.ofFloat m.clock.residue)

/-- The text of an optional string. -/
def diagnosticOfJson? : Json → Option (Option String)
  | .null => some none
  | value => value.string?.map some

/-- The machine that a JSON value describes; a diagnostic that is missing is none. -/
def ofJson? (value : Json) : Option Machine :=
  match value.fields? fieldNames with
  | some [some registers, some memory, some trace, some ticks, some residue, diagnostic] => do
    let registers ← Registers.ofJson? registers
    let memory ← Memory.ofJson? memory
    let trace ← Trace.ofJson? trace
    let ticks ← ticks.uint64?
    let residue ← residue.float?
    let diagnostic ← diagnostic.elim (some none) diagnosticOfJson?
    some { registers, memory, trace, clock := { ticks, residue }, diagnostic }
  | _ => none

/-- The text of a machine in JSON. -/
def toText (m : Machine) : String := m.toJson.compactText

/-- The machine that a JSON text describes. -/
def ofText? (text : String) : Option Machine := (Json.parse? text).bind ofJson?

end Machine

end DirectionCentral

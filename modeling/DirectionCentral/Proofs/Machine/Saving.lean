import DirectionCentral.Machine.Json
import DirectionCentral.Proofs.Binary64.Encoding
import DirectionCentral.Proofs.Json.Record

/-!
# Saved machines

A machine is saved as its text in JSON and resumed from it. Each part of a machine is described by
its own JSON value, field by field (`ofJson?_toJson`), and each value is read back from its text.
Only the residue of the clock need not come back, since the decimal that is written may be read with
an error in the last place; so the machine is resumed as it was if its residue is read back
(`ofText?_toText`). Zero is, under either sign, and a machine with that residue goes on as if it had
never been saved (`saved_machine_resumes`).
-/

namespace DirectionCentral

/-! ## Parts of a machine -/

namespace Instruction

/-- The JSON value of an instruction is legible. -/
theorem legible_toJson (i : Instruction) : i.toJson.Legible := by
  refine Json.legible_record fun member within => ?_
  simp only [List.mem_cons, List.not_mem_nil, or_false] at within
  obtain rfl | rfl | rfl := within
  · exact Json.legible_ofNat _
  · exact Json.legible_ofNat _
  · exact .bool _

/-- The JSON value of an instruction describes it. -/
theorem ofJson?_toJson (i : Instruction) : ofJson? i.toJson = some i := by
  have fields : i.toJson.fields? fieldNames =
      some [some (.ofNat i.code.toNat), some (.ofNat i.address.toNat), some (.bool i.indexed)] :=
    Json.fields?_record (show fieldNames.Nodup by decide)
  rw [ofJson?, fields]
  simp only [Json.uint8?_ofNat, Json.uint16?_ofNat, Json.bool?, Option.bind_eq_bind,
    Option.bind_some]

end Instruction

namespace TraceEntry

/-- The JSON value of a trace entry is legible. -/
theorem legible_toJson (e : TraceEntry) : e.toJson.Legible := by
  refine Json.legible_record fun member within => ?_
  simp only [List.mem_cons, List.not_mem_nil, or_false] at within
  obtain rfl | rfl | rfl | rfl | rfl | rfl := within
  · exact Json.legible_ofNat _
  · exact Json.legible_ofNat _
  · exact e.instruction.legible_toJson
  · exact Json.legible_ofNat _
  · exact Json.legible_ofInt _
  · exact Json.legible_ofInt _

/-- The JSON value of a trace entry describes it. -/
theorem ofJson?_toJson (e : TraceEntry) : ofJson? e.toJson = some e := by
  have fields : e.toJson.fields? fieldNames =
      some [some (.ofNat e.location.toNat), some (.ofNat e.word.toNat), some e.instruction.toJson,
        some (.ofNat e.effectiveAddress.toNat), some (.ofInt e.accumulator.toInt),
        some (.ofInt e.index.toInt)] :=
    Json.fields?_record (show fieldNames.Nodup by decide)
  rw [ofJson?, fields]
  simp only [Json.uint64?_ofNat, Json.uint32?_ofNat, Instruction.ofJson?_toJson, Json.uint16?_ofNat,
    Json.int32?_ofInt, Json.int64?_ofInt, Option.bind_eq_bind, Option.bind_some]

end TraceEntry

namespace Trace

/-- The JSON value of a trace is legible. -/
theorem legible_toJson (t : Trace) : t.toJson.Legible := by
  refine Json.legible_record (List.forall_mem_cons.2 ⟨.bool _, ?_⟩)
  exact List.forall_mem_singleton.2 (Json.legible_ofList fun e _ => e.legible_toJson)

/-- The JSON value of a trace describes it. -/
theorem ofJson?_toJson (t : Trace) : ofJson? t.toJson = some t := by
  have entries : (entriesJson t.entries.toList).list? TraceEntry.ofJson? = some t.entries.toList :=
    Json.list?_ofList fun e _ => e.ofJson?_toJson
  have fields : t.toJson.fields? fieldNames =
      some [some (.bool t.enabled), some (entriesJson t.entries.toList)] :=
    Json.fields?_record (show fieldNames.Nodup by decide)
  rw [ofJson?, fields]
  simp only [Json.bool?, entries, Option.bind_eq_bind, Option.bind_some, Array.toArray_toList]

end Trace

namespace Registers

/-- The JSON values of the registers are legible. -/
theorem legible_of_mem_values (r : Registers) {value : Json} (within : value ∈ r.values) :
    value.Legible := by
  simp only [values, List.mem_cons, List.not_mem_nil, or_false] at within
  obtain rfl | rfl | rfl | rfl | rfl | rfl := within
  · exact Json.legible_ofInt _
  · exact Json.legible_ofInt _
  · exact Json.legible_ofNat _
  · exact .bool _
  · exact Json.legible_ofNat _
  · exact Json.legible_ofNat _

/-- The JSON values of the registers describe them. -/
theorem ofValues?_values (r : Registers) : ofValues? (r.values.map some) = some r := by
  simp only [values, ofValues?, List.map_cons, List.map_nil, Json.int32?_ofInt, Json.int64?_ofInt,
    Json.uint64?_ofNat, Json.bool?, Option.bind_eq_bind, Option.bind_some]

/-- The JSON value of the registers is legible. -/
theorem legible_toJson (r : Registers) : r.toJson.Legible :=
  Json.legible_record fun _ within => r.legible_of_mem_values (List.of_mem_zip within).2

/-- The JSON value of the registers describes them. -/
theorem ofJson?_toJson (r : Registers) : ofJson? r.toJson = some r := by
  have fields : r.toJson.fields? fieldNames = some (r.values.map some) :=
    Json.fields?_record (show fieldNames.Nodup by decide)
  rw [ofJson?, fields, Option.bind_some, ofValues?_values]

end Registers

namespace Memory

/-- The cells of a memory are not too many for a memory. -/
theorem ofList?_cells (m : Memory) : ofList? m.cells.toList = some m :=
  dif_pos m.size_lt

/-- The JSON value of a memory is legible. -/
theorem legible_toJson (m : Memory) : m.toJson.Legible :=
  Json.legible_record
    (List.forall_mem_singleton.2 (Json.legible_ofList fun w _ => Json.legible_ofNat w.toNat))

/-- The JSON value of a memory describes it. -/
theorem ofJson?_toJson (m : Memory) : ofJson? m.toJson = some m := by
  have cells : (Json.ofList (fun w : Word => .ofNat w.toNat) m.cells.toList).list? Json.uint32? =
      some m.cells.toList :=
    Json.list?_ofList fun w _ => Json.uint32?_ofNat w
  have fields : m.toJson.fields? fieldNames =
      some [some (.ofList (fun w => .ofNat w.toNat) m.cells.toList)] :=
    Json.fields?_record (show fieldNames.Nodup by decide)
  rw [ofJson?, fields]
  simp only [cells, Option.bind_some, ofList?_cells]

end Memory

namespace Machine

variable {m : Machine}

/-- The JSON value of an optional diagnostic is legible. -/
theorem legible_ofDiagnostic (diagnostic : Option String) :
    (Json.ofOption .ofString diagnostic).Legible := by
  cases diagnostic with
  | none => exact .null
  | some text => exact .string text

/-- The JSON value of an optional diagnostic describes it. -/
theorem diagnosticOfJson?_ofOption (diagnostic : Option String) :
    diagnosticOfJson? (.ofOption .ofString diagnostic) = some diagnostic := by
  cases diagnostic <;> rfl

/-- The JSON value of a machine is legible if that of its residue is. -/
theorem legible_toJson (residue : (Json.ofFloat m.clock.residue).Legible) : m.toJson.Legible := by
  refine Json.legible_record fun member within => ?_
  simp only [List.mem_cons, List.not_mem_nil, or_false] at within
  obtain rfl | rfl | rfl | rfl | rfl | rfl := within
  · exact m.registers.legible_toJson
  · exact m.memory.legible_toJson
  · exact m.trace.legible_toJson
  · exact Json.legible_ofNat _
  · exact residue
  · exact legible_ofDiagnostic _

/-- The JSON value of a machine describes it if that of its residue does. -/
theorem ofJson?_toJson
    (residue : (Json.ofFloat m.clock.residue).float? = some m.clock.residue) :
    ofJson? m.toJson = some m := by
  have fields : m.toJson.fields? fieldNames =
      some [some m.registers.toJson, some m.memory.toJson, some m.trace.toJson,
        some (.ofNat m.clock.ticks.toNat), some (.ofFloat m.clock.residue),
        some (.ofOption .ofString m.diagnostic)] :=
    Json.fields?_record (show fieldNames.Nodup by decide)
  rw [ofJson?, fields]
  simp only [Registers.ofJson?_toJson, Memory.ofJson?_toJson, Trace.ofJson?_toJson,
    Json.uint64?_ofNat, residue, Option.elim_some, diagnosticOfJson?_ofOption, Option.bind_eq_bind,
    Option.bind_some]

/-- A machine is read back from its text if its residue is. -/
theorem ofText?_toText (legible : (Json.ofFloat m.clock.residue).Legible)
    (residue : (Json.ofFloat m.clock.residue).float? = some m.clock.residue) :
    ofText? m.toText = some m := by
  rw [ofText?, toText, Json.parse?_compactText (legible_toJson legible), Option.bind_some,
    ofJson?_toJson residue]

/-! ## The residue zero -/

/-- The JSON value of a zero is legible. -/
theorem legible_ofFloat_zero {x : Float} (zero : (x == 0.0) = true) : (Json.ofFloat x).Legible := by
  obtain rfl | rfl := Binary64.eq_zero_of_beq_zero zero
  · exact .number (List.all_eq_true.1 rfl) rfl
  · exact .number (List.all_eq_true.1 rfl) rfl

/-- The JSON value of a zero describes it, with its sign. -/
theorem float?_ofFloat_zero {x : Float} (zero : (x == 0.0) = true) :
    (Json.ofFloat x).float? = some x := by
  obtain rfl | rfl := Binary64.eq_zero_of_beq_zero zero
  · decide +kernel
  · decide +kernel

/-- A machine whose residue is zero is resumed from its text as it was, so every run of it goes as
if it had not been saved: the same machine in the end, and the same count of instructions. -/
theorem saved_machine_resumes (m : Machine) (zero : (m.clock.residue == 0.0) = true) :
    ofText? m.toText = some m ∧
      ∀ budget, (ofText? m.toText).map (·.runCounted budget) = some (m.runCounted budget) := by
  have restored : ofText? m.toText = some m :=
    ofText?_toText (legible_ofFloat_zero zero) (float?_ofFloat_zero zero)
  refine ⟨restored, fun budget => ?_⟩
  rw [restored, Option.map_some]

/-- A machine with values at their limits and a diagnostic that needs escapes. Its next word has no
operation, and the count of instructions passes its own limit with it. -/
theorem saved_machine_resumes_limits :
    let entry : TraceEntry :=
      { location := 18446744073709551615, word := 0x94000007,
        instruction := .decode 0x94000007, effectiveAddress := 65535,
        accumulator := -1, index := 9223372036854775807 }
    let m : Machine :=
      { registers :=
          { accumulator := -2147483648, index := -9223372036854775808, next := 1,
            instructions := 18446744073709551615, cycles := 18446744073709551615 }
        memory := (Memory.zeroed 2).write 1 0xFFFFFFFF
        trace := { enabled := true, entries := #[entry] }
        clock := { ticks := 18446744073709551615 }
        diagnostic := some "\"quoted\" \\ \t \u0000 é" }
    (m.clock.residue == 0.0) = true ∧ (m.runCounted 5).1 = 1 ∧
      (m.runCounted 5).2.registers.instructions = 0 ∧ ofText? m.toText = some m ∧
      ∀ budget, (ofText? m.toText).map (·.runCounted budget) = some (m.runCounted budget) := by
  intro entry m
  have zero : (m.clock.residue == 0.0) = true := by decide +kernel
  exact ⟨zero, by decide +kernel, by decide +kernel, saved_machine_resumes m zero⟩

end Machine

end DirectionCentral

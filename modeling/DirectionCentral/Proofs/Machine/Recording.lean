import DirectionCentral.Proofs.Machine.Run

/-!
# What the trace records

While tracing is on, a run adds one entry for each of its steps that finds the machine running, and
the entry says what the machine had before that step (`trace_steps`). The word of an entry is the
word that was fetched, even if the instruction then stores another word in its own cell, and its
address is the one under the old index register. The steps that find the machine running are the
first ones of a run, so the `j`-th entry is about the machine after `j` steps.
-/

namespace DirectionCentral

/-! ## The last entries -/

namespace Trace

/-- The last entries are at the end of the list. -/
theorem recent_suffix (t : Trace) (count : Nat) : t.recent count <:+ t.entries.toList :=
  List.drop_suffix _ _

/-- The last entries are as many as are asked for, or all. -/
theorem length_recent (t : Trace) (count : Nat) :
    (t.recent count).length = min count t.entries.size := by
  rw [recent, List.length_drop, Array.length_toList]
  omega

/-- While tracing is on, recording adds an entry at the end. -/
theorem toList_record {t : Trace} (on : t.enabled = true) (entry : TraceEntry) :
    (t.record entry).entries.toList = t.entries.toList ++ [entry] := by
  rw [record, if_pos on, Array.toList_push]

end Trace

namespace Machine

/-- An entry says what a machine has before its next step. -/
structure Describes (entry : TraceEntry) (m : Machine) : Prop where
  /-- The location is the next address. -/
  location : entry.location = m.registers.next
  /-- The word is in the cell there; past the end of memory it is the halting word. -/
  word : entry.word =
    if m.registers.next.toNat < m.memory.size then m.memory.read m.registers.next else 0
  /-- The fields are those of the word. -/
  instruction : entry.instruction = Instruction.decode entry.word
  /-- The address is what the word refers to under the index register. -/
  effectiveAddress : entry.effectiveAddress = m.registers.effectiveAddress entry.word
  /-- The accumulator. -/
  accumulator : entry.accumulator = m.registers.accumulator
  /-- The index register. -/
  index : entry.index = m.registers.index

variable {m : Machine}

/-- What the trace says of the next step is what the machine has. -/
theorem describes_upcoming (m : Machine) : Describes m.upcoming m where
  location := rfl
  word := by
    change m.fetched = _
    rw [fetched, atEnd]
    by_cases inside : m.registers.next.toNat < m.memory.size
    · rw [if_pos inside, if_neg (by simpa using inside)]
    · rw [if_neg inside, if_pos (by simpa using inside)]
      rfl
  instruction := rfl
  effectiveAddress := rfl
  accumulator := rfl
  index := rfl

/-! ## Steps that find the machine running -/

/-- A machine that runs after some steps was running before each of them. -/
theorem running_before {n : Nat} (running : (step^[n] m).registers.halted = false) {k : Nat}
    (before : k ≤ n) : (step^[k] m).registers.halted = false := by
  cases stopped : (step^[k] m).registers.halted with
  | false => rfl
  | true =>
    have kept : step^[n] m = step^[k] m := by
      rw [← Nat.sub_add_cancel before, Function.iterate_add_apply, steps_of_halted stopped]
    rw [kept, stopped] at running
    contradiction

/-- If the machine still runs after `n` steps, each of them found it running. -/
theorem activeSteps_of_running {n : Nat} (running : (step^[n] m).registers.halted = false) :
    m.activeSteps n = n := by
  have all : ∀ k ∈ List.range n, (step^[k] m).isRunning = true := fun k member => by
    have before : k < n := List.mem_range.1 member
    rw [isRunning, running_before running (Nat.le_of_lt before)]
    rfl
  rw [activeSteps, List.countP_eq_length.2 all, List.length_range]

/-- While tracing is on, a run records what each step that finds the machine running begins with. -/
theorem entries_steps (on : m.trace.enabled = true) (n : Nat) :
    (step^[n] m).trace.entries.toList = m.trace.entries.toList ++
      (List.range (m.activeSteps n)).map fun j => (step^[j] m).upcoming := by
  induction n with
  | zero => simp [activeSteps]
  | succ n ih =>
    rw [Function.iterate_succ_apply', activeSteps_succ]
    cases stopped : (step^[n] m).registers.halted with
    | true => simp [step_of_halted stopped, isRunning, stopped, ih]
    | false =>
      have still : (step^[n] m).trace.enabled = true := (m.enabled_steps n).trans on
      rw [(stepped_step stopped).trace, Trace.toList_record still, ih, isRunning, stopped,
        activeSteps_of_running stopped]
      simp [List.range_succ]

/-- While tracing is on, the trace after `n` steps is the trace before them and one new entry for
each step that found the machine running, about the machine before that step; the last entries are
the end of that list. -/
theorem trace_steps (on : m.trace.enabled = true) (n : Nat) :
    ∃ added : List TraceEntry,
      (step^[n] m).trace.entries.toList = m.trace.entries.toList ++ added ∧
      added.length = m.activeSteps n ∧
      (∀ j (inside : j < added.length), Describes added[j] (step^[j] m)) ∧
      ∀ count, (step^[n] m).trace.recent count <:+ m.trace.entries.toList ++ added ∧
        ((step^[n] m).trace.recent count).length =
          min count (m.trace.entries.size + m.activeSteps n) := by
  have entries := entries_steps on n
  refine ⟨_, entries, by simp, fun j inside => ?_, fun count => ⟨?_, ?_⟩⟩
  · rw [List.getElem_map, List.getElem_range]
    exact describes_upcoming _
  · rw [← entries]
    exact Trace.recent_suffix _ _
  · rw [Trace.length_recent, size_trace_steps, if_pos on]

/-- Six steps of a program with an instruction that overwrites its own cell and one that counts down
the index register of its own address: four of the steps find the machine running, and the entries
hold the word and the address from before. -/
theorem trace_steps_overwritten :
    let m : Machine :=
      { memory := ⟨#[0x13000001, 0x02000001, 0x14020000, 0], by decide⟩
        trace := { enabled := true } }
    m.trace.enabled = true ∧ m.activeSteps 6 = 4 ∧ (step^[6] m).memory.read 1 = 0 ∧
      (step^[6] m).trace.entries.toList.map (·.word) = [0x13000001, 0x02000001, 0x14020000, 0] ∧
      (step^[6] m).trace.entries.toList.map (·.effectiveAddress) = [1, 1, 1, 0] ∧
      ∃ added : List TraceEntry,
        (step^[6] m).trace.entries.toList = m.trace.entries.toList ++ added ∧
        added.length = m.activeSteps 6 ∧
        (∀ j (inside : j < added.length), Describes added[j] (step^[j] m)) ∧
        ∀ count, (step^[6] m).trace.recent count <:+ m.trace.entries.toList ++ added ∧
          ((step^[6] m).trace.recent count).length =
            min count (m.trace.entries.size + m.activeSteps 6) :=
  ⟨rfl, by decide +kernel, by decide +kernel, by decide +kernel, by decide +kernel,
    trace_steps rfl 6⟩

end Machine

end DirectionCentral

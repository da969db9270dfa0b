import Mathlib.Logic.Function.Iterate
import DirectionCentral.Machine

/-!
# Runs as steps

What a step does beside its operation: it records one entry, counts one instruction and one cycle,
keeps the next address within memory and gives no diagnostic unless it halts (`stepped_step`). The
parts of a step are related first by what none of them changes and what they only change in one
direction (`Onward`). A run is its budget in steps (`run_eq_steps`), and what it counts and records
is the number of steps that find the machine running (`activeSteps`).
-/

namespace DirectionCentral

/-- Recording makes the trace longer by one entry just if tracing is on. -/
theorem Trace.size_record (t : Trace) (entry : TraceEntry) :
    (t.record entry).entries.size = t.entries.size + if t.enabled then 1 else 0 := by
  rw [record]
  split
  · exact Array.size_push _
  · rfl

/-- Recording turns tracing neither on nor off. -/
@[simp]
theorem Trace.enabled_record (t : Trace) (entry : TraceEntry) :
    (t.record entry).enabled = t.enabled := by
  rw [record]
  split <;> rfl

namespace Machine

/-! ## Within a step -/

/-- What the parts of a step keep between them. -/
structure Onward (m m' : Machine) : Prop where
  /-- No cell is added or removed. -/
  size : m'.memory.size = m.memory.size
  /-- The trace is the same. -/
  trace : m'.trace = m.trace
  /-- The clock is the same. -/
  clock : m'.clock = m.clock
  /-- No instruction is counted. -/
  instructions : m'.registers.instructions = m.registers.instructions
  /-- No cycle is counted. -/
  cycles : m'.registers.cycles = m.registers.cycles
  /-- The next address does not leave memory and its end. -/
  next_le : m.registers.next.toNat ≤ m.memory.size → m'.registers.next.toNat ≤ m'.memory.size
  /-- A halted machine does not start again. -/
  halted : m.registers.halted = true → m'.registers.halted = true
  /-- A diagnostic is given only on halting. -/
  diagnostic : m'.registers.halted = false → m'.diagnostic = m.diagnostic

variable {m m' m'' : Machine}

namespace Onward

/-- A machine comes from itself. -/
theorem refl (m : Machine) : Onward m m := ⟨rfl, rfl, rfl, rfl, rfl, id, id, fun _ => rfl⟩

/-- What a part leaves running was running before it. -/
theorem running (part : Onward m m') (goesOn : m'.registers.halted = false) :
    m.registers.halted = false := by
  cases stopped : m.registers.halted with
  | false => rfl
  | true => exact absurd (part.halted stopped) (ne_true_of_eq_false goesOn)

/-- Two parts make a part. -/
theorem trans (first : Onward m m') (second : Onward m' m'') : Onward m m'' where
  size := second.size.trans first.size
  trace := second.trace.trans first.trace
  clock := second.clock.trans first.clock
  instructions := second.instructions.trans first.instructions
  cycles := second.cycles.trans first.cycles
  next_le := second.next_le ∘ first.next_le
  halted := second.halted ∘ first.halted
  diagnostic goesOn :=
    (second.diagnostic goesOn).trans (first.diagnostic (second.running goesOn))

end Onward

/-- A fault halts. -/
theorem onward_fault (m : Machine) (d : Diagnostic) : Onward m (m.fault d) :=
  ⟨rfl, rfl, rfl, rfl, rfl, id, fun _ => rfl, fun running => absurd running (by simp [fault])⟩

/-- A jump goes to memory or its end. -/
theorem onward_jump (m : Machine) (address : UInt16) : Onward m (m.jump address) where
  size := rfl
  trace := rfl
  clock := rfl
  instructions := rfl
  cycles := rfl
  next_le _ := by
    have fits : m.memory.size < 2 ^ 64 := m.memory.size_lt
    change (UInt64.ofNat (min address.toNat m.memory.size)).toNat ≤ m.memory.size
    rw [UInt64.toNat_ofNat', Nat.mod_eq_of_lt (by omega)]
    exact Nat.min_le_right _ _
  halted := id
  diagnostic _ := rfl

/-- Setting the index register goes nowhere. -/
theorem onward_setIndex (m : Machine) (value : Int64) : Onward m (m.setIndex value) :=
  ⟨rfl, rfl, rfl, rfl, rfl, id, id, fun _ => rfl⟩

/-- A store goes nowhere. -/
theorem onward_write (m : Machine) (address : UInt64) (word : Word) :
    Onward m (m.write address word) where
  size := Memory.size_write ..
  trace := rfl
  clock := rfl
  instructions := rfl
  cycles := rfl
  next_le inside := by rwa [Machine.write, Memory.size_write]
  halted := id
  diagnostic _ := rfl

/-- Moving past the fetched word stops at the end of memory. -/
theorem onward_passFetch (m : Machine) : Onward m m.passFetch := by
  rw [passFetch]
  split
  · exact m.onward_fault _
  · rename_i inside
    refine ⟨rfl, rfl, rfl, rfl, rfl, fun _ => ?_, id, fun _ => rfl⟩
    have below : m.registers.next.toNat < m.memory.size := by simpa [atEnd] using inside
    have fits : m.memory.size < 2 ^ 64 := m.memory.size_lt
    change (m.registers.next + 1).toNat ≤ m.memory.size
    rw [UInt64.toNat_add, UInt64.toNat_one, Nat.mod_eq_of_lt (by omega)]
    exact below

/-- Every operation keeps what the parts of a step keep. -/
theorem onward_perform (m : Machine) (op : Operation) (i : Instruction) (ea : UInt16) :
    Onward m (m.perform op i ea) := by
  cases op <;> simp only [perform]
  case hlt => exact ⟨rfl, rfl, rfl, rfl, rfl, id, fun _ => rfl, fun _ => rfl⟩
  case lda | add | sub | mpy | dvh => exact ⟨rfl, rfl, rfl, rfl, rfl, id, id, fun _ => rfl⟩
  case sto => exact m.onward_write _ _
  case tra => exact m.onward_jump ea
  case tnz | tmi =>
    split
    · exact m.onward_jump ea
    · exact .refl m
  case tsx => exact (m.onward_setIndex _).trans (onward_jump _ ea)
  case tix | txi =>
    split
    · exact (m.onward_setIndex _).trans (onward_jump _ ea)
    · exact m.onward_setIndex _

/-- Dispatching keeps what the parts of a step keep. -/
theorem onward_dispatch (m : Machine) (e : TraceEntry) : Onward m (m.dispatch e) := by
  rw [dispatch]
  split
  · exact m.onward_perform ..
  · exact m.onward_fault _

/-! ## A step -/

/-- What a step of a running machine does beside its operation. -/
structure Stepped (m m' : Machine) : Prop where
  /-- No cell is added or removed. -/
  size : m'.memory.size = m.memory.size
  /-- One entry is recorded, if tracing is on. -/
  trace : m'.trace = m.trace.record m.upcoming
  /-- The clock is the same. -/
  clock : m'.clock = m.clock
  /-- One instruction is counted. -/
  instructions : m'.registers.instructions = m.registers.instructions + 1
  /-- One cycle is counted. -/
  cycles : m'.registers.cycles = m.registers.cycles + 1
  /-- The next address does not leave memory and its end. -/
  next_le : m.registers.next.toNat ≤ m.memory.size → m'.registers.next.toNat ≤ m'.memory.size
  /-- A diagnostic is given only on halting. -/
  diagnostic : m'.registers.halted = false → m'.diagnostic = m.diagnostic

/-- A step of a running machine. -/
theorem stepped_step (running : m.registers.halted = false) : Stepped m m.step := by
  have fetched := m.onward_passFetch
  have dispatched := (m.passFetch.record m.upcoming).onward_dispatch m.upcoming
  rw [step, if_neg (by simp [running])]
  exact {
    size := dispatched.size.trans fetched.size
    trace := by
      change ((m.passFetch.record m.upcoming).dispatch m.upcoming).trace = _
      rw [dispatched.trace, record, fetched.trace]
    clock := dispatched.clock.trans fetched.clock
    instructions := congrArg (· + 1) (dispatched.instructions.trans fetched.instructions)
    cycles := congrArg (· + 1) (dispatched.cycles.trans fetched.cycles)
    next_le := fun inside => dispatched.next_le (fetched.next_le inside)
    diagnostic := fun goesOn =>
      (dispatched.diagnostic goesOn).trans (fetched.diagnostic (dispatched.running goesOn)) }

/-! ## Steps in a row -/

/-- Steps leave a halted machine as it is. -/
theorem steps_of_halted (h : m.registers.halted = true) (n : Nat) : step^[n] m = m :=
  Function.iterate_fixed (step_of_halted h) n

/-- A run is its budget in steps: after halting the steps that are left do nothing. -/
theorem run_eq_steps (m : Machine) (n : Nat) : m.run n = step^[n] m := by
  induction n generalizing m with
  | zero => rfl
  | succ n ih =>
    rw [run, Function.iterate_succ_apply]
    by_cases stopped : m.step.registers.halted = true
    · rw [if_pos stopped, steps_of_halted stopped]
    · rw [if_neg stopped, ih]

/-- How many of the first `n` steps find the machine running. -/
def activeSteps (m : Machine) (n : Nat) : Nat :=
  (List.range n).countP fun k => (step^[k] m).isRunning

/-- One step more is counted if it finds the machine running. -/
theorem activeSteps_succ (m : Machine) (n : Nat) :
    m.activeSteps (n + 1) = m.activeSteps n + if (step^[n] m).isRunning then 1 else 0 := by
  rw [activeSteps, List.range_succ, List.countP_append, List.countP_singleton, ← activeSteps]

/-- What every step keeps, steps keep. -/
theorem steps_induction {P : Machine → Prop} (keep : ∀ m, P m → P m.step) (start : P m) (n : Nat) :
    P (step^[n] m) := by
  induction n with
  | zero => exact start
  | succ n ih =>
    rw [Function.iterate_succ_apply']
    exact keep _ ih

/-- The instructions that are counted are the steps that find the machine running. -/
theorem instructions_steps (m : Machine) (n : Nat) :
    (step^[n] m).registers.instructions =
      m.registers.instructions + UInt64.ofNat (m.activeSteps n) := by
  induction n with
  | zero => simp [activeSteps]
  | succ n ih =>
    rw [Function.iterate_succ_apply', activeSteps_succ]
    cases stopped : (step^[n] m).registers.halted with
    | true => simp [step_of_halted stopped, isRunning, stopped, ih]
    | false =>
      rw [(stepped_step stopped).instructions, ih, isRunning, stopped]
      simp [UInt64.add_assoc]

/-- Steps turn tracing neither on nor off. -/
theorem enabled_steps (m : Machine) (n : Nat) :
    (step^[n] m).trace.enabled = m.trace.enabled := by
  refine steps_induction (P := fun m' => m'.trace.enabled = m.trace.enabled) ?_ rfl n
  intro m' same
  cases stopped : m'.registers.halted with
  | true => rwa [step_of_halted stopped]
  | false => rwa [(stepped_step stopped).trace, Trace.enabled_record]

/-- While tracing is on, each step that finds the machine running is recorded. -/
theorem size_trace_steps (m : Machine) (n : Nat) :
    (step^[n] m).trace.entries.size =
      m.trace.entries.size + if m.trace.enabled then m.activeSteps n else 0 := by
  induction n with
  | zero => simp [activeSteps]
  | succ n ih =>
    rw [Function.iterate_succ_apply', activeSteps_succ]
    cases stopped : (step^[n] m).registers.halted with
    | true => simp [step_of_halted stopped, isRunning, stopped, ih]
    | false =>
      rw [(stepped_step stopped).trace, Trace.size_record, enabled_steps, ih, isRunning, stopped]
      split <;> simp [Nat.add_assoc]

end Machine

end DirectionCentral

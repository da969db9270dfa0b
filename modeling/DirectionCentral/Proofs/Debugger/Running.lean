import Mathlib.Order.Bounds.Basic
import DirectionCentral.Proofs.Debugger.Session

/-!
# Running in ticks

A debugger that was told to run performs one instruction a tick until its machine is halted or comes
to a breakpoint. The machine is then that of a plain run, cut at the first of these places
(`machine_of_run`). One tick more either finds such a place, where it only clears the running flag,
or finds none, and then every tick before it has performed an instruction too; so the number of
steps that are made is the least that leads to a stop, or the number of ticks.
-/

namespace DirectionCentral.Debugger

/-- Whether a machine is where the debugger stops running: halted or at a breakpoint. -/
def StopsAt (d : Debugger) (m : Machine) : Prop :=
  m.registers.halted = true ∨ m.registers.next ∈ d.breakpoints

/-- Of the numbers up to `k`, `j` is the least such that the debugger stops after so many steps of
its machine; if there is none, it is `k`. -/
def FirstStop (d : Debugger) (k j : Nat) : Prop :=
  IsLeast {i | i ≤ k ∧ (d.StopsAt (Machine.step^[i] d.machine) ∨ i = k)} j

/-- What is left of a debugger after a run of `k` ticks that has made `j` steps. -/
structure HasRun (d : Debugger) (k j : Nat) (d' : Debugger) : Prop where
  /-- The machine has made the steps. -/
  machine : d'.machine = Machine.step^[j] d.machine
  /-- The debugger runs no longer if the machine has halted, as soon as there was a tick to notice
  it, or if a tick has made no step. -/
  running : d'.running = false ↔
    (Machine.step^[j] d.machine).registers.halted = true ∧ 1 ≤ k ∨ j < k
  /-- The breakpoints stay. -/
  breakpoints : d'.breakpoints = d.breakpoints
  /-- The program stays. -/
  program : d'.image = d.image
  /-- The configuration stays. -/
  settings : d'.config = d.config
  /-- The view of memory stays. -/
  scroll : d'.scroll = d.scroll
  /-- The wish to leave stays. -/
  quitting : d'.quitting = d.quitting

variable {d d' : Debugger} {k j : Nat}

/-! ## Where a run is cut -/

namespace FirstStop

/-- Before the first tick no step is made. -/
theorem zero (d : Debugger) : d.FirstStop 0 0 :=
  ⟨⟨Nat.le_refl 0, .inr rfl⟩, fun _ _ => Nat.zero_le _⟩

/-- A place where the debugger stops is still the first one after another tick. -/
theorem stay (first : d.FirstStop k j) (stops : d.StopsAt (Machine.step^[j] d.machine)) :
    d.FirstStop (k + 1) j := by
  have upto : j ≤ k := first.1.1
  refine ⟨⟨Nat.le_succ_of_le upto, .inl stops⟩, ?_⟩
  rintro i ⟨-, there | last⟩
  · by_cases within : i ≤ k
    · exact first.2 ⟨within, .inl there⟩
    · omega
  · omega

/-- Where the debugger does not stop, every tick has made a step, and there was no stop before. -/
theorem eq_of_not_stopsAt (first : d.FirstStop k j)
    (goesOn : ¬ d.StopsAt (Machine.step^[j] d.machine)) : j = k := by
  obtain ⟨-, stops | last⟩ := first.1
  · exact absurd stops goesOn
  · exact last

/-- If the debugger has not stopped, another tick makes another step. -/
theorem go (first : d.FirstStop k j) (goesOn : ¬ d.StopsAt (Machine.step^[j] d.machine)) :
    d.FirstStop (k + 1) (j + 1) := by
  have all : j = k := first.eq_of_not_stopsAt goesOn
  refine ⟨⟨by omega, .inr (by omega)⟩, ?_⟩
  rintro i ⟨-, there | last⟩
  · have notBefore : ¬ i < j := by
      intro before
      have least : j ≤ i := first.2 ⟨by omega, .inl there⟩
      omega
    have notThere : i ≠ j := by
      rintro rfl
      exact goesOn there
    omega
  · omega

end FirstStop

/-! ## One tick -/

/-- A step of the debugger on a machine that is not halted performs one instruction; the debugger
runs on unless that halts the machine. -/
theorem step_of_running (running : d.machine.registers.halted = false) :
    ∃ status, d.step =
      { d with
        machine := d.machine.step
        running := d.running && !d.machine.step.registers.halted
        status } := by
  rw [step, if_neg (ne_true_of_eq_false running)]
  simp only
  cases stopped : d.machine.step.registers.halted with
  | true =>
    rw [if_pos rfl, Bool.not_true, Bool.and_false]
    exact ⟨_, rfl⟩
  | false =>
    rw [if_neg Bool.false_ne_true, Bool.not_false, Bool.and_true]
    exact ⟨_, rfl⟩

/-- A tick where the debugger stops performs nothing and clears the running flag. -/
theorem tick_of_stopsAt (stops : d.StopsAt d.machine) :
    ∃ status, d.tick = { d with running := false, status } := by
  rw [tick]
  by_cases idle : d.running = true
  · rw [if_pos idle]
    by_cases halted : d.machine.registers.halted = true
    · rw [if_pos halted]
      exact ⟨_, rfl⟩
    · have there : d.machine.registers.next ∈ d.breakpoints := stops.resolve_left halted
      rw [if_neg halted, if_pos (List.contains_iff_mem.2 there)]
      exact ⟨_, rfl⟩
  · rw [if_neg idle]
    have cleared : d.running = false := Bool.eq_false_of_not_eq_true idle
    exact ⟨d.status, by rw [← cleared]⟩

/-- A tick of a running debugger where it does not stop is a step. -/
theorem tick_of_not_stopsAt (running : d.running = true) (goesOn : ¬ d.StopsAt d.machine) :
    d.tick = d.step := by
  have notHalted : ¬ d.machine.registers.halted = true := fun halted => goesOn (.inl halted)
  have noBreakpoint : ¬ d.breakpoints.contains d.machine.registers.next = true := fun there =>
    goesOn (.inr (List.contains_iff_mem.1 there))
  rw [tick, if_pos running, if_neg notHalted, if_neg noBreakpoint]

/-- No tick performs the instruction at a breakpoint. -/
theorem machine_tick_of_breakpoint (there : d.machine.registers.next ∈ d.breakpoints) :
    d.tick.machine = d.machine := by
  obtain ⟨status, ticked⟩ := tick_of_stopsAt (d := d) (.inr there)
  rw [ticked]

/-! ## All ticks -/

namespace HasRun

/-- Being told to run is a run without ticks. -/
theorem start (d : Debugger) : HasRun d 0 0 d.run where
  machine := rfl
  running := by simp [run]
  breakpoints := rfl
  program := rfl
  settings := rfl
  scroll := rfl
  quitting := rfl

/-- Another tick where the debugger stops makes no step. -/
theorem stay (ran : HasRun d k j d') (upto : j ≤ k)
    (stops : d.StopsAt (Machine.step^[j] d.machine)) : HasRun d (k + 1) j d'.tick := by
  have there : d'.StopsAt d'.machine := by
    rwa [StopsAt, ran.machine, ran.breakpoints]
  obtain ⟨status, ticked⟩ := tick_of_stopsAt there
  rw [ticked]
  exact { ran with running := iff_of_true rfl (.inr (by omega)) }

/-- Another tick where the debugger does not stop makes another step. -/
theorem go (ran : HasRun d k k d') (goesOn : ¬ d.StopsAt (Machine.step^[k] d.machine)) :
    HasRun d (k + 1) (k + 1) d'.tick := by
  have notThere : ¬ d'.StopsAt d'.machine := by
    rwa [StopsAt, ran.machine, ran.breakpoints]
  have notHalted : (Machine.step^[k] d.machine).registers.halted = false :=
    Bool.eq_false_of_not_eq_true fun halted => goesOn (.inl halted)
  have running : d'.running = true := by
    have cleared := ran.running
    rw [notHalted] at cleared
    simpa using cleared
  have performed : d'.machine.step = Machine.step^[k + 1] d.machine := by
    rw [Function.iterate_succ_apply', ran.machine]
  rw [← ran.machine] at notHalted
  obtain ⟨status, stepped⟩ := step_of_running notHalted
  rw [tick_of_not_stopsAt running notThere, stepped, performed, running, Bool.true_and]
  refine { ran with machine := rfl, running := ?_ }
  simp

/-- After `k` ticks there is a number of steps that were made, and it is the first that leads to a
stop. -/
theorem ticks (d : Debugger) (k : Nat) : ∃ j, d.FirstStop k j ∧ HasRun d k j (tick^[k] d.run) := by
  induction k with
  | zero => exact ⟨0, .zero d, .start d⟩
  | succ k ih =>
    obtain ⟨j, first, ran⟩ := ih
    rw [Function.iterate_succ_apply']
    by_cases stops : d.StopsAt (Machine.step^[j] d.machine)
    · exact ⟨j, first.stay stops, ran.stay first.1.1 stops⟩
    · obtain rfl : j = k := first.eq_of_not_stopsAt stops
      exact ⟨j + 1, first.go stops, ran.go stops⟩

end HasRun

/-- A halted machine stays as it is, so without breakpoints a cut run is the whole run. -/
theorem steps_of_firstStop (none : d.breakpoints = []) (first : d.FirstStop k j) :
    Machine.step^[j] d.machine = Machine.step^[k] d.machine := by
  obtain ⟨upto, (halted | there) | rfl⟩ := first.1
  · rw [← Nat.sub_add_cancel upto, Function.iterate_add_apply, Machine.steps_of_halted halted]
  · rw [none] at there
    contradiction
  · rfl

/-- A debugger that was told to run has made, after `k` ticks, as many steps as lead to the first
place where its machine is halted or at a breakpoint, and `k` if there is no such place. It runs no
longer just if the machine has halted, as soon as there was a tick, or if fewer than `k` steps were
made; and nothing but machine, running flag and status has changed. No tick performs the instruction
at a breakpoint, and without breakpoints the machine is that of a run with the budget `k`. -/
theorem machine_of_run (d : Debugger) (k : Nat) :
    (∃ j, d.FirstStop k j ∧ HasRun d k j (tick^[k] d.run)) ∧
      (∀ d' : Debugger, d'.machine.registers.next ∈ d'.breakpoints →
        d'.tick.machine = d'.machine) ∧
      (d.breakpoints = [] → (tick^[k] d.run).machine = d.machine.run k) := by
  obtain ⟨j, first, ran⟩ := HasRun.ticks d k
  refine ⟨⟨j, first, ran⟩, fun _ there => machine_tick_of_breakpoint there, fun none => ?_⟩
  rw [ran.machine, steps_of_firstStop none first, Machine.run_eq_steps]

/-- A loop of two instructions with a breakpoint at the second one. The run is cut after one step,
and further ticks leave the machine there; without the breakpoint five ticks go twice around the
loop and on. -/
theorem machine_of_run_breakpoint :
    let d := ofImage (.ofWords 0 [0x03000002, 0x10000000, 7]) { memorySize := 3 }
    let cut : Debugger := { d with breakpoints := [1] }
    (tick^[5] cut.run).machine.registers.next ∈ (tick^[5] cut.run).breakpoints ∧
      (tick^[5] cut.run).machine.registers.accumulator = 7 ∧
      (tick^[5] cut.run).running = false ∧
      (tick^[6] cut.run).machine = (tick^[5] cut.run).machine ∧
      d.breakpoints = [] ∧ (d.machine.run 5).registers.accumulator = 21 ∧
      (tick^[5] d.run).machine = d.machine.run 5 := by
  intro d cut
  have there : (tick^[5] cut.run).machine.registers.next ∈ (tick^[5] cut.run).breakpoints := by
    decide +kernel
  refine ⟨there, by decide +kernel, by decide +kernel, ?_, rfl, by decide +kernel, ?_⟩
  · rw [Function.iterate_succ_apply']
    exact (machine_of_run cut 5).2.1 _ there
  · exact (machine_of_run d 5).2.2 rfl

end DirectionCentral.Debugger

import DirectionCentral.Debugger
import DirectionCentral.Proofs.Machine.Loading
import DirectionCentral.Proofs.Machine.Run

/-!
# The debugger leaves the program alone

Whatever happens to a debugger (`Event`), its machine is what the program alone would have made of a
new machine in as many instructions as the trace has entries (`machine_of_session`). An event
performs at most one instruction (`Handled`) or builds the machine anew; along a session this is
carried by the length of the trace, which every performed instruction makes longer by one.
-/

namespace DirectionCentral.Debugger

/-- What can happen to a debugger. -/
inductive Event where
  /-- A key is pressed. -/
  | key (key : Key)
  /-- Time passes. -/
  | tick
  /-- One instruction is asked for. -/
  | step
  /-- A run is asked for. -/
  | run
  /-- A breakpoint is set or removed. -/
  | toggleBreakpoint
  /-- The view of memory moves up. -/
  | scrollUp
  /-- The view of memory moves down. -/
  | scrollDown
  /-- The machine is to be built anew. -/
  | reset

/-- Whether an event builds the machine anew: by request or by key. -/
def Event.resets : Event → Bool
  | .reset | .key (.char 'x') => true
  | _ => false

/-- The debugger after an event. -/
def handle (d : Debugger) : Event → Debugger
  | .key key => d.press key
  | .tick => d.tick
  | .step => d.step
  | .run => d.run
  | .toggleBreakpoint => d.toggleBreakpoint
  | .scrollUp => d.scrollUp
  | .scrollDown => d.scrollDown
  | .reset => d.reset

/-- The debugger after a session. -/
def after (d : Debugger) (events : List Event) : Debugger := events.foldl handle d

variable {image : Image} {config : Configuration} {d d' : Debugger}

/-! ## One event -/

/-- What an event without a reset leaves: the program, and the machine but for one step. -/
structure Handled (d d' : Debugger) : Prop where
  /-- The program stays. -/
  program : d'.image = d.image
  /-- The configuration stays. -/
  settings : d'.config = d.config
  /-- At most one instruction is performed. -/
  machine : d'.machine = d.machine ∨ d'.machine = d.machine.step

/-- A step performs one instruction, unless the machine is halted. -/
theorem handled_step (d : Debugger) : Handled d d.step := by
  rw [step]
  split
  · exact ⟨rfl, rfl, .inl rfl⟩
  · simp only
    split <;> exact ⟨rfl, rfl, .inr rfl⟩

/-- A tick performs one instruction at most. -/
theorem handled_tick (d : Debugger) : Handled d d.tick := by
  rw [tick]
  split
  · split
    · exact ⟨rfl, rfl, .inl rfl⟩
    · split
      · exact ⟨rfl, rfl, .inl rfl⟩
      · exact d.handled_step
  · exact ⟨rfl, rfl, .inl rfl⟩

/-- Setting or removing a breakpoint performs nothing. -/
theorem handled_toggleBreakpoint (d : Debugger) : Handled d d.toggleBreakpoint := by
  rw [toggleBreakpoint]
  split <;> exact ⟨rfl, rfl, .inl rfl⟩

/-- Moving the view of memory performs nothing. -/
theorem handled_scrollDown (d : Debugger) : Handled d d.scrollDown := by
  rw [scrollDown]
  split <;> exact ⟨rfl, rfl, .inl rfl⟩

/-- A key other than that of a reset performs one instruction at most. -/
theorem handled_press (d : Debugger) {key : Key} (noReset : key ≠ .char 'x') :
    Handled d (d.press key) := by
  rw [press.eq_def]
  split
  case h_2 =>
    obtain ⟨program, settings, machine⟩ := handled_step { d with running := false }
    exact ⟨program, settings, machine⟩
  case h_5 => exact d.handled_toggleBreakpoint
  case h_6 => contradiction
  case h_8 => exact d.handled_scrollDown
  all_goals exact ⟨rfl, rfl, .inl rfl⟩

/-- An event that builds the machine anew is a reset. -/
theorem handle_of_resets {e : Event} (resets : e.resets = true) : d.handle e = d.reset := by
  rw [Event.resets.eq_def] at resets
  split at resets
  · rfl
  · rfl
  · contradiction

/-- An event that does not build the machine anew performs one instruction at most. -/
theorem handled_handle {e : Event} (noReset : e.resets = false) : Handled d (d.handle e) := by
  cases e with
  | key key => exact d.handled_press fun same => by simp [same, Event.resets] at noReset
  | tick => exact d.handled_tick
  | step => exact d.handled_step
  | toggleBreakpoint => exact d.handled_toggleBreakpoint
  | scrollDown => exact d.handled_scrollDown
  | reset => contradiction
  | run | scrollUp => exact ⟨rfl, rfl, .inl rfl⟩

/-! ## A session -/

/-- The machine of a debugger is the program's own, after as many instructions as are recorded. -/
structure Undistorted (image : Image) (config : Configuration) (d : Debugger) : Prop where
  /-- The program is the one that the debugger was made for. -/
  program : d.image = image
  /-- The configuration is the one that the debugger was made for. -/
  settings : d.config = config
  /-- Tracing is on. -/
  enabled : d.machine.trace.enabled = true
  /-- The machine is a new one after a run. -/
  machine : d.machine = (freshMachine image config).run d.machine.trace.entries.size
  /-- The instructions of the run are counted. -/
  instructions : d.machine.registers.instructions = UInt64.ofNat d.machine.trace.entries.size

namespace Undistorted

/-- A new machine with its program is undistorted. -/
theorem fresh (program : d.image = image) (settings : d.config = config)
    (machine : d.machine = freshMachine image config) : Undistorted image config d := by
  have new : (freshMachine image config).trace = { enabled := true } ∧
      (freshMachine image config).registers = {} := by
    rw [freshMachine, Machine.loadImage_eq]
    exact ⟨rfl, rfl⟩
  refine ⟨program, settings, ?_, ?_, ?_⟩
  · rw [machine, new.1]
  · rw [machine, new.1]
    rfl
  · rw [machine, new.1, new.2]
    rfl

/-- A debugger with the same program and machine is as undistorted. -/
theorem same (undistorted : Undistorted image config d) (program : d'.image = d.image)
    (settings : d'.config = d.config) (machine : d'.machine = d.machine) :
    Undistorted image config d' := by
  refine ⟨program.trans undistorted.program, settings.trans undistorted.settings, ?_, ?_, ?_⟩
  · rw [machine, undistorted.enabled]
  · rw [machine, ← undistorted.machine]
  · rw [machine, undistorted.instructions]

/-- One instruction more leaves the machine undistorted: if it is halted nothing changes, otherwise
the trace gets one entry for the one step. -/
theorem step (undistorted : Undistorted image config d) (program : d'.image = d.image)
    (settings : d'.config = d.config) (machine : d'.machine = d.machine.step) :
    Undistorted image config d' := by
  cases stopped : d.machine.registers.halted with
  | true =>
    rw [Machine.step_of_halted stopped] at machine
    exact undistorted.same program settings machine
  | false =>
    have stepped := Machine.stepped_step stopped
    have longer : d'.machine.trace.entries.size = d.machine.trace.entries.size + 1 := by
      rw [machine, stepped.trace, Trace.size_record, if_pos undistorted.enabled]
    refine ⟨program.trans undistorted.program, settings.trans undistorted.settings, ?_, ?_, ?_⟩
    · rw [machine, stepped.trace, Trace.enabled_record, undistorted.enabled]
    · rw [longer, machine, Machine.run_eq_steps, Function.iterate_succ_apply',
        ← Machine.run_eq_steps, ← undistorted.machine]
    · rw [longer, machine, stepped.instructions, undistorted.instructions, UInt64.ofNat_add]
      rfl

/-- Every event leaves the machine undistorted. -/
theorem handle (undistorted : Undistorted image config d) (e : Event) :
    Undistorted image config (d.handle e) := by
  cases resets : e.resets with
  | true =>
    rw [handle_of_resets resets]
    refine .fresh undistorted.program undistorted.settings ?_
    rw [reset, undistorted.program, undistorted.settings]
  | false =>
    obtain ⟨program, settings, machine | machine⟩ := handled_handle (d := d) resets
    · exact undistorted.same program settings machine
    · exact undistorted.step program settings machine

/-- A session leaves the machine undistorted. -/
theorem after (undistorted : Undistorted image config d) (events : List Event) :
    Undistorted image config (d.after events) := by
  induction events generalizing d with
  | nil => exact undistorted
  | cons e rest ih => exact ih (undistorted.handle e)

end Undistorted

/-- A new debugger is undistorted. -/
theorem undistorted_ofImage (image : Image) (config : Configuration) :
    Undistorted image config (ofImage image config) :=
  .fresh rfl rfl rfl

/-- Whatever happens to a debugger, its machine is a new machine with the program after a run of as
many instructions as the trace has entries; the counter says as many, as far as it can hold the
length of a trace. An event performs at most one instruction, and a reset gives back the new machine
and leaves breakpoints, view and the wish to leave. -/
theorem machine_of_session (image : Image) (config : Configuration) (events : List Event) :
    let d := (ofImage image config).after events
    let count := d.machine.registers.instructions
    let recorded := d.machine.trace.entries.size
    d.machine = (freshMachine image config).run recorded ∧ count = UInt64.ofNat recorded ∧
      (recorded < UInt64.size →
        d.machine = (freshMachine image config).run count.toNat ∧ recorded = count.toNat) ∧
      (∀ e : Event, e.resets = false →
        (d.handle e).machine = d.machine ∨ (d.handle e).machine = d.machine.step) ∧
      ∀ e : Event, e.resets = true →
        (d.handle e).machine = freshMachine image config ∧
          (d.handle e).breakpoints = d.breakpoints ∧ (d.handle e).scroll = d.scroll ∧
          (d.handle e).quitting = d.quitting := by
  intro d count recorded
  have undistorted : Undistorted image config d := (undistorted_ofImage image config).after events
  refine ⟨undistorted.machine, undistorted.instructions, fun fits => ?_,
    fun e noReset => (handled_handle noReset).machine, fun e resets => ?_⟩
  · have length : recorded = count.toNat := by
      rw [show count = UInt64.ofNat recorded from undistorted.instructions, UInt64.toNat_ofNat',
        Nat.mod_eq_of_lt fits]
    exact ⟨length ▸ undistorted.machine, length⟩
  · rw [handle_of_resets resets]
    refine ⟨?_, rfl, rfl, rfl⟩
    rw [reset, undistorted.program, undistorted.settings]

/-- A loop that adds forever, with a breakpoint at its jump: a step, a key that steps and a tick
perform one instruction each, and the ticks at the breakpoint none. The machine is as after a run of
three. -/
theorem machine_of_session_breakpoint :
    let image := Image.ofWords 0 [0x03000002, 0x10000000, 7]
    let config : Configuration := { memorySize := 3 }
    let d := (ofImage image config).after
      [.step, .key (.char 'b'), .key (.char 'r'), .tick, .scrollDown, .key (.char 's'), .run, .tick,
        .tick, .key (.other "F1")]
    d.machine.trace.entries.size = 3 ∧ d.machine.registers.accumulator = 14 ∧
      d.status = .atBreakpoint 1 ∧
      d.machine = (freshMachine image config).run d.machine.registers.instructions.toNat := by
  intro image config d
  have three : d.machine.trace.entries.size = 3 := by decide +kernel
  refine ⟨three, by decide +kernel, by decide +kernel, ?_⟩
  exact ((machine_of_session image config _).2.2.1 (by rw [three]; decide)).1

end DirectionCentral.Debugger

import Mathlib.Data.List.DropRight
import DirectionCentral.Proofs.Machine.Loading
import DirectionCentral.Proofs.Machine.Run

/-!
# Sessions

A session is what is done to a machine from outside, one action after the other (`Action`, `after`).
Its last period begins when the machine is built or with the last reset. Whatever the session, the
machine that it leads to is consistent (`consistent_after`): the next address is in memory or at its
end, a running machine has no diagnostic, and the counters and the trace say how many instructions
were performed in the last period. Each of these is proved for one action and then along the
session.
-/

namespace DirectionCentral

/-- What can be done to a machine from outside. -/
inductive Action where
  /-- Perform one instruction. -/
  | step
  /-- Perform at most so many instructions. -/
  | run (budget : UInt64)
  /-- Reset the machine. -/
  | reset
  /-- Store words from an address on. -/
  | load (words : List Word) (start : UInt64)
  /-- Store the segments of an image. -/
  | loadImage (image : Image)
  /-- Store a word in a cell. -/
  | write (address : UInt64) (word : Word)
  /-- Turn tracing on or off. -/
  | setTrace (enabled : Bool)
  /-- Forget the trace. -/
  | clearTrace
  /-- Let seconds pass. -/
  | passTime (seconds : Float)

namespace Action

/-- Whether an action is a reset. -/
def isReset : Action → Bool
  | reset => true
  | _ => false

/-- The actions of a session up to its last reset; none if there is no reset. -/
def untilReset (actions : List Action) : List Action := actions.rdropWhile fun a => !a.isReset

/-- The actions of a session after its last reset; all if there is no reset. -/
def sinceReset (actions : List Action) : List Action := actions.rtakeWhile fun a => !a.isReset

/-- A session is what leads to its last period, and the last period. -/
theorem untilReset_append_sinceReset (actions : List Action) :
    untilReset actions ++ sinceReset actions = actions :=
  List.rdropWhile_append_rtakeWhile

/-- What leads to the last period is nothing or ends in a reset. -/
theorem untilReset_eq (actions : List Action) :
    untilReset actions = [] ∨ ∃ front, untilReset actions = front ++ [reset] := by
  induction actions using List.reverseRecOn with
  | nil => exact .inl rfl
  | append_singleton actions a ih =>
    rw [untilReset, List.rdropWhile_concat]
    cases a with
    | reset => exact .inr ⟨actions, rfl⟩
    | _ => exact ih

end Action

namespace Machine

/-- The machine after an action. -/
def act (m : Machine) : Action → Machine
  | .step => m.step
  | .run budget => m.run budget.toNat
  | .reset => m.reset
  | .load words start => m.load words start
  | .loadImage image => m.loadImage image
  | .write address word => m.write address word
  | .setTrace enabled => m.setTrace enabled
  | .clearTrace => m.clearTrace
  | .passTime seconds => m.passTime seconds

/-- The machine after a session. -/
def after (m : Machine) (actions : List Action) : Machine := actions.foldl act m

/-- How many instructions an action performs: a step or a run performs one with each step that finds
the machine running. -/
def performedBy (m : Machine) : Action → Nat
  | .step => m.activeSteps 1
  | .run budget => m.activeSteps budget.toNat
  | _ => 0

/-- How many instructions a session performs. -/
def performedThrough (m : Machine) : List Action → Nat
  | [] => 0
  | a :: rest => m.performedBy a + (m.act a).performedThrough rest

/-- Tracing is on all through a session, and the trace is not cleared in it. -/
structure TracedThrough (m : Machine) (actions : List Action) : Prop where
  /-- Tracing is on before the session and after each of its actions. -/
  enabled : ∀ front, front <+: actions → (m.after front).trace.enabled = true
  /-- No action clears the trace. -/
  kept : Action.clearTrace ∉ actions

variable {m : Machine}

/-- A session of two parts. -/
theorem after_append (m : Machine) (first second : List Action) :
    m.after (first ++ second) = (m.after first).after second :=
  List.foldl_append

/-- The instructions of a session of two parts. -/
theorem performedThrough_append (m : Machine) (first second : List Action) :
    m.performedThrough (first ++ second) =
      m.performedThrough first + (m.after first).performedThrough second := by
  induction first generalizing m with
  | nil => exact (Nat.zero_add _).symm
  | cons a first ih =>
    rw [List.cons_append, performedThrough, ih, performedThrough, Nat.add_assoc]
    rfl

/-- What every action keeps, a session keeps. -/
theorem after_induction {P : Machine → Prop} (keep : ∀ m a, P m → P (m.act a)) (start : P m)
    (actions : List Action) : P (m.after actions) := by
  induction actions generalizing m with
  | nil => exact start
  | cons a rest ih => exact ih (keep m a start)

/-! ## What holds after every session -/

/-- What holds of a machine at all times. -/
structure Sound (m : Machine) : Prop where
  /-- The next address is in memory or at its end. -/
  next_le : m.registers.next.toNat ≤ m.memory.size
  /-- An instruction takes one cycle. -/
  cycles : m.registers.cycles = m.registers.instructions
  /-- A running machine has no diagnostic. -/
  diagnostic : m.registers.halted = false → m.diagnostic = none

/-- A machine with another memory of the same size is as sound. -/
theorem Sound.setMemory (sound : Sound m) {memory : Memory} (size : memory.size = m.memory.size) :
    Sound { m with memory } :=
  ⟨size ▸ sound.next_le, sound.cycles, sound.diagnostic⟩

/-- A step keeps a machine sound. -/
theorem Sound.step (sound : Sound m) : Sound m.step := by
  cases stopped : m.registers.halted with
  | true => rwa [step_of_halted stopped]
  | false =>
    have stepped := stepped_step stopped
    exact {
      next_le := stepped.next_le sound.next_le
      cycles := by rw [stepped.cycles, stepped.instructions, sound.cycles]
      diagnostic := fun goesOn => (stepped.diagnostic goesOn).trans (sound.diagnostic stopped) }

/-- Every action keeps a machine sound. -/
theorem Sound.act (sound : Sound m) (a : Action) : Sound (m.act a) := by
  cases a with
  | step => exact sound.step
  | run budget =>
    rw [Machine.act, run_eq_steps]
    exact steps_induction (fun _ sound => sound.step) sound _
  | reset => exact ⟨Nat.zero_le _, rfl, fun _ => rfl⟩
  | load words start => exact sound.setMemory (Memory.size_load ..)
  | loadImage image =>
    rw [Machine.act, m.loadImage_eq image]
    exact sound.setMemory (m.size_loadImage image)
  | write address word => exact sound.setMemory (Memory.size_write ..)
  | setTrace enabled => exact ⟨sound.next_le, sound.cycles, sound.diagnostic⟩
  | clearTrace => exact ⟨sound.next_le, sound.cycles, sound.diagnostic⟩
  | passTime seconds => exact ⟨sound.next_le, sound.cycles, sound.diagnostic⟩

/-- No action adds or removes cells. -/
theorem size_act (m : Machine) (a : Action) : (m.act a).memory.size = m.memory.size := by
  have size_step (m' : Machine) (same : m'.memory.size = m.memory.size) :
      m'.step.memory.size = m.memory.size := by
    cases stopped : m'.registers.halted with
    | true => rwa [step_of_halted stopped]
    | false => exact (stepped_step stopped).size.trans same
  cases a with
  | step => exact size_step m rfl
  | run budget =>
    rw [act, run_eq_steps]
    exact steps_induction (P := fun m' => m'.memory.size = m.memory.size) size_step rfl _
  | load words start => exact Memory.size_load ..
  | loadImage image => exact m.size_loadImage image
  | write address word => exact Memory.size_write ..
  | reset | setTrace enabled | clearTrace | passTime seconds => rfl

/-- A session keeps a machine sound. -/
theorem Sound.after (sound : Sound m) (actions : List Action) : Sound (m.after actions) :=
  after_induction (fun _ a sound => sound.act a) sound actions

/-- No session adds or removes cells. -/
theorem size_after (m : Machine) (actions : List Action) :
    (m.after actions).memory.size = m.memory.size :=
  after_induction (P := fun m' => m'.memory.size = m.memory.size)
    (fun m' a same => (m'.size_act a).trans same) rfl actions

/-- The machine of a configuration is sound. -/
theorem sound_ofConfiguration (config : Configuration) : Sound (ofConfiguration config) :=
  ⟨Nat.zero_le _, rfl, fun _ => rfl⟩

/-- The machine of a configuration has the number of cells that the configuration names. -/
theorem size_ofConfiguration (config : Configuration) :
    (ofConfiguration config).memory.size = config.memorySize.toNat :=
  Array.size_replicate

/-! ## What a period counts and records -/

/-- An action other than a reset counts the instructions that it performs. -/
theorem instructions_act {a : Action} (noReset : a.isReset = false) :
    (m.act a).registers.instructions =
      m.registers.instructions + UInt64.ofNat (m.performedBy a) := by
  cases a with
  | reset => contradiction
  | step => exact m.instructions_steps 1
  | run budget =>
    rw [act, run_eq_steps]
    exact m.instructions_steps _
  | loadImage image =>
    rw [act, m.loadImage_eq image]
    exact (UInt64.add_zero _).symm
  | load words start | write address word | setTrace enabled | clearTrace | passTime seconds =>
    exact (UInt64.add_zero _).symm

/-- An action other than a reset records what it performs if tracing is on, and records nothing
more. -/
theorem size_trace_act {a : Action} (noReset : a.isReset = false) (kept : a ≠ .clearTrace) :
    (m.act a).trace.entries.size =
      m.trace.entries.size + if m.trace.enabled then m.performedBy a else 0 := by
  cases a with
  | reset | clearTrace => contradiction
  | step => exact m.size_trace_steps 1
  | run budget =>
    rw [act, run_eq_steps]
    exact m.size_trace_steps _
  | loadImage image =>
    rw [act, m.loadImage_eq image]
    simp [performedBy]
  | load words start | write address word | setTrace enabled | passTime seconds =>
    simp [act, performedBy, load, write, setTrace, passTime, Trace.enable]

variable {period : List Action}

/-- A period counts the instructions that it performs. -/
theorem instructions_after (noReset : ∀ a ∈ period, a.isReset = false) :
    (m.after period).registers.instructions =
      m.registers.instructions + UInt64.ofNat (m.performedThrough period) := by
  induction period generalizing m with
  | nil => exact (UInt64.add_zero _).symm
  | cons a rest ih =>
    obtain ⟨first, others⟩ := List.forall_mem_cons.1 noReset
    have counted := ih (m := m.act a) others
    rw [instructions_act first, UInt64.add_assoc, ← UInt64.ofNat_add] at counted
    exact counted

/-- A period records at most what it performs. -/
theorem size_trace_after_le (noReset : ∀ a ∈ period, a.isReset = false) :
    (m.after period).trace.entries.size ≤ m.trace.entries.size + m.performedThrough period := by
  induction period generalizing m with
  | nil => exact Nat.le_refl _
  | cons a rest ih =>
    obtain ⟨first, others⟩ := List.forall_mem_cons.1 noReset
    have later := ih (m := m.act a) others
    have now : (m.act a).trace.entries.size ≤ m.trace.entries.size + m.performedBy a := by
      by_cases kept : a = .clearTrace
      · subst kept
        exact Nat.zero_le _
      · rw [size_trace_act first kept]
        split <;> omega
    rw [performedThrough, ← Nat.add_assoc]
    exact later.trans (Nat.add_le_add_right now _)

/-- A period that is traced all through records all that it performs. -/
theorem size_trace_after (noReset : ∀ a ∈ period, a.isReset = false)
    (traced : m.TracedThrough period) :
    (m.after period).trace.entries.size = m.trace.entries.size + m.performedThrough period := by
  induction period generalizing m with
  | nil => rfl
  | cons a rest ih =>
    obtain ⟨first, others⟩ := List.forall_mem_cons.1 noReset
    have kept : a ≠ .clearTrace := fun same => traced.kept (same ▸ List.mem_cons_self)
    have enabled : m.trace.enabled = true := traced.enabled [] (List.nil_prefix)
    have tail : (m.act a).TracedThrough rest := by
      refine ⟨fun front prefixed => ?_, fun member => traced.kept (List.mem_cons_of_mem _ member)⟩
      exact traced.enabled (a :: front) (List.cons_prefix_cons.2 ⟨rfl, prefixed⟩)
    have later := ih others tail
    rw [size_trace_act first kept, if_pos enabled, Nat.add_assoc] at later
    exact later

/-! ## After a session -/

/-- Where the last period of a session begins nothing is counted or recorded. -/
theorem start_of_period (config : Configuration) (actions : List Action) :
    ((ofConfiguration config).after (Action.untilReset actions)).registers.instructions = 0 ∧
      ((ofConfiguration config).after (Action.untilReset actions)).trace.entries.size = 0 := by
  obtain built | ⟨front, reset⟩ := Action.untilReset_eq actions
  · rw [built]
    exact ⟨rfl, rfl⟩
  · rw [reset, after_append]
    exact ⟨rfl, rfl⟩

/-- What holds of a machine of a configuration after a period, which begins with another machine. -/
structure Consistent (config : Configuration) (start : Machine) (period : List Action)
    (m : Machine) : Prop where
  /-- The next address is in memory or at its end. -/
  next_le : m.registers.next.toNat ≤ m.memory.size
  /-- Memory has the size of the configuration. -/
  size : m.memory.size = config.memorySize.toNat
  /-- As many cycles are counted as instructions. -/
  cycles : m.registers.cycles = m.registers.instructions
  /-- The instructions of the period are counted. -/
  instructions : m.registers.instructions.toNat = start.performedThrough period
  /-- No more entries are recorded than instructions are counted. -/
  trace_le : m.trace.entries.size ≤ m.registers.instructions.toNat
  /-- If the period is traced all through, every counted instruction is recorded. -/
  trace : start.TracedThrough period → m.trace.entries.size = m.registers.instructions.toNat
  /-- A running machine has no diagnostic. -/
  diagnostic : m.registers.halted = false → m.diagnostic = none
  /-- At no earlier moment of the period were more instructions counted. -/
  monotone : ∀ front, front <+: period →
    (start.after front).registers.instructions ≤ m.registers.instructions

/-- A sound machine is consistent after a period that began with nothing counted or recorded, if the
count can hold the instructions of the period. -/
theorem Sound.consistent {config : Configuration} {start : Machine}
    (uncounted : start.registers.instructions = 0) (unrecorded : start.trace.entries.size = 0)
    (noReset : ∀ a ∈ period, a.isReset = false)
    (few : start.performedThrough period < UInt64.size)
    (sound : Sound (start.after period))
    (size : (start.after period).memory.size = config.memorySize.toNat) :
    Consistent config start period (start.after period) := by
  -- The count is exact at every moment of the period, which began at zero.
  have counted (front : List Action) (prefixed : front <+: period) :
      (start.after front).registers.instructions.toNat = start.performedThrough front := by
    obtain ⟨rest, rfl⟩ := prefixed
    rw [performedThrough_append] at few
    have noReset : ∀ a ∈ front, a.isReset = false := fun a member =>
      noReset a (List.mem_append_left _ member)
    rw [instructions_after noReset, uncounted, UInt64.zero_add, UInt64.toNat_ofNat',
      Nat.mod_eq_of_lt (show _ < UInt64.size by omega)]
  have total := counted period (List.prefix_refl _)
  refine ⟨sound.next_le, size, sound.cycles, total, ?_, fun traced => ?_, sound.diagnostic,
    fun front prefixed => ?_⟩
  · have recorded := start.size_trace_after_le noReset
    omega
  · have recorded := size_trace_after noReset traced
    omega
  · rw [UInt64.le_iff_toNat_le, counted front prefixed, total]
    obtain ⟨rest, rfl⟩ := prefixed
    rw [performedThrough_append]
    exact Nat.le_add_right _ _

/-- Whatever is done to a machine of a configuration, it is consistent afterward, provided that the
count of instructions can hold those of the last period. -/
theorem consistent_after (config : Configuration) (actions : List Action)
    (few : ((ofConfiguration config).after (Action.untilReset actions)).performedThrough
      (Action.sinceReset actions) < UInt64.size) :
    Consistent config ((ofConfiguration config).after (Action.untilReset actions))
      (Action.sinceReset actions) ((ofConfiguration config).after actions) := by
  have sound : Sound ((ofConfiguration config).after actions) :=
    (sound_ofConfiguration config).after actions
  have size : ((ofConfiguration config).after actions).memory.size = config.memorySize.toNat :=
    (size_after _ actions).trans (size_ofConfiguration config)
  have noReset : ∀ a ∈ Action.sinceReset actions, a.isReset = false := fun a member => by
    simpa using List.mem_rtakeWhile_imp member
  obtain ⟨uncounted, unrecorded⟩ := start_of_period config actions
  have ended := after_append (ofConfiguration config) (Action.untilReset actions)
    (Action.sinceReset actions)
  rw [Action.untilReset_append_sinceReset] at ended
  rw [ended] at sound size ⊢
  exact sound.consistent uncounted unrecorded noReset few size

/-- A session whose last period jumps past the end of a memory of two cells, where it halts: the
next address is parked at the end, and each of the three instructions is counted and recorded. -/
theorem consistent_after_parked :
    let config : Configuration := { memorySize := 2, traceEnabled := true }
    let actions : List Action :=
      [.load [0x10000001, 0x10000001] 0, .run 5, .reset, .write 1 0x10000007, .step, .run 3]
    let start := (ofConfiguration config).after (Action.untilReset actions)
    let m := (ofConfiguration config).after actions
    start.performedThrough (Action.sinceReset actions) = 3 ∧ m.registers.next = 2 ∧
      m.diagnostic = some "program counter 2 reached end of memory" ∧
      Consistent config start (Action.sinceReset actions) m := by
  intro config actions start m
  have three : start.performedThrough (Action.sinceReset actions) = 3 := by decide +kernel
  exact ⟨three, by decide +kernel, by decide +kernel,
    consistent_after config actions (by rw [three]; decide)⟩

end Machine

end DirectionCentral

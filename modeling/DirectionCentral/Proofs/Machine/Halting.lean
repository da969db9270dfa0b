import DirectionCentral.Proofs.Machine.Observation

/-!
# Halting

Why a machine halts, and that it stays halted. A step of a running machine ends in one of three ways
(`Ending`), and which of them is decided by the next address and the word there: the halting word
halts, an address past the end of memory or a word without an operation faults, and all others go on
(`explained_step`). A halted machine is at rest whatever is done to it other than a reset, or
forgetting the trace: nothing is performed, counted, recorded or reported (`atRest_after`). Both
hold of what a session leads to (`halting_after`), since no machine is left running with a
diagnostic.
-/

namespace DirectionCentral

/-- How a step can end. -/
inductive Ending where
  /-- The machine goes on. -/
  | continued
  /-- The machine has halted and gives no diagnostic. -/
  | halted
  /-- The machine has halted and gives a diagnostic. -/
  | faulted
deriving DecidableEq

/-- Whether an action leaves a halted machine at rest: all but the reset, and forgetting the
trace. -/
def Action.sparesHalted : Action → Bool
  | reset | clearTrace => false
  | _ => true

namespace Machine

/-- Whether a machine is as a step that ends in the given way leaves it. -/
def Shows (m : Machine) : Ending → Prop
  | .continued => m.registers.halted = false ∧ m.diagnostic = none
  | .halted => m.registers.halted = true ∧ m.diagnostic = none
  | .faulted => m.registers.halted = true ∧ m.diagnostic ≠ none

/-- The instruction at the next address. -/
def nextInstruction (m : Machine) : Instruction := .decode (m.memory.read m.registers.next)

/-- The fault that the next step of a running machine ends in, if any. -/
def upcomingFault? (m : Machine) : Option Diagnostic :=
  if m.atEnd then some (.endOfMemory m.registers.next)
  else
    match m.nextInstruction.operation? with
    | some _ => none
    | none => some (.unknownOperation m.nextInstruction.code m.registers.next)

/-- The next step of a machine ends in one way, which the next address and the word there
explain. -/
structure Explained (m : Machine) : Prop where
  /-- The step ends in exactly one way. -/
  one : ∃! ending, m.step.Shows ending
  /-- It halts without a diagnostic just at a halting word in memory. -/
  halted : m.step.Shows .halted ↔
    m.registers.next.toNat < m.memory.size ∧ m.nextInstruction.code = 0
  /-- It halts with a diagnostic just past the end of memory or at a word without an operation. -/
  faulted : m.step.Shows .faulted ↔
    m.memory.size ≤ m.registers.next.toNat ∨ ∀ op : Operation, op.byte ≠ m.nextInstruction.code
  /-- The diagnostic names the fault and its address. -/
  diagnostic : m.step.diagnostic = m.upcomingFault?.map Diagnostic.text

/-- A machine is the same as another but for the memory, the clock and whether it traces. -/
structure AtRest (m m' : Machine) : Prop where
  /-- The registers, with the counters and the halted flag. -/
  registers : m'.registers = m.registers
  /-- The entries of the trace. -/
  entries : m'.trace.entries = m.trace.entries
  /-- The diagnostic. -/
  diagnostic : m'.diagnostic = m.diagnostic

/-- Whether the reply to a request is that of a halted machine: a step does not go on, and a run
performs nothing. -/
def RefusedIn (exchange : Request × Option Reply) : Prop :=
  match exchange.1 with
  | .act .step => exchange.2 = some (.running false)
  | .act (.run _) => exchange.2 = some (.count 0)
  | _ => True

variable {m : Machine}

/-! ## How a step ends -/

/-- Of the operations one halts. -/
theorem halted_perform (m : Machine) (op : Operation) (i : Instruction) (ea : UInt16) :
    (m.perform op i ea).registers.halted = (m.registers.halted || op == .hlt) := by
  cases op <;> simp only [perform]
  case hlt => exact (Bool.or_true _).symm
  case tnz | tmi | tix | txi => split <;> exact (Bool.or_false _).symm
  all_goals exact (Bool.or_false _).symm

/-- No operation gives a diagnostic. -/
theorem diagnostic_perform (m : Machine) (op : Operation) (i : Instruction) (ea : UInt16) :
    (m.perform op i ea).diagnostic = m.diagnostic := by
  cases op <;> simp only [perform]
  case tnz | tmi | tix | txi => split <;> rfl
  all_goals rfl

/-- A step past the end of memory faults. -/
theorem step_atEnd (running : m.registers.halted = false) (past : m.atEnd = true) :
    m.step.registers.halted = true ∧
      m.step.diagnostic = some (Diagnostic.endOfMemory m.registers.next).text := by
  have halting : m.upcoming.instruction.operation? = some .hlt := by
    simp only [upcoming, fetched, if_pos past]
    exact Instruction.operation?_haltWord
  rw [step, if_neg (by simp [running])]
  simp only [dispatch, halting]
  change ((m.passFetch.record m.upcoming).perform ..).registers.halted = true ∧
    ((m.passFetch.record m.upcoming).perform ..).diagnostic = _
  rw [halted_perform, diagnostic_perform, passFetch, if_pos past]
  exact ⟨rfl, rfl⟩

/-- A step in memory performs the word there, or faults if it has no operation. -/
theorem step_inside (running : m.registers.halted = false) (inside : m.atEnd = false) :
    (∃ op, m.nextInstruction.operation? = some op ∧ m.step.registers.halted = (op == .hlt) ∧
      m.step.diagnostic = m.diagnostic) ∨
    (m.nextInstruction.operation? = none ∧ m.step.registers.halted = true ∧
      m.step.diagnostic =
        some (Diagnostic.unknownOperation m.nextInstruction.code m.registers.next).text) := by
  have here : ¬ m.atEnd = true := ne_true_of_eq_false inside
  have same : m.upcoming.instruction = m.nextInstruction := by
    simp only [upcoming, fetched, if_neg here, nextInstruction]
  have passed : m.passFetch = { m with registers := m.registers.advance } := by
    rw [passFetch, if_neg here]
  rw [step, if_neg (by simp [running])]
  simp only [dispatch, same]
  cases known : m.nextInstruction.operation? with
  | some op =>
    refine .inl ⟨op, rfl, ?_⟩
    change ((m.passFetch.record m.upcoming).perform ..).registers.halted = _ ∧
      ((m.passFetch.record m.upcoming).perform ..).diagnostic = _
    rw [halted_perform, diagnostic_perform, passed]
    exact ⟨congrArg (· || op == .hlt) running, rfl⟩
  | none => exact .inr ⟨rfl, rfl, rfl⟩

/-- The byte zero stands for halting. -/
theorem code_eq_zero_iff {i : Instruction} : i.code = 0 ↔ i.operation? = some .hlt := by
  rw [Instruction.operation?, Operation.ofByte?_eq_some_iff]
  exact eq_comm

/-- A byte stands for no operation just if it is none of their bytes. -/
theorem operation?_eq_none_iff {i : Instruction} :
    i.operation? = none ↔ ∀ op : Operation, op.byte ≠ i.code := by
  rw [Option.eq_none_iff_forall_ne_some]
  exact forall_congr' fun op => not_congr Operation.ofByte?_eq_some_iff

/-- A machine that is not left running with a diagnostic shows one ending. -/
theorem exists_unique_ending (m : Machine)
    (fresh : m.registers.halted = false → m.diagnostic = none) : ∃! ending, m.Shows ending := by
  cases stopped : m.registers.halted with
  | false =>
    refine ⟨.continued, ⟨stopped, fresh stopped⟩, fun ending shown => ?_⟩
    cases ending with
    | continued => rfl
    | halted | faulted => exact absurd shown.1 (by simp [stopped])
  | true =>
    cases given : m.diagnostic with
    | none =>
      refine ⟨.halted, ⟨stopped, given⟩, fun ending shown => ?_⟩
      cases ending with
      | continued => exact absurd shown.1 (by simp [stopped])
      | halted => rfl
      | faulted => exact absurd given shown.2
    | some text =>
      refine ⟨.faulted, ⟨stopped, by simp [given]⟩, fun ending shown => ?_⟩
      cases ending with
      | continued => exact absurd shown.1 (by simp [stopped])
      | halted => exact absurd shown.2 (by simp [given])
      | faulted => rfl

/-- The end of a step of a running machine is explained. -/
theorem explained_step (sound : Sound m) (running : m.registers.halted = false) : Explained m := by
  have fresh : m.diagnostic = none := sound.diagnostic running
  have one := exists_unique_ending m.step sound.step.diagnostic
  cases past : m.atEnd with
  | true =>
    obtain ⟨stopped, given⟩ := step_atEnd running past
    have beyond : m.memory.size ≤ m.registers.next.toNat := by simpa [atEnd] using past
    refine ⟨one, ?_, ?_, ?_⟩
    · simp [Shows, given, Nat.not_lt.2 beyond]
    · simp [Shows, stopped, given, beyond]
    · rw [given, upcomingFault?, if_pos past, Option.map_some]
  | false =>
    have inside : m.registers.next.toNat < m.memory.size := by simpa [atEnd] using past
    obtain ⟨op, known, stopped, given⟩ | ⟨unknown, stopped, given⟩ := step_inside running past
    · refine ⟨one, ?_, ?_, ?_⟩
      · simp [Shows, stopped, given, fresh, inside, code_eq_zero_iff, known]
      · simp [Shows, given, fresh, Nat.not_le.2 inside, ← operation?_eq_none_iff, known]
      · simp [given, fresh, upcomingFault?, past, known]
    · refine ⟨one, ?_, ?_, ?_⟩
      · simp [Shows, given, code_eq_zero_iff, unknown]
      · simp [Shows, stopped, given, ← operation?_eq_none_iff, unknown]
      · simp [given, upcomingFault?, past, unknown]

/-! ## At rest -/

/-- An action that spares a halted machine leaves it at rest. -/
theorem atRest_act {a : Action} (stopped : m.registers.halted = true)
    (spares : a.sparesHalted = true) : AtRest m (m.act a) := by
  cases a with
  | reset | clearTrace => contradiction
  | step =>
    rw [act, step_of_halted stopped]
    exact ⟨rfl, rfl, rfl⟩
  | run budget =>
    rw [act, run_of_halted stopped]
    exact ⟨rfl, rfl, rfl⟩
  | loadImage image =>
    rw [act, m.loadImage_eq image]
    exact ⟨rfl, rfl, rfl⟩
  | load words start | write address word | setTrace enabled | passTime seconds =>
    exact ⟨rfl, rfl, rfl⟩

/-- A halted machine stays at rest. -/
theorem atRest_after {later : List Action} (stopped : m.registers.halted = true)
    (spares : ∀ a ∈ later, a.sparesHalted = true) : AtRest m (m.after later) := by
  induction later generalizing m with
  | nil => exact ⟨rfl, rfl, rfl⟩
  | cons a rest ih =>
    obtain ⟨first, others⟩ := List.forall_mem_cons.1 spares
    have now := atRest_act stopped first
    have afterward := ih (m := m.act a) (by rwa [now.registers]) others
    exact {
      registers := afterward.registers.trans now.registers
      entries := afterward.entries.trans now.entries
      diagnostic := afterward.diagnostic.trans now.diagnostic }

/-- A halted machine refuses a step and a run. -/
theorem refusedIn_reply (stopped : m.registers.halted = true) (a : Action) :
    RefusedIn (.act a, m.reply? (.act a)) := by
  cases a with
  | step =>
    change some (Reply.running m.step.isRunning) = _
    rw [step_of_halted stopped, isRunning, stopped]
    rfl
  | run budget =>
    change some (Reply.count (m.performed budget.toNat).toNat) = _
    rw [performed, run_of_halted stopped, UInt64.sub_self]
    rfl
  | _ => trivial

/-- A halted machine goes on refusing steps and runs. -/
theorem refusedIn_transcript {later : List Action} (stopped : m.registers.halted = true)
    (spares : ∀ a ∈ later, a.sparesHalted = true) :
    ∀ exchange ∈ m.transcript (later.map .act), RefusedIn exchange := by
  induction later generalizing m with
  | nil => exact fun _ member => absurd member List.not_mem_nil
  | cons a rest ih =>
    obtain ⟨first, others⟩ := List.forall_mem_cons.1 spares
    have now := atRest_act stopped first
    have afterward := ih (m := m.act a) (by rwa [now.registers]) others
    exact List.forall_mem_cons.2 ⟨refusedIn_reply stopped a, afterward⟩

/-! ## After a session -/

/-- Whatever was done to a machine of a configuration: if it is running, its next step ends in one
of three ways, each of them explained by the next address and the word there; if it has halted, it
is at rest and refuses steps and runs until it is reset, whatever else is done to it but to forget
its trace. -/
theorem halting_after (config : Configuration) (actions : List Action) :
    let m := (ofConfiguration config).after actions
    m.memory.size = config.memorySize.toNat ∧
      (m.registers.halted = false → Explained m) ∧
      (m.registers.halted = true → ∀ later : List Action,
        (∀ a ∈ later, a.sparesHalted = true) →
          AtRest m (m.after later) ∧
            ∀ exchange ∈ m.transcript (later.map .act), RefusedIn exchange) := by
  intro m
  have sound : Sound m := (sound_ofConfiguration config).after actions
  have size : m.memory.size = config.memorySize.toNat :=
    (size_after _ actions).trans (size_ofConfiguration config)
  exact ⟨size, explained_step sound, fun stopped later spares =>
    ⟨atRest_after stopped spares, refusedIn_transcript stopped spares⟩⟩

/-- A machine that has come to a word without an operation faults there in its next step. After
that a new program is loaded over the old one, and nothing comes of it. -/
theorem halting_after_unknown :
    let config : Configuration := { memorySize := 3, traceEnabled := true }
    let actions : List Action := [.load [0x01000002, 0xFF000000] 0, .step]
    let later : List Action :=
      [.load [0x15000000, 0x01000000] 0, .step, .write 2 7, .setTrace false, .run 9, .passTime 1.0]
    let m := (ofConfiguration config).after actions
    (m.registers.halted = false ∧ m.step.Shows .faulted ∧
      m.step.diagnostic = some "unknown opcode: 0xFF at 1") ∧
    AtRest m.step (m.step.after later) ∧
    ∀ exchange ∈ m.step.transcript (later.map .act), RefusedIn exchange := by
  intro config actions later m
  have running : m.registers.halted = false := by decide +kernel
  obtain ⟨-, explained, -⟩ := halting_after config actions
  obtain ⟨-, -, final⟩ := halting_after config (actions ++ [.step])
  have next : (ofConfiguration config).after (actions ++ [.step]) = m.step := rfl
  rw [next] at final
  have unknown : ∀ op : Operation, op.byte ≠ m.nextInstruction.code := by
    intro op
    cases op <;> decide +kernel
  refine ⟨⟨running, (explained running).faulted.2 (.inr unknown), by decide +kernel⟩, ?_⟩
  exact final (by decide +kernel) later (by decide)

end Machine

end DirectionCentral

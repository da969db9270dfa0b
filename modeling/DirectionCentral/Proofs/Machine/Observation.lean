import DirectionCentral.Proofs.Machine.Session

/-!
# Observation

The trace and the clock take no part in what a machine does. A machine is asked for one thing after
the other (`Request`), and some of what is asked only concerns its trace or its clock
(`Request.observes`). Such requests may be left out, and the trace and the clock at the beginning be
others: the machine goes through the same registers, memories and diagnostics, and every other
request gets the same reply (`transcript_unobserved`). What each part of a step does to a machine
with another trace and clock is said by equations; the session then compares two machines that make
the same progress.
-/

namespace DirectionCentral

/-- Whether an action only concerns the trace or the clock. -/
def Action.observes : Action → Bool
  | setTrace _ | clearTrace | passTime _ => true
  | _ => false

/-- What a machine is asked for. -/
inductive Request where
  /-- An action. -/
  | act (action : Action)
  /-- The word in a cell. -/
  | read (address : UInt64)

/-- What a machine replies. -/
inductive Reply where
  /-- Whether it goes on. -/
  | running (goesOn : Bool)
  /-- How many instructions were performed, or how many words were stored. -/
  | count (n : Nat)
  /-- A word. -/
  | word (word : Word)
deriving DecidableEq

/-- Whether a request only concerns the trace or the clock. -/
def Request.observes : Request → Bool
  | act a => a.observes
  | read _ => false

namespace Machine

/-- The machine after a request. -/
def serve (m : Machine) : Request → Machine
  | .act a => m.act a
  | .read _ => m

/-- The machine after requests. -/
def served (m : Machine) (requests : List Request) : Machine := requests.foldl serve m

/-- The reply to a request, if it has one. -/
def reply? (m : Machine) : Request → Option Reply
  | .act .step => some (.running m.step.isRunning)
  | .act (.run budget) => some (.count (m.performed budget.toNat).toNat)
  | .act (.load words start) => some (.count (m.memory.stored words start))
  | .act (.loadImage image) => some (.count (m.storedOfImage image))
  | .act _ => none
  | .read address => some (.word (m.memory.read address))

/-- The requests with the replies that they get, one after the other. -/
def transcript (m : Machine) : List Request → List (Request × Option Reply)
  | [] => []
  | r :: rest => (r, m.reply? r) :: (m.serve r).transcript rest

/-- Two machines are alike but for the trace and the clock. -/
structure SameProgress (m m' : Machine) : Prop where
  /-- The registers, with the counters and the halted flag. -/
  registers : m'.registers = m.registers
  /-- The memory. -/
  memory : m'.memory = m.memory
  /-- The diagnostic. -/
  diagnostic : m'.diagnostic = m.diagnostic

/-- The machine with another trace and clock. -/
def observed (m : Machine) (trace : Trace) (clock : Clock) : Machine := { m with trace, clock }

variable {m m' : Machine}

/-! ## A step with another trace and clock -/

/-- Moving past the fetched word does not look at the trace or the clock. -/
theorem passFetch_observed (m : Machine) (trace : Trace) (clock : Clock) :
    (m.observed trace clock).passFetch = m.passFetch.observed trace clock := by
  change (if m.atEnd then _ else _) = _
  rw [passFetch]
  split <;> rfl

/-- No operation looks at the trace or the clock. -/
theorem perform_observed (m : Machine) (op : Operation) (i : Instruction) (ea : UInt16)
    (trace : Trace) (clock : Clock) :
    (m.observed trace clock).perform op i ea = (m.perform op i ea).observed trace clock := by
  cases op with
  | hlt | lda | sto | add | sub | mpy | dvh | tra | tsx => rfl
  | tnz | tmi | tix | txi =>
    simp only [perform]
    rw [apply_ite (observed · trace clock)]
    rfl

/-- Dispatching does not look at the trace or the clock. -/
theorem dispatch_observed (m : Machine) (entry : TraceEntry) (trace : Trace) (clock : Clock) :
    (m.observed trace clock).dispatch entry = (m.dispatch entry).observed trace clock := by
  rw [dispatch, dispatch]
  split
  · exact perform_observed ..
  · rfl

/-- Loading an image does not look at the trace or the clock. -/
theorem loadImage_observed (m : Machine) (image : Image) (trace : Trace) (clock : Clock) :
    (m.observed trace clock).loadImage image = (m.loadImage image).observed trace clock := by
  obtain ⟨segments⟩ := image
  induction segments using List.reverseRecOn with
  | nil => rfl
  | append_singleton segments s ih =>
    rw [loadImage_concat, loadImage_concat, ih]
    rfl

/-- A step with another trace and clock records the same entry in that trace and is otherwise the
same step. -/
theorem step_observed (running : m.registers.halted = false) (trace : Trace) (clock : Clock) :
    (m.observed trace clock).step = m.step.observed (trace.record m.upcoming) clock := by
  have goesOn : ¬ m.registers.halted = true := ne_true_of_eq_false running
  rw [step, if_neg (show ¬ (m.observed trace clock).registers.halted = true from goesOn), step,
    if_neg goesOn]
  -- Recording is nothing but another trace, so both sides are dispatched from one machine.
  change (((m.observed trace clock).passFetch.record m.upcoming).dispatch m.upcoming).tally =
    (((m.passFetch.observed (m.passFetch.trace.record m.upcoming) m.passFetch.clock).dispatch
      m.upcoming).tally).observed _ _
  rw [passFetch_observed]
  change ((m.passFetch.observed (trace.record m.upcoming) clock).dispatch m.upcoming).tally = _
  rw [dispatch_observed, dispatch_observed]
  rfl

/-! ## Machines that make the same progress -/

namespace SameProgress

/-- Another trace and clock are no progress. -/
theorem observed (m : Machine) (trace : Trace) (clock : Clock) :
    SameProgress m (m.observed trace clock) :=
  ⟨rfl, rfl, rfl⟩

/-- What follows progress that is the same. -/
theorem trans {m'' : Machine} (first : SameProgress m m') (second : SameProgress m' m'') :
    SameProgress m m'' where
  registers := second.registers.trans first.registers
  memory := second.memory.trans first.memory
  diagnostic := second.diagnostic.trans first.diagnostic

/-- Only the trace and the clock of a machine with the same progress are others. -/
theorem exists_observed (same : SameProgress m m') :
    ∃ trace clock, m' = m.observed trace clock := by
  obtain ⟨registers, memory, diagnostic⟩ := same
  refine ⟨m'.trace, m'.clock, ?_⟩
  rw [Machine.observed, ← registers, ← memory, ← diagnostic]

/-- A step keeps progress the same. -/
theorem step (same : SameProgress m m') : SameProgress m.step m'.step := by
  obtain ⟨trace, clock, rfl⟩ := same.exists_observed
  cases stopped : m.registers.halted with
  | false =>
    rw [step_observed stopped]
    exact observed _ _ _
  | true =>
    rw [step_of_halted stopped, step_of_halted (m := m.observed trace clock) stopped]
    exact same

/-- Steps keep progress the same. -/
theorem steps (same : SameProgress m m') (n : Nat) :
    SameProgress (Machine.step^[n] m) (Machine.step^[n] m') := by
  induction n with
  | zero => exact same
  | succ n ih =>
    rw [Function.iterate_succ_apply', Function.iterate_succ_apply']
    exact ih.step

/-- Every action keeps progress the same. -/
theorem act (same : SameProgress m m') (a : Action) : SameProgress (m.act a) (m'.act a) := by
  cases a with
  | step => exact same.step
  | run budget =>
    rw [Machine.act, Machine.act, run_eq_steps, run_eq_steps]
    exact same.steps _
  | reset => exact ⟨rfl, same.memory, rfl⟩
  | load words start =>
    exact ⟨same.registers, congrArg (·.load words start) same.memory, same.diagnostic⟩
  | loadImage image =>
    obtain ⟨trace, clock, rfl⟩ := same.exists_observed
    rw [Machine.act, Machine.act, loadImage_observed]
    exact observed _ _ _
  | write address word =>
    exact ⟨same.registers, congrArg (·.write address word) same.memory, same.diagnostic⟩
  | setTrace enabled => exact ⟨same.registers, same.memory, same.diagnostic⟩
  | clearTrace => exact ⟨same.registers, same.memory, same.diagnostic⟩
  | passTime seconds => exact ⟨same.registers, same.memory, same.diagnostic⟩

/-- Every request keeps progress the same. -/
theorem serve (same : SameProgress m m') (r : Request) : SameProgress (m.serve r) (m'.serve r) := by
  cases r with
  | act a => exact same.act a
  | read address => exact same

/-- A request that only concerns the trace or the clock is no progress. -/
theorem serve_observes (same : SameProgress m m') {r : Request} (observes : r.observes = true) :
    SameProgress (m.serve r) m' := by
  have undone : SameProgress (m.serve r) m := by
    cases r with
    | read address => contradiction
    | act a =>
      cases a with
      | setTrace enabled | clearTrace | passTime seconds => exact ⟨rfl, rfl, rfl⟩
      | _ => contradiction
  exact undone.trans same

/-- Machines that make the same progress reply the same. -/
theorem reply? (same : SameProgress m m') (r : Request) : m'.reply? r = m.reply? r := by
  cases r with
  | read address => rw [Machine.reply?, Machine.reply?, same.memory]
  | act a =>
    cases a with
    | step => rw [Machine.reply?, Machine.reply?, isRunning, isRunning, same.step.registers]
    | run budget =>
      have after := same.act (.run budget)
      simp only [Machine.act] at after
      rw [Machine.reply?, Machine.reply?, performed, performed, after.registers, same.registers]
    | load words start => rw [Machine.reply?, Machine.reply?, same.memory]
    | loadImage image =>
      rw [Machine.reply?, Machine.reply?, storedOfImage, storedOfImage, same.memory]
    | reset | write address word | setTrace enabled | clearTrace | passTime seconds => rfl

/-! ## Requests that are left out -/

/-- Machines that make the same progress go on to do so if requests that only concern the trace or
the clock are left out. -/
theorem served_filter (same : SameProgress m m') (requests : List Request) :
    SameProgress (m.served requests) (m'.served (requests.filter fun r => !r.observes)) := by
  induction requests generalizing m m' with
  | nil => exact same
  | cons r rest ih =>
    cases observes : r.observes with
    | true =>
      rw [List.filter_cons_of_neg (by simp [observes])]
      exact ih (same.serve_observes observes)
    | false =>
      rw [List.filter_cons_of_pos (by simp [observes])]
      exact ih (same.serve r)

/-- Of machines that make the same progress, one may be spared the requests that only concern the
trace or the clock: all others get the same replies. -/
theorem transcript_filter (same : SameProgress m m') (requests : List Request) :
    m'.transcript (requests.filter fun r => !r.observes) =
      (m.transcript requests).filter fun (r, _) => !r.observes := by
  induction requests generalizing m m' with
  | nil => rfl
  | cons r rest ih =>
    rw [transcript]
    cases observes : r.observes with
    | true =>
      rw [List.filter_cons_of_neg (by simp [observes]),
        List.filter_cons_of_neg (by simp [observes])]
      exact ih (same.serve_observes observes)
    | false =>
      rw [List.filter_cons_of_pos (by simp [observes]),
        List.filter_cons_of_pos (by simp [observes]), transcript, ih (same.serve r), same.reply? r]

end SameProgress

/-- Whatever is asked of a machine, requests that only concern the trace or the clock may be left
out, and the trace and the clock at the beginning be others: after every part of the session the
registers, the memory and the diagnostic are the same, and all other requests get the same
replies. -/
theorem transcript_unobserved (m : Machine) (trace : Trace) (clock : Clock)
    (requests : List Request) :
    (∀ n, SameProgress (m.served (requests.take n))
      ((m.observed trace clock).served ((requests.take n).filter fun r => !r.observes))) ∧
      (m.observed trace clock).transcript (requests.filter fun r => !r.observes) =
        (m.transcript requests).filter fun (r, _) => !r.observes := by
  have same := SameProgress.observed m trace clock
  exact ⟨fun n => same.served_filter (requests.take n), same.transcript_filter requests⟩

end Machine

end DirectionCentral

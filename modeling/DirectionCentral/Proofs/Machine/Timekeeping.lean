import DirectionCentral.Proofs.Clock.Residue
import DirectionCentral.Proofs.Machine.Session

/-!
# Timekeeping

Only a reset and the passing of time concern the clock (`clock_act`). Main statement: whatever is
done to a machine, what its clock carries on is finite, not less than zero and less than one, unless
a time has passed since the last reset that is finite and has too many ticks for a number; then it
is not a number. The count of whole ticks never decreases between resets (`timekeeping_after`).
-/

namespace DirectionCentral.Machine

variable {m : Machine} {period : List Action}

/-- A step does not concern the clock. -/
theorem clock_step (m : Machine) : m.step.clock = m.clock := by
  cases stopped : m.registers.halted with
  | true => rw [step_of_halted stopped]
  | false => exact (stepped_step stopped).clock

/-- Only a reset and the passing of time concern the clock. -/
theorem clock_act (m : Machine) (a : Action) :
    (m.act a).clock =
      match a with
      | .reset => {}
      | .passTime seconds => m.clock.advance seconds
      | _ => m.clock := by
  cases a with
  | step => exact m.clock_step
  | run budget =>
    rw [act, run_eq_steps]
    exact steps_induction (P := fun m' => m'.clock = m.clock)
      (fun m' same => m'.clock_step.trans same) rfl _
  | loadImage image => rw [act, m.loadImage_eq image]
  | reset | load words start | write address word | setTrace enabled | clearTrace
    | passTime seconds => rfl

/-! ## A period -/

/-- A property of the clock that passing time keeps is kept through a period. -/
theorem clock_induction {P : Clock → Prop} (noReset : ∀ a ∈ period, a.isReset = false)
    (keep : ∀ seconds, .passTime seconds ∈ period → ∀ c, P c → P (c.advance seconds))
    (start : P m.clock) : P (m.after period).clock := by
  induction period generalizing m with
  | nil => exact start
  | cons a rest ih =>
    obtain ⟨first, others⟩ := List.forall_mem_cons.1 noReset
    refine ih (m := m.act a) others
      (fun seconds member => keep seconds (List.mem_cons_of_mem _ member)) ?_
    rw [clock_act]
    cases a with
    | reset => contradiction
    | passTime seconds => exact keep seconds List.mem_cons_self _ start
    | _ => exact start

/-- The count of whole ticks does not decrease through a period. -/
theorem ticks_le_after (noReset : ∀ a ∈ period, a.isReset = false) :
    m.clock.ticks ≤ (m.after period).clock.ticks :=
  clock_induction (P := fun c => m.clock.ticks ≤ c.ticks) noReset
    (fun seconds _ c counted => UInt64.le_trans counted (c.ticks_le_advance seconds))
    (UInt64.le_refl _)

/-- What is carried on is not a number after a time whose ticks are too many. -/
theorem isNaN_after (noReset : ∀ a ∈ period, a.isReset = false)
    (fraction : Clock.IsFraction m.clock.residue) {seconds : Float}
    (passed : .passTime seconds ∈ period) (lost : Clock.Overflows seconds) :
    (m.after period).clock.residue.isNaN = true := by
  obtain ⟨before, later, rfl⟩ := List.append_of_mem passed
  obtain ⟨earlier, afterward⟩ := List.forall_mem_append.1 noReset
  -- It may have been lost before.
  have carried : Clock.IsFraction (m.after before).clock.residue ∨
      (m.after before).clock.residue.isNaN = true :=
    clock_induction (P := fun c => Clock.IsFraction c.residue ∨ c.residue.isNaN = true) earlier
      (fun seconds _ c => Clock.isFraction_or_isNaN_advance) (.inl fraction)
  have now : ((m.after before).act (.passTime seconds)).clock.residue.isNaN = true := by
    obtain fraction | nan := carried
    · exact Clock.isNaN_advance_of_overflows fraction lost
    · exact Clock.isNaN_advance nan
  rw [after_append]
  change (((m.after before).act (.passTime seconds)).after later).clock.residue.isNaN = true
  exact clock_induction (P := fun c => c.residue.isNaN = true)
    (List.forall_mem_cons.1 afterward).2 (fun seconds _ c => Clock.isNaN_advance) now

/-! ## After a session -/

/-- What holds of the clock after a period, which begins with another machine. -/
structure Timekeeping (start : Machine) (period : List Action) (m : Machine) : Prop where
  /-- If the ticks of no time of the period are too many for a number, a fraction is carried on. -/
  fraction : (∀ seconds, .passTime seconds ∈ period → ¬ Clock.Overflows seconds) →
    m.clock.residue.isFinite = true ∧ 0.0 ≤ m.clock.residue ∧ m.clock.residue < 1.0
  /-- Otherwise what is carried on is not a number. -/
  lost : ∀ seconds, .passTime seconds ∈ period → Clock.Overflows seconds →
    m.clock.residue.isNaN = true
  /-- At no earlier moment of the period were more ticks counted. -/
  monotone : ∀ front, front <+: period → (start.after front).clock.ticks ≤ m.clock.ticks

/-- Where the last period of a session begins the clock is new. -/
theorem clock_untilReset (config : Configuration) (actions : List Action) :
    ((ofConfiguration config).after (Action.untilReset actions)).clock = {} := by
  obtain built | ⟨front, reset⟩ := Action.untilReset_eq actions
  · rw [built]
    rfl
  · rw [reset, after_append]
    rfl

/-- Whatever is done to a machine of a configuration, its clock carries a fraction on unless a
finite time has passed since the last reset whose ticks are too many for a number, and its count of
whole ticks does not decrease between resets. -/
theorem timekeeping_after (config : Configuration) (actions : List Action) :
    Timekeeping ((ofConfiguration config).after (Action.untilReset actions))
      (Action.sinceReset actions) ((ofConfiguration config).after actions) := by
  have noReset : ∀ a ∈ Action.sinceReset actions, a.isReset = false := fun a member => by
    simpa using List.mem_rtakeWhile_imp member
  have started : Clock.IsFraction
      ((ofConfiguration config).after (Action.untilReset actions)).clock.residue := by
    rw [clock_untilReset]
    exact Clock.isFraction_of_zero Binary64.reading_zero
  have ended := after_append (ofConfiguration config) (Action.untilReset actions)
    (Action.sinceReset actions)
  rw [Action.untilReset_append_sinceReset] at ended
  rw [ended]
  refine ⟨fun few => ?_, fun seconds passed lost => isNaN_after noReset started passed lost,
    fun front prefixed => ?_⟩
  · have kept := clock_induction (P := fun c => Clock.IsFraction c.residue) noReset
      (fun seconds passed c fraction => Clock.isFraction_advance fraction (few seconds passed))
      started
    exact kept.bounds
  · obtain ⟨rest, split⟩ := prefixed
    rw [← split, after_append]
    exact ticks_le_after fun a member => noReset a (split ▸ List.mem_append_right _ member)

/-- The greatest finite time is such a time: after it the clock carries on no fraction. -/
theorem not_fraction_after_greatest :
    let m := (ofConfiguration { memorySize := 1 }).after
      [.passTime (Float.ofBits 0x7FEFFFFFFFFFFFFF)]
    ¬ (m.clock.residue.isFinite = true ∧ 0.0 ≤ m.clock.residue ∧ m.clock.residue < 1.0) := by
  decide +kernel

end DirectionCentral.Machine

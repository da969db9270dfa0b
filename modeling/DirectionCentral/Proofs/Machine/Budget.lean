import DirectionCentral.Proofs.Machine.Recording

/-!
# Budgets

A run is given a budget and reports how many instructions it performed. It performs one with each of
its steps that finds the machine running, so the report is the number of these steps
(`toNat_performed`), also where the instruction that halts is the last one of the budget or comes
before its end. As the budget is a number of steps, it can be divided between two runs, and their
reports add up (`budgets_compose`).
-/

namespace DirectionCentral.Machine

variable {m : Machine} {n : Nat}

/-! ## Steps that find the machine running -/

/-- The steps that find the machine running are those of a first part and those of the rest. -/
theorem activeSteps_add (m : Machine) (first rest : Nat) :
    m.activeSteps (first + rest) = m.activeSteps first + (step^[first] m).activeSteps rest := by
  induction rest with
  | zero => rfl
  | succ rest ih =>
    have later : step^[first + rest] m = step^[rest] (step^[first] m) := by
      rw [Nat.add_comm, Function.iterate_add_apply]
    rw [← Nat.add_assoc, activeSteps_succ, activeSteps_succ, ih, later, Nat.add_assoc]

/-- No more steps find the machine running than are made. -/
theorem activeSteps_le (m : Machine) (n : Nat) : m.activeSteps n ≤ n := by
  have counted : m.activeSteps n ≤ (List.range n).length := List.countP_le_length
  rwa [List.length_range] at counted

/-- A machine that some step does not find running is halted in the end. -/
theorem halted_of_activeSteps_lt (fewer : m.activeSteps n < n) :
    (step^[n] m).registers.halted = true := by
  cases stopped : (step^[n] m).registers.halted with
  | true => rfl
  | false => exact absurd (activeSteps_of_running stopped) (Nat.ne_of_lt fewer)

/-! ## What a run reports -/

/-- A run reports the steps that find the machine running, whatever the counter holds before. -/
theorem toNat_performed (m : Machine) (fits : n < UInt64.size) :
    (m.performed n).toNat = m.activeSteps n := by
  have few : m.activeSteps n < UInt64.size := Nat.lt_of_le_of_lt (m.activeSteps_le n) fits
  rw [performed, run_eq_steps, instructions_steps, UInt64.add_comm, UInt64.add_sub_cancel,
    UInt64.toNat_ofNat_of_lt' few]

/-- A budget may be divided: a run of `m` and then one of `n` instructions leave the machine that a
run of `m + n` leaves, and their reports add up to its report. A run is its budget in steps. It
reports as many instructions as steps of it find the machine running, at most its budget, and fewer
only if the machine is halted afterward. -/
theorem budgets_compose (c : Machine) {m n : Nat} (fits : m + n < UInt64.size) :
    let first := c.runCounted m
    let second := first.2.runCounted n
    let whole := c.runCounted (m + n)
    second.2 = whole.2 ∧ first.1.toNat + second.1.toNat = whole.1.toNat ∧
      first.2 = step^[m] c ∧ first.1.toNat = c.activeSteps m ∧ first.1.toNat ≤ m ∧
      (first.1.toNat < m → first.2.registers.halted = true) := by
  intro first second whole
  have ran (c : Machine) (k : Nat) : (c.runCounted k).2 = step^[k] c := c.run_eq_steps k
  have reported (c : Machine) {k : Nat} (below : k ≤ m + n) :
      (c.runCounted k).1.toNat = c.activeSteps k :=
    c.toNat_performed (Nat.lt_of_le_of_lt below fits)
  have ofFirst : first.1.toNat = c.activeSteps m := reported c (Nat.le_add_right m n)
  refine ⟨?_, ?_, ran c m, ofFirst, ofFirst ▸ c.activeSteps_le m, fun fewer => ?_⟩
  · rw [ran, ran, ran, Nat.add_comm, Function.iterate_add_apply]
  · rw [ofFirst, reported _ (Nat.le_add_left n m), reported c (Nat.le_refl _), ran, activeSteps_add]
  · rw [ran]
    exact halted_of_activeSteps_lt (ofFirst ▸ fewer)

/-- A loop that counts down from 2 and halts with its sixth instruction, by which the counter comes
to its maximum. The budget of nine is divided within the loop: the first run performs four
instructions, and the second the two that are left. -/
theorem budgets_compose_within_loop :
    let c : Machine :=
      { registers := { instructions := 18446744073709551609 }
        memory := ⟨#[0x15000200, 0x03000005, 0x14000001, 0, 0, 7], by decide⟩ }
    4 + 5 < UInt64.size ∧ (c.runCounted 4).1 = 4 ∧ ((c.runCounted 4).2.runCounted 5).1 = 2 ∧
      (c.runCounted (4 + 5)).1 = 6 ∧
      ((c.runCounted 4).2.runCounted 5).2 = (c.runCounted (4 + 5)).2 ∧
      (c.runCounted (4 + 5)).2.registers.instructions = 18446744073709551615 := by
  intro c
  have fits : 4 + 5 < UInt64.size := by decide
  obtain ⟨same, sum, -⟩ := budgets_compose c fits
  have first : (c.runCounted 4).1 = 4 := by decide +kernel
  have second : ((c.runCounted 4).2.runCounted 5).1 = 2 := by decide +kernel
  refine ⟨fits, first, second, UInt64.toNat_inj.1 ?_, same, by decide +kernel⟩
  rw [← sum, first, second]
  rfl

end DirectionCentral.Machine

import DirectionCentral.Proofs.Machine.ExactStep
import DirectionCentral.Proofs.Machine.Session

/-!
# The range of the index register

Three operations set the index register: one to an address, one to a number of 32 bits, and one adds
a byte to it. So it grows by at most 255 with each instruction (`IndexWithin.step`), and within
`2 ^ 54` instructions of a period it stays far from the limits of its 64 bits. There the sums and
differences that a step forms with it are exact (`index_after`).
-/

namespace DirectionCentral

/-- A sum that fits 64 bits is exact. -/
theorem toInt_add_of_fits {a b : Int64} (lower : -2 ^ 63 ≤ a.toInt + b.toInt)
    (upper : a.toInt + b.toInt < 2 ^ 63) : (a + b).toInt = a.toInt + b.toInt := by
  rw [Int64.toInt_add]
  exact Int.bmod_eq_of_le (by omega) (by omega)

/-- A difference that fits 64 bits is exact. -/
theorem toInt_sub_of_fits {a b : Int64} (lower : -2 ^ 63 ≤ a.toInt - b.toInt)
    (upper : a.toInt - b.toInt < 2 ^ 63) : (a - b).toInt = a.toInt - b.toInt := by
  rw [Int64.toInt_sub]
  exact Int.bmod_eq_of_le (by omega) (by omega)

/-- An address that fits 63 bits is not changed by reading it as a signed number. -/
theorem toInt_toInt64_of_fits {address : UInt64} (fits : address.toNat < 2 ^ 63) :
    address.toInt64.toInt = address.toNat := by
  have signed : address.toInt64.toInt = (address.toNat : Int).bmod (2 ^ 64) :=
    BitVec.toInt_eq_toNat_bmod _
  rw [signed]
  exact Int.bmod_eq_of_le (by omega) (by omega)

namespace Instruction

/-- The sum of the address and the index register in 64 bits. -/
def addressSum (i : Instruction) (index : Int64) : Int64 := i.address.toUInt64.toInt64 + index

/-- An indexed instruction refers to the low 16 bits of the sum. -/
theorem effectiveAddress_eq_addressSum {i : Instruction} (indexed : i.indexed = true)
    (index : Int64) : i.effectiveAddress index = (i.addressSum index).toUInt64.toUInt16 := by
  rw [effectiveAddress, if_pos indexed, addressSum, Int64.toUInt64_add, UInt64.toUInt16_add,
    UInt64.toUInt64_toInt64, UInt16.toUInt16_toUInt64]

end Instruction

namespace Machine

/-- The index register is in the range that it can reach within `n` instructions. -/
structure IndexWithin (n : Nat) (m : Machine) : Prop where
  /-- It is not below the least number of 32 bits. -/
  lower : -2 ^ 31 ≤ m.registers.index.toInt
  /-- It is at most so much above the end of memory and the greatest number of 32 bits. -/
  upper : m.registers.index.toInt ≤ max (m.memory.size : Int) (2 ^ 31 - 1) + 255 * n

/-- What is added to the index register or subtracted from it comes out exact. -/
structure IndexExact (m : Machine) : Prop where
  /-- The sum of an address is exact. -/
  sum : ∀ i : Instruction,
    (i.addressSum m.registers.index).toInt = i.address.toNat + m.registers.index.toInt
  /-- Its low 16 bits are the address that an indexed instruction refers to. -/
  resolved : ∀ i : Instruction, i.indexed = true →
    i.effectiveAddress m.registers.index = (i.addressSum m.registers.index).toUInt64.toUInt16
  /-- `TXI` leaves the exact sum. -/
  raised : m.registers.halted = false → m.upcoming.instruction.operation? = some .txi →
    m.step.registers.index.toInt =
      m.registers.index.toInt + m.upcoming.instruction.increment.toNat
  /-- The difference by one is exact. -/
  difference : (m.registers.index - 1).toInt = m.registers.index.toInt - 1
  /-- `TIX` leaves the low 32 bits of the difference. -/
  lowered : m.registers.halted = false → m.upcoming.instruction.operation? = some .tix →
    m.step.registers.index = (Accumulator.wrap (m.registers.index - 1)).toInt64

/-- The index register after an operation. -/
def indexAfter (m : Machine) (op : Operation) (i : Instruction) : Int64 :=
  match op with
  | .tsx => m.registers.next.toInt64
  | .tix => (Accumulator.wrap (m.registers.index - 1)).toInt64
  | .txi => m.registers.index + i.increment.toUInt64.toInt64
  | _ => m.registers.index

variable {m : Machine} {n : Nat}

/-! ## What a step does to the index register -/

/-- Three operations set the index register. -/
theorem index_perform (m : Machine) (op : Operation) (i : Instruction) (ea : UInt16) :
    (m.perform op i ea).registers.index = m.indexAfter op i := by
  cases op <;> simp only [perform]
  case tnz | tmi | tix | txi => split <;> rfl
  all_goals rfl

/-- Moving past the fetched word does not set the index register. -/
theorem index_passFetch (m : Machine) : m.passFetch.registers.index = m.registers.index := by
  rw [passFetch]
  split <;> rfl

/-- The index register after a step is that after its operation, if it has one. -/
theorem index_step (running : m.registers.halted = false) :
    m.step.registers.index =
      match m.upcoming.instruction.operation? with
      | some op => m.passFetch.indexAfter op m.upcoming.instruction
      | none => m.registers.index := by
  rw [step, if_neg (by simp [running])]
  simp only [dispatch]
  cases m.upcoming.instruction.operation? with
  | some op => exact index_perform ..
  | none => exact m.index_passFetch

/-- Steps neither add nor remove cells. -/
theorem size_steps (m : Machine) (k : Nat) : (step^[k] m).memory.size = m.memory.size := by
  refine steps_induction (P := fun m' => m'.memory.size = m.memory.size) ?_ rfl k
  intro m' same
  exact (m'.size_act .step).trans same

/-! ## How far it gets -/

namespace IndexWithin

/-- More instructions reach further. -/
theorem mono {n' : Nat} (within : IndexWithin n m) (more : n ≤ n') : IndexWithin n' m :=
  ⟨within.lower, by have := within.upper; omega⟩

/-- Adding a byte or an address is exact within `2 ^ 54` instructions. -/
theorem toInt_add (within : IndexWithin n m) (small : m.memory.size ≤ 2 ^ 32) (few : n ≤ 2 ^ 54)
    {amount : Int64} (positive : 0 ≤ amount.toInt) (below : amount.toInt < 2 ^ 16) :
    (m.registers.index + amount).toInt = m.registers.index.toInt + amount.toInt := by
  have lower := within.lower
  have upper := within.upper
  exact toInt_add_of_fits (by omega) (by omega)

/-- Adding the increment of an instruction is exact within `2 ^ 54` instructions. -/
theorem toInt_add_increment (within : IndexWithin n m) (small : m.memory.size ≤ 2 ^ 32)
    (few : n ≤ 2 ^ 54) (i : Instruction) :
    (m.registers.index + i.increment.toUInt64.toInt64).toInt =
      m.registers.index.toInt + i.increment.toNat := by
  have byte := i.increment.toNat_lt
  have amount := toInt_toInt64 i.increment
  rw [within.toInt_add small few (by omega) (by omega), amount]

/-- Adding an address is exact within `2 ^ 54` instructions. -/
theorem toInt_addressSum (within : IndexWithin n m) (small : m.memory.size ≤ 2 ^ 32)
    (few : n ≤ 2 ^ 54) (i : Instruction) :
    (i.addressSum m.registers.index).toInt = i.address.toNat + m.registers.index.toInt := by
  have address := i.address.toNat_lt
  have amount : i.address.toUInt64.toInt64.toInt = i.address.toNat := by
    rw [toInt_toInt64_of_fits, UInt16.toNat_toUInt64]
    rw [UInt16.toNat_toUInt64]
    omega
  rw [Instruction.addressSum, Int64.add_comm, within.toInt_add small few (by omega) (by omega),
    amount, Int.add_comm]

/-- A step of a running machine reaches as far as one instruction can. -/
theorem step (within : IndexWithin n m) (sound : Sound m) (small : m.memory.size ≤ 2 ^ 32)
    (few : n ≤ 2 ^ 54) (running : m.registers.halted = false) : IndexWithin (n + 1) m.step := by
  have size : m.step.memory.size = m.memory.size := (stepped_step running).size
  have unchanged : IndexWithin (n + 1) m := within.mono (Nat.le_succ n)
  suffices reached : -2 ^ 31 ≤ m.step.registers.index.toInt ∧ m.step.registers.index.toInt ≤
      max (m.memory.size : Int) (2 ^ 31 - 1) + 255 * (n + 1 : Nat) by
    exact ⟨reached.1, by rw [size]; exact reached.2⟩
  rw [index_step running]
  cases m.upcoming.instruction.operation? with
  | none => exact ⟨unchanged.lower, unchanged.upper⟩
  | some op =>
    cases op <;> simp only [indexAfter, index_passFetch]
    case tsx =>
      have inside := m.onward_passFetch.next_le sound.next_le
      rw [m.onward_passFetch.size] at inside
      rw [toInt_toInt64_of_fits (by omega)]
      omega
    case tix =>
      rw [Int32.toInt_toInt64]
      have lower := (Accumulator.wrap (m.registers.index - 1)).le_toInt
      have upper := (Accumulator.wrap (m.registers.index - 1)).toInt_lt
      omega
    case txi =>
      have byte := m.upcoming.instruction.increment.toNat_lt
      rw [within.toInt_add_increment small few]
      have lower := within.lower
      have upper := within.upper
      omega
    all_goals exact ⟨unchanged.lower, unchanged.upper⟩

/-- Steps reach as far as the instructions that they perform. -/
theorem steps (within : IndexWithin n m) (sound : Sound m) (small : m.memory.size ≤ 2 ^ 32)
    (k : Nat) (few : n + m.activeSteps k ≤ 2 ^ 54) :
    IndexWithin (n + m.activeSteps k) (Machine.step^[k] m) := by
  induction k with
  | zero => exact within
  | succ k ih =>
    rw [activeSteps_succ] at few ⊢
    have now := ih (by omega)
    rw [Function.iterate_succ_apply']
    cases stopped : (Machine.step^[k] m).registers.halted with
    | true =>
      rw [step_of_halted stopped]
      exact now.mono (by omega)
    | false =>
      have sound' : Sound (Machine.step^[k] m) :=
        steps_induction (fun _ sound => sound.step) sound k
      have next := now.step sound' (by rwa [size_steps]) (by omega) stopped
      rwa [isRunning, stopped, Bool.not_false, if_pos rfl, ← Nat.add_assoc]

/-- Every action but a reset reaches as far as the instructions that it performs. -/
theorem act (within : IndexWithin n m) (sound : Sound m) (small : m.memory.size ≤ 2 ^ 32)
    {a : Action} (noReset : a.isReset = false) (few : n + m.performedBy a ≤ 2 ^ 54) :
    IndexWithin (n + m.performedBy a) (m.act a) := by
  have idle (m' : Machine) (index : m'.registers.index = m.registers.index)
      (size : m'.memory.size = m.memory.size) : IndexWithin n m' :=
    ⟨by rw [index]; exact within.lower, by rw [index, size]; exact within.upper⟩
  cases a with
  | reset => contradiction
  | step => exact within.steps sound small 1 few
  | run budget =>
    rw [Machine.act, run_eq_steps]
    exact within.steps sound small _ few
  | loadImage image =>
    refine idle _ ?_ (m.size_act (.loadImage image))
    rw [Machine.act, m.loadImage_eq image]
  | load words start | write address word | setTrace enabled | clearTrace | passTime seconds =>
    exact idle _ rfl (m.size_act _)

/-- A period reaches as far as the instructions that it performs. -/
theorem after {period : List Action} (within : IndexWithin n m) (sound : Sound m)
    (small : m.memory.size ≤ 2 ^ 32) (noReset : ∀ a ∈ period, a.isReset = false)
    (few : n + m.performedThrough period ≤ 2 ^ 54) :
    IndexWithin (n + m.performedThrough period) (m.after period) := by
  induction period generalizing m n with
  | nil => exact within
  | cons a rest ih =>
    obtain ⟨first, others⟩ := List.forall_mem_cons.1 noReset
    rw [performedThrough, ← Nat.add_assoc] at few ⊢
    have now := within.act sound small first (by omega)
    exact ih now (sound.act a) (by rwa [size_act]) others few

/-- What is added to the index register or subtracted from it comes out exact within `2 ^ 54`
instructions. -/
theorem indexExact (within : IndexWithin n m) (small : m.memory.size ≤ 2 ^ 32) (few : n ≤ 2 ^ 54) :
    IndexExact m where
  sum := within.toInt_addressSum small few
  resolved i indexed := Instruction.effectiveAddress_eq_addressSum indexed _
  raised running known := by
    simp only [index_step running, known, indexAfter, index_passFetch]
    exact within.toInt_add_increment small few _
  difference := by
    have lower := within.lower
    have upper := within.upper
    have one : (1 : Int64).toInt = 1 := rfl
    rw [toInt_sub_of_fits (by omega) (by omega), one]
  lowered running known := by
    simp only [index_step running, known, indexAfter, index_passFetch]

end IndexWithin

/-! ## After a session -/

/-- Where the last period of a session begins the index register is zero. -/
theorem index_start_of_period (config : Configuration) (actions : List Action) :
    ((ofConfiguration config).after (Action.untilReset actions)).registers.index = 0 := by
  obtain built | ⟨front, reset⟩ := Action.untilReset_eq actions
  · rw [built]
    rfl
  · rw [reset, after_append]
    rfl

/-- Within `2 ^ 54` instructions of the last period of a session the index register is at most 255
for each of them above the end of memory and the numbers of 32 bits, and never below these; so what
is added to it or subtracted from it comes out exact. -/
theorem index_after (config : Configuration) (small : config.memorySize.toNat ≤ 2 ^ 32)
    (actions : List Action) {n : Nat}
    (counted : ((ofConfiguration config).after (Action.untilReset actions)).performedThrough
      (Action.sinceReset actions) = n)
    (few : n ≤ 2 ^ 54) :
    let m := (ofConfiguration config).after actions
    m.memory.size = config.memorySize.toNat ∧ IndexWithin n m ∧ IndexExact m := by
  intro m
  let start := (ofConfiguration config).after (Action.untilReset actions)
  have ended : m = start.after (Action.sinceReset actions) := by
    rw [← after_append, Action.untilReset_append_sinceReset]
  have size (session : List Action) :
      ((ofConfiguration config).after session).memory.size = config.memorySize.toNat :=
    (size_after _ session).trans (size_ofConfiguration config)
  have noReset : ∀ a ∈ Action.sinceReset actions, a.isReset = false := fun a member => by
    simpa using List.mem_rtakeWhile_imp member
  have zero : IndexWithin 0 start := by
    have index : start.registers.index = 0 := index_start_of_period config actions
    constructor
    · rw [index]
      decide
    · rw [index]
      exact Int.add_nonneg (le_max_of_le_right (by decide)) (by decide)
  have within : IndexWithin n m := by
    have reached := zero.after ((sound_ofConfiguration config).after _) (by rwa [size]) noReset
      (by rwa [Nat.zero_add, counted])
    rwa [Nat.zero_add, counted, ← ended] at reached
  exact ⟨size actions, within, within.indexExact (by rwa [size]) few⟩

/-- A program that saves an address, counts down past zero and adds the greatest byte, all with the
index register. -/
theorem index_after_mixed :
    let config : Configuration := { memorySize := 4 }
    let program : List Word := [0x14000000, 0x14000000, 0x13000003, 0x1500FF00]
    let actions : List Action := [.run 3, .reset, .load program 0, .run 2, .step, .step]
    let m := (ofConfiguration config).after actions
    m.registers.index = 258 ∧ m.memory.size = 4 ∧ IndexWithin 4 m ∧ IndexExact m := by
  intro config program actions m
  exact ⟨by decide +kernel, index_after config (by decide) actions (by decide +kernel) (by decide)⟩

end Machine

end DirectionCentral

import DirectionCentral.Clock
import DirectionCentral.Proofs.Binary64.Arithmetic

/-!
# The fraction of a tick

The clock adds the ticks of a time to the fraction that it carries on, takes off the whole ticks and
carries on the rest. The rest is exact, whatever was rounded before (`isFraction_sub_floor`).
Main statements: a fraction stays one (`isFraction_advance`) unless the ticks of a finite time are
too many for a number (`Overflows`), which they are just when they come out infinite
(`overflows_iff`); then nothing that is a number is left (`isNaN_advance_of_overflows`), nor ever
again (`isNaN_advance`). The count of whole ticks never decreases (`ticks_le_advance`).
-/

namespace DirectionCentral.Clock

open Binary64
open Float.Model (UnpackedFloat)

/-- The least time, `2 ^ 1019` seconds, whose ticks are too many for a number. -/
def leastLost : Float := Float.ofBits 0x7FA0000000000000

/-- Whether the ticks of a finite time are too many for a number. -/
def Overflows (seconds : Float) : Prop := seconds.isFinite = true ∧ leastLost ≤ seconds

/-- A number not less than zero and less than one, as the clock carries it on. -/
def IsFraction (x : Float) : Prop :=
  ∃ m e, Canonical m e ∧ e ≤ -53 ∧ reading x = amount m e

/-- The rate is a power of two. -/
theorem reading_rate : reading rate = amount (2 ^ 52) ((5 : Nat) - 52) := rfl

/-- The least time whose ticks are too many is a power of two. -/
theorem reading_leastLost : reading leastLost = amount (2 ^ 52) 967 := rfl

variable {x : Float} {c : Clock} {seconds : Float} {m : Nat} {e : Int}

/-- A fraction is finite, not less than zero and less than one. -/
theorem IsFraction.bounds (fraction : IsFraction x) :
    x.isFinite = true ∧ 0.0 ≤ x ∧ x < 1.0 := by
  obtain ⟨m, e, canonical, small, read⟩ := fraction
  have one : reading 1.0 = amount (2 ^ 52) (-52) := rfl
  have finite : x.isFinite = (amount m e).isFinite := congrArg UnpackedFloat.isFinite read
  rw [finite, le_iff, lt_iff, read, one, reading_zero, compare_two_pow canonical (by decide)]
  exact ⟨isFinite_amount m e, zero_le m e, by omega⟩

/-- Zero is a fraction. -/
theorem isFraction_of_zero (zero : reading x = .zero .positive) : IsFraction x :=
  ⟨0, -1074, canonical_zero, by decide, zero⟩

/-! ## Whole ticks -/

/-- From the least whole number on every number is its own floor. -/
theorem floor_of_not_lt (large : ¬ x.abs < leastWhole) : floor x = x := if_neg large

/-- Below it the floor of an amount is its whole part. -/
theorem floor_of_lt (read : reading x = amount m e) (small : x.abs < leastWhole) :
    floor x = if x == 0.0 then x else x.abs.toUInt64.toFloat := by
  have notLess : ¬ x < 0.0 := by
    rw [lt_iff, read, reading_zero]
    exact compare_zero m e
  rw [floor, if_pos small]
  dsimp only
  rw [if_neg notLess]

/-- An amount that is its own floor leaves nothing. -/
theorem isFraction_sub_self (read : reading x = amount m e) : IsFraction (x - x) := by
  refine isFraction_of_zero ?_
  rw [reading_sub, read, sub_self]
  exact stored_zero

/-- What is left of an amount without its whole part is a fraction. -/
theorem isFraction_sub_floor (canonical : Canonical m e) (fits : e ≤ 971)
    (read : reading x = amount m e) : IsFraction (x - floor x) := by
  have magnitude : reading x.abs = amount m e := by
    rw [reading_abs, read, abs_amount, stored_amount canonical fits]
  have least : reading leastWhole = amount (2 ^ 52) 0 := rfl
  have small : x.abs < leastWhole ↔ e < 0 := by
    rw [lt_iff, magnitude, least, compare_two_pow canonical (by decide)]
  by_cases negative : e < 0
  · rw [floor_of_lt read (small.2 negative)]
    split
    · exact isFraction_sub_self read
    · obtain ⟨m', e', canonical', below, rest⟩ := exists_rest canonical negative
      refine ⟨m', e', canonical', below, ?_⟩
      have count : x.abs.toUInt64.toNat = m / 2 ^ (-e).toNat := by
        rw [← toNat_toUInt64 canonical.lt negative, ← magnitude]
        rfl
      rw [reading_sub, read, reading_toFloat, count, rest, stored_amount canonical' (by omega)]
  · rw [floor_of_not_lt (mt small.1 negative)]
    exact isFraction_sub_self read

/-! ## Letting time pass -/

/-- A time that is finite and positive is counted, less its whole ticks. -/
theorem residue_advance (counted : seconds.isFinite = true ∧ 0.0 < seconds) :
    (c.advance seconds).residue =
      c.residue + seconds * rate - floor (c.residue + seconds * rate) := by
  rw [advance, if_pos (Bool.and_eq_true_iff.2 ⟨counted.1, decide_eq_true counted.2⟩)]

/-- Any other time is ignored. -/
theorem advance_of_ignored (ignored : ¬ (seconds.isFinite = true ∧ 0.0 < seconds)) :
    c.advance seconds = c := by
  rw [advance, if_neg (by rwa [Bool.and_eq_true_iff, decide_eq_true_iff])]

/-- The ticks of a time that is not too long are a number. -/
theorem exists_ticks (counted : seconds.isFinite = true ∧ 0.0 < seconds)
    (few : ¬ Overflows seconds) :
    ∃ m e, Canonical m e ∧ e ≤ 971 ∧ reading (seconds * rate) = amount m e := by
  obtain ⟨m, e, pos, canonical, -, read⟩ := exists_reading counted.1 counted.2
  have below : e < 967 := by
    refine Int.not_le.1 fun above => few ⟨counted.1, ?_⟩
    rwa [le_iff, reading_leastLost, read, two_pow_le canonical (by decide)]
  obtain ⟨m', e', canonical', exponent, -, product⟩ := exists_product pos canonical 5
  refine ⟨m', e', canonical', by omega, ?_⟩
  rw [reading_mul, read, reading_rate, product, stored_amount canonical' (by omega)]

/-- A fraction and a number of ticks that is finite have a sum that is finite. -/
theorem exists_elapsed {residue ticks : Float} (fraction : IsFraction residue)
    (canonical : Canonical m e) (fits : e ≤ 971) (read : reading ticks = amount m e) :
    ∃ m' e', Canonical m' e' ∧ e' ≤ 971 ∧ reading (residue + ticks) = amount m' e' := by
  obtain ⟨n, f, tiny, below, carried⟩ := fraction
  rw [reading_add, carried, read]
  by_cases large : 970 ≤ e
  · -- A sum this large does not notice the fraction, and so does not grow past what fits.
    exact ⟨m, e, canonical, fits, by
      rw [sum_of_tiny tiny canonical (by omega), stored_amount canonical fits]⟩
  · obtain ⟨m', e', canonical', exponent, sum⟩ := exists_sum tiny canonical
    exact ⟨m', e', canonical', by omega, by rw [sum, stored_amount canonical' (by omega)]⟩

/-- A fraction stays a fraction while no ticks are too many for a number. -/
theorem isFraction_advance (fraction : IsFraction c.residue) (few : ¬ Overflows seconds) :
    IsFraction (c.advance seconds).residue := by
  by_cases counted : seconds.isFinite = true ∧ 0.0 < seconds
  · obtain ⟨m, e, canonical, fits, read⟩ := exists_ticks counted few
    obtain ⟨m', e', canonical', fits', elapsed⟩ := exists_elapsed fraction canonical fits read
    rw [residue_advance counted]
    exact isFraction_sub_floor canonical' fits' elapsed
  · rwa [advance_of_ignored counted]

/-! ## Too many ticks -/

/-- A time whose ticks are too many is positive and has a large exponent. -/
theorem Overflows.exists_reading (lost : Overflows seconds) :
    0.0 < seconds ∧ ∃ m e, 0 < m ∧ Canonical m e ∧ 967 ≤ e ∧ reading seconds = amount m e := by
  obtain ⟨finite, atLeast⟩ := lost
  change (reading seconds).isFinite = true at finite
  rw [le_iff, reading_leastLost] at atLeast
  rw [lt_iff, reading_zero]
  cases read : reading seconds with
  | notANumber | infinity sign =>
    rw [read] at finite
    contradiction
  | zero sign =>
    rw [read] at atLeast
    contradiction
  | finite sign m e pos =>
    rw [read] at atLeast
    cases sign with
    | negative => contradiction
    | positive =>
      obtain ⟨canonical, fits⟩ := canonical_of_reading read
      rw [← amount_of_pos pos, two_pow_le canonical (by decide)] at atLeast
      exact ⟨rfl, m, e, pos, canonical, atLeast, (amount_of_pos pos).symm⟩

/-- The ticks of a time that is too long are infinite. -/
theorem Overflows.reading_ticks (lost : Overflows seconds) :
    reading (seconds * rate) = .infinity .positive := by
  obtain ⟨-, m, e, pos, canonical, large, read⟩ := lost.exists_reading
  obtain ⟨m', e', canonical', -, exponent, product⟩ := exists_product pos canonical 5
  rw [reading_mul, read, reading_rate, product, stored_amount_of_large canonical' (by omega)]

/-- A time that is counted has too many ticks just when their number is infinite. -/
theorem overflows_iff (counted : seconds.isFinite = true ∧ 0.0 < seconds) :
    Overflows seconds ↔ (seconds * rate).isFinite = false := by
  constructor
  · intro lost
    exact congrArg UnpackedFloat.isFinite lost.reading_ticks
  · intro infinite
    by_contra few
    obtain ⟨m, e, -, -, read⟩ := exists_ticks counted few
    have finite : (seconds * rate).isFinite = true :=
      (congrArg UnpackedFloat.isFinite read).trans (isFinite_amount m e)
    rw [finite] at infinite
    contradiction

/-- From what is infinite nothing is left that is a number. -/
theorem sub_floor_of_infinite (infinite : reading x = .infinity .positive) :
    reading (x - floor x) = .notANumber := by
  have large : ¬ x.abs < leastWhole := by
    rw [lt_iff, reading_abs, infinite]
    decide
  rw [floor_of_not_lt large, reading_sub, infinite]
  exact stored_notANumber

/-- From what is not a number nothing is left that is a number either. -/
theorem sub_floor_of_isNaN (nan : reading x = .notANumber) :
    reading (x - floor x) = .notANumber := by
  rw [reading_sub, nan]
  exact stored_notANumber

/-- If the ticks of a finite time are too many, what is carried on is not a number. -/
theorem isNaN_advance_of_overflows (fraction : IsFraction c.residue) (lost : Overflows seconds) :
    (c.advance seconds).residue.isNaN = true := by
  obtain ⟨n, f, -, -, carried⟩ := fraction
  have elapsed : reading (c.residue + seconds * rate) = .infinity .positive := by
    rw [reading_add, carried, lost.reading_ticks, add_infinity]
    exact stored_infinity
  rw [residue_advance ⟨lost.1, lost.exists_reading.1⟩]
  exact congrArg UnpackedFloat.isNaN (sub_floor_of_infinite elapsed)

/-- What is not a number is carried on for ever. -/
theorem isNaN_advance (nan : c.residue.isNaN = true) :
    (c.advance seconds).residue.isNaN = true := by
  have carried : reading c.residue = .notANumber := UnpackedFloat.isNaN_iff.1 nan
  by_cases counted : seconds.isFinite = true ∧ 0.0 < seconds
  · have elapsed : reading (c.residue + seconds * rate) = .notANumber := by
      rw [reading_add, carried]
      exact stored_notANumber
    rw [residue_advance counted]
    exact congrArg UnpackedFloat.isNaN (sub_floor_of_isNaN elapsed)
  · rwa [advance_of_ignored counted]

/-- A fraction stays a fraction or is lost. -/
theorem isFraction_or_isNaN_advance (carried : IsFraction c.residue ∨ c.residue.isNaN = true) :
    IsFraction (c.advance seconds).residue ∨ (c.advance seconds).residue.isNaN = true := by
  obtain fraction | nan := carried
  · by_cases lost : Overflows seconds
    · exact .inr (isNaN_advance_of_overflows fraction lost)
    · exact .inl (isFraction_advance fraction lost)
  · exact .inr (isNaN_advance nan)

/-! ## The count -/

/-- A sum that stops at the greatest count is no less than what was added to. -/
theorem le_addSaturating (a b : UInt64) : a ≤ addSaturating a b := by
  rw [addSaturating]
  split
  · rename_i fits
    rw [UInt64.le_iff_toNat_le, UInt64.toNat_add, Nat.mod_eq_of_lt fits]
    exact Nat.le_add_right _ _
  · have below : a.toNat < 2 ^ 64 := a.toNat_lt
    rw [UInt64.le_iff_toNat_le]
    exact Nat.le_pred_of_lt below

/-- The count of whole ticks never decreases, whatever time passes. -/
theorem ticks_le_advance (c : Clock) (seconds : Float) : c.ticks ≤ (c.advance seconds).ticks := by
  rw [advance]
  split
  · exact le_addSaturating _ _
  · exact UInt64.le_refl _

end DirectionCentral.Clock

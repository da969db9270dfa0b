import Mathlib.Algebra.Group.Nat.Defs

/-!
# Rounding to binary64

A finite binary64 number that is not negative is a significand times a power of two
(`amount`). The significand has fifty-three bits, or fewer if the exponent is the least one
(`Canonical`). An operation computes exactly and then rounds: it cuts the significand at the place
that the size of the result allows (`place`), and raises it by one where more than half a unit is
cut off. Main statements: nothing is raised where less than half a unit is cut off (`round_down`),
and the exponent of what is rounded is at most one more than the place of the cut
(`exists_amount`).
-/

namespace DirectionCentral.Binary64

open Float.Model (Format UnpackedFloat totalExponent)
open Float.Model.UnpackedFloat

/-- A significand and an exponent as binary64 has them: the significand has fifty-three bits, or
fewer if the exponent is the least one. -/
structure Canonical (m : Nat) (e : Int) : Prop where
  /-- The significand has no more than fifty-three bits. -/
  lt : m < 2 ^ 53
  /-- No exponent is less than this. -/
  least : -1074 ≤ e
  /-- Fewer bits go with the least exponent only. -/
  full : 2 ^ 52 ≤ m ∨ e = -1074

/-- The number `m * 2 ^ e`. -/
def amount (m : Nat) (e : Int) : UnpackedFloat :=
  if pos : 0 < m then .finite .positive m e pos else .zero .positive

/-- The exponent at which binary64 cuts `m * 2 ^ e`. -/
def place (m : Nat) (e : Int) : Int := Format.binary64.targetExponent (totalExponent m e)

variable {m k : Nat} {e : Int}

/-- An amount that is not zero. -/
theorem amount_of_pos (pos : 0 < m) : amount m e = .finite .positive m e pos := dif_pos pos

/-- An amount is zero or positive. -/
@[elab_as_elim]
theorem amount_cases {P : UnpackedFloat → Prop} (m : Nat) (e : Int) (zero : P (.zero .positive))
    (positive : ∀ pos, P (.finite .positive m e pos)) : P (amount m e) := by
  by_cases pos : 0 < m
  · rw [amount_of_pos pos]
    exact positive pos
  · obtain rfl : m = 0 := by omega
    exact zero

/-- Zero has the least exponent. -/
theorem canonical_zero : Canonical 0 (-1074) := ⟨by decide, Int.le_refl _, .inr rfl⟩

/-- Fifty-three bits are kept, and the least exponent is kept to. -/
theorem place_eq : place m e = max (m.log2 + e - 52) (-1074) := by
  have unfolded : place m e = max (m.log2 + 1 + e - 53) (-1074) := rfl
  omega

/-- A canonical number is cut where its significand ends. -/
theorem Canonical.place_eq (canonical : Canonical m e) : place m e = e := by
  have lower := canonical.least
  rw [Binary64.place_eq]
  by_cases zero : m = 0
  · have exponent : e = -1074 := canonical.full.resolve_left (by omega)
    rw [zero, Nat.log2_zero]
    omega
  · have upper : m.log2 < 53 := (Nat.log2_lt zero).2 canonical.lt
    obtain full | exponent := canonical.full
    · have lower : 52 ≤ m.log2 := (Nat.le_log2 zero).2 full
      omega
    · omega

/-- A power of two moves the greatest digit. -/
theorem log2_mul_two_pow (pos : 0 < m) (k : Nat) : (m * 2 ^ k).log2 = m.log2 + k := by
  induction k with
  | zero => rw [Nat.pow_zero, Nat.mul_one, Nat.add_zero]
  | succ k ih =>
    have nonzero : m * 2 ^ k ≠ 0 := Nat.ne_of_gt (Nat.mul_pos pos (Nat.two_pow_pos k))
    rw [Nat.pow_succ, ← Nat.mul_assoc, Nat.mul_comm _ 2, Nat.log2_two_mul nonzero, ih,
      Nat.add_assoc]

/-- A number is cut at the same place however it is scaled. -/
theorem place_scaled (pos : 0 < m) (k : Nat) : place (m * 2 ^ k) (e - k) = place m e := by
  rw [place_eq, place_eq, log2_mul_two_pow pos]
  omega

/-! ## Cutting a significand -/

/-- A shift divides the significand. -/
theorem mantissa_shift (extended : ExtendedMantissa) (n : Nat) :
    (extended >>> n).mantissa = extended.mantissa / 2 ^ n := by
  induction n with
  | zero => exact (Nat.div_one _).symm
  | succ n ih =>
    change (extended >>> n).mantissa / 2 = _
    rw [ih, Nat.div_div_eq_div_mul, Nat.pow_succ]

/-- The digit after the cut is zero if less than half a unit is cut off. -/
theorem roundBit_shift {n : Nat} (small : 2 * (m % 2 ^ n) < 2 ^ n) :
    (ExtendedMantissa.ofMantissaAndAccuracy m .exact >>> n).roundBit = false := by
  cases n with
  | zero => rfl
  | succ n =>
    change (((ExtendedMantissa.ofMantissaAndAccuracy m .exact) >>> n).mantissa % 2 != 0) = false
    rw [mantissa_shift]
    change (m / 2 ^ n % 2 != 0) = false
    have below : m % 2 ^ (n + 1) < 2 ^ n := by
      rw [Nat.pow_succ] at small ⊢
      omega
    rw [Nat.mod_pow_succ] at below
    have digit : m / 2 ^ n % 2 = 0 := by
      obtain even | odd := Nat.mod_two_eq_zero_or_one (m / 2 ^ n)
      · exact even
      · rw [odd] at below
        omega
    rw [digit]
    rfl

/-- A significand is not raised if the digit after the cut is zero. -/
theorem roundedMantissa_of_roundBit {extended : ExtendedMantissa}
    (digit : extended.roundBit = false) : extended.roundedMantissa = extended.mantissa := by
  obtain ⟨m, roundBit, stickyBit⟩ := extended
  subst digit
  cases stickyBit <;> rfl

/-- A significand is raised by one or not at all. -/
theorem roundedMantissa_eq (extended : ExtendedMantissa) :
    extended.roundedMantissa = extended.mantissa ∨
      extended.roundedMantissa = extended.mantissa + 1 := by
  obtain ⟨m, roundBit, stickyBit⟩ := extended
  cases roundBit with
  | false => exact .inl (roundedMantissa_of_roundBit rfl)
  | true =>
    cases stickyBit with
    | true => exact .inr rfl
    | false =>
      -- On a tie the significand becomes even.
      change m + m % 2 = m ∨ m + m % 2 = m + 1
      omega

/-- What is cut at its place, but not raised, is canonical. -/
theorem canonical_cut (pos : 0 < m) (low : e ≤ place m e) :
    Canonical (m / 2 ^ (place m e - e).toNat) (place m e) := by
  have positive : ∀ n, 0 < 2 ^ n := Nat.two_pow_pos
  have lower : 2 ^ m.log2 ≤ m := Nat.log2_self_le (Nat.ne_of_gt pos)
  have upper : m < 2 ^ (m.log2 + 1) := Nat.lt_log2_self
  rw [place_eq] at low ⊢
  generalize shift : (max (m.log2 + e - 52) (-1074) - e).toNat = n
  have wide : m.log2 + 1 ≤ 53 + n := by omega
  refine ⟨?_, by omega, ?_⟩
  · rw [Nat.div_lt_iff_lt_mul (positive n), ← Nat.pow_add]
    exact Nat.lt_of_lt_of_le upper (Nat.pow_le_pow_right (by omega) wide)
  · by_cases subnormal : m.log2 + e - 52 ≤ -1074
    · exact .inr (by omega)
    · have narrow : 52 + n ≤ m.log2 := by omega
      rw [Nat.le_div_iff_mul_le (positive n), ← Nat.pow_add]
      exact .inl (Nat.le_trans (Nat.pow_le_pow_right (by omega) narrow) lower)

/-! ## Rounding -/

/-- A canonical number is cut nowhere. -/
theorem Canonical.shiftToTargetExponent_eq (canonical : Canonical m e) :
    shiftToTargetExponent .binary64 m e .exact = (.ofMantissaAndAccuracy m .exact, e) := by
  change shiftToExponent m e .exact (place m e) = _
  rw [canonical.place_eq, shiftToExponent, Int.sub_self]
  change (_, e + (0 : Nat)) = _
  rw [Int.natCast_zero, Int.add_zero]
  rfl

/-- Rounding cuts at the place; then the significand, if it was raised to one bit too many, is cut
once more. -/
theorem roundWithAccuracy_eq (low : e ≤ place m e) {q q' : Nat} {e' : Int}
    (cut : (ExtendedMantissa.ofMantissaAndAccuracy m .exact >>>
      (place m e - e).toNat).roundedMantissa = q)
    (again : shiftToTargetExponent .binary64 q (place m e) .exact =
      (.ofMantissaAndAccuracy q' .exact, e')) :
    roundWithAccuracy .binary64 .positive m e .exact = amount q' e' := by
  have first : shiftToTargetExponent .binary64 m e .exact =
      (ExtendedMantissa.ofMantissaAndAccuracy m .exact >>> (place m e - e).toNat, place m e) := by
    change (_, e + ((place m e - e).toNat : Int)) = _
    rw [Int.toNat_of_nonneg (by omega), Int.add_comm, Int.sub_add_cancel]
    rfl
  rw [roundWithAccuracy, first]
  dsimp only
  rw [cut, again]
  dsimp only
  change (if zero : q' = 0 then UnpackedFloat.zero .positive
    else .finite .positive q' e' (Nat.pos_of_ne_zero zero)) = _
  by_cases zero : q' = 0
  · subst zero
    rfl
  · rw [dif_neg zero, amount_of_pos (Nat.pos_of_ne_zero zero)]

/-- Where less than half a unit is cut off, the significand is not raised. -/
theorem round_down (pos : 0 < m) (low : e ≤ place m e)
    (small : 2 * (m % 2 ^ (place m e - e).toNat) < 2 ^ (place m e - e).toNat) :
    roundWithAccuracy .binary64 .positive m e .exact =
      amount (m / 2 ^ (place m e - e).toNat) (place m e) := by
  have kept := roundedMantissa_of_roundBit (roundBit_shift small)
  rw [mantissa_shift] at kept
  exact roundWithAccuracy_eq low kept (canonical_cut pos low).shiftToTargetExponent_eq

/-- What is rounded is canonical, with an exponent at most one more than the place of the cut. -/
theorem exists_amount (pos : 0 < m) (low : e ≤ place m e) :
    ∃ m' e', Canonical m' e' ∧ e' ≤ place m e + 1 ∧
      roundWithAccuracy .binary64 .positive m e .exact = amount m' e' := by
  have cut := canonical_cut pos low
  have raised := roundedMantissa_eq (ExtendedMantissa.ofMantissaAndAccuracy m .exact >>>
    (place m e - e).toNat)
  rw [mantissa_shift] at raised
  generalize rounded : (ExtendedMantissa.ofMantissaAndAccuracy m .exact >>>
    (place m e - e).toNat).roundedMantissa = q at raised
  change q = m / 2 ^ (place m e - e).toNat ∨ q = m / 2 ^ (place m e - e).toNat + 1 at raised
  obtain ⟨upper, least, full⟩ := cut
  by_cases fits : q < 2 ^ 53
  · have canonical : Canonical q (place m e) := ⟨fits, least, full.imp_left (by omega)⟩
    exact ⟨q, place m e, canonical, by omega,
      roundWithAccuracy_eq low rounded canonical.shiftToTargetExponent_eq⟩
  · -- Only the greatest significand is raised to one bit too many.
    obtain rfl : q = 2 ^ 53 := by omega
    have next : place (2 ^ 53) (place m e) = place m e + 1 := by
      rw [place_eq, Nat.log2_two_pow]
      omega
    have again : shiftToTargetExponent .binary64 (2 ^ 53) (place m e) .exact =
        (.ofMantissaAndAccuracy (2 ^ 52) .exact, place m e + 1) := by
      change shiftToExponent (2 ^ 53) (place m e) .exact (place (2 ^ 53) (place m e)) = _
      rw [next, shiftToExponent, Int.add_comm, Int.add_sub_cancel, Int.add_comm]
      rfl
    exact ⟨2 ^ 52, place m e + 1, ⟨by decide, by omega, .inl (Nat.le_refl _)⟩, Int.le_refl _,
      roundWithAccuracy_eq low rounded again⟩

/-! ## Rounding after scaling -/

/-- Scaling a number down to an exponent, which keeps its value. -/
theorem decreaseExponent_eq (m : Nat) (e : Int) (n : Nat) (e' : Int) (scale : (e - e').toNat = n) :
    decreaseExponent m e e' = (m * 2 ^ n, e - n) := by
  rw [decreaseExponent, scale, Nat.shiftLeft_eq]

/-- What needs no cut is kept: it is only scaled to its place. -/
theorem round_exact (pos : 0 < m) (high : place m e ≤ e) :
    UnpackedFloat.round .binary64 .positive m e =
        amount (m * 2 ^ (e - place m e).toNat) (place m e) ∧
      Canonical (m * 2 ^ (e - place m e).toNat) (place m e) := by
  generalize scale : (e - place m e).toNat = n
  have exponent : e - n = place m e := by omega
  have scaled := place_scaled (e := e) pos n
  have positive : 0 < m * 2 ^ n := Nat.mul_pos pos (Nat.two_pow_pos n)
  have low : e - n ≤ place (m * 2 ^ n) (e - n) := by omega
  have none : (place (m * 2 ^ n) (e - n) - (e - n)).toNat = 0 := by omega
  have cut := canonical_cut positive low
  have down := round_down positive low (by rw [none, Nat.pow_zero, Nat.mod_one]; decide)
  rw [none, Nat.pow_zero, Nat.div_one, scaled] at cut down
  refine ⟨?_, cut⟩
  change (match decreaseExponent m e (place m e) with
    | (m', e') => roundWithAccuracy .binary64 .positive m' e' .exact) = _
  rw [decreaseExponent_eq m e n _ scale]
  exact down

/-- What needs a cut is rounded as it is. -/
theorem round_of_low (low : e ≤ place m e) :
    UnpackedFloat.round .binary64 .positive m e =
      roundWithAccuracy .binary64 .positive m e .exact := by
  change (match decreaseExponent m e (place m e) with
    | (m', e') => roundWithAccuracy .binary64 .positive m' e' .exact) = _
  rw [decreaseExponent_eq m e 0 _ (by omega)]
  change roundWithAccuracy .binary64 .positive (m * 2 ^ 0) (e - (0 : Nat)) .exact = _
  rw [Nat.pow_zero, Nat.mul_one, Int.natCast_zero, Int.sub_zero]

/-- Whatever is rounded is canonical, with an exponent at most one more than its place. -/
theorem exists_round (pos : 0 < m) :
    ∃ m' e', Canonical m' e' ∧ e' ≤ place m e + 1 ∧
      UnpackedFloat.round .binary64 .positive m e = amount m' e' := by
  by_cases low : e ≤ place m e
  · rw [round_of_low low]
    exact exists_amount pos low
  · obtain ⟨rounded, canonical⟩ := round_exact pos (Int.le_of_lt (Int.not_le.1 low))
    exact ⟨_, _, canonical, by omega, rounded⟩

end DirectionCentral.Binary64

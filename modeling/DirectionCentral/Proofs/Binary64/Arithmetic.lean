import DirectionCentral.Proofs.Binary64.Encoding

/-!
# Arithmetic in binary64

What sums, differences and products of amounts come to, how amounts compare with powers of two, and
what is left of an amount that is converted to an integer and back. Main statements: a sum has an
exponent at most two above that of its greater operand (`exists_sum`), an operand that is small
enough changes nothing (`sum_of_tiny`), and taking the whole part off an amount is exact and leaves
less than one (`exists_rest`).
-/

namespace DirectionCentral.Binary64

open Float.Model (UnpackedFloat)
open Float.Model.UnpackedFloat

variable {m n : Nat} {e f : Int}

/-! ## Comparison -/

/-- A canonical amount is less than a power of two if its exponent is less than that of the full
significand. -/
theorem compare_two_pow (canonical : Canonical m e) (inner : -1074 < f) :
    UnpackedFloat.compare (amount m e) (amount (2 ^ 52) f) = some .lt ↔ e < f := by
  obtain ⟨upper, least, full⟩ := canonical
  by_cases pos : 0 < m
  · rw [amount_of_pos pos, amount_of_pos (by decide)]
    change some ((compare e f).then (compare m (2 ^ 52))) = some .lt ↔ _
    rw [Option.some.injEq, Ordering.then_eq_lt, Int.compare_eq_lt, Int.compare_eq_eq,
      Nat.compare_eq_lt]
    omega
  · obtain rfl : m = 0 := by omega
    exact iff_of_true rfl (by omega)

/-- A power of two is no more than a canonical amount if the exponent of its full significand is no
more. -/
theorem two_pow_le (canonical : Canonical m e) (inner : -1074 < f) :
    UnpackedFloat.le (amount (2 ^ 52) f) (amount m e) = true ↔ f ≤ e := by
  obtain ⟨upper, least, full⟩ := canonical
  by_cases pos : 0 < m
  · rw [amount_of_pos pos, amount_of_pos (by decide)]
    change ((compare f e).then (compare (2 ^ 52) m)).isLE = true ↔ _
    rw [Ordering.isLE_then_iff_or, Int.compare_eq_lt, Int.compare_eq_eq, Nat.isLE_compare]
    omega
  · obtain rfl : m = 0 := by omega
    refine iff_of_false ?_ (by omega)
    rw [amount_of_pos (by decide)]
    exact Bool.false_ne_true

/-- No amount is less than zero. -/
theorem compare_zero (m : Nat) (e : Int) :
    UnpackedFloat.compare (amount m e) (.zero .positive) ≠ some .lt :=
  amount_cases m e nofun fun _ => nofun

/-- Zero is no more than an amount. -/
theorem zero_le (m : Nat) (e : Int) :
    UnpackedFloat.le (.zero .positive) (amount m e) = true :=
  amount_cases m e rfl fun _ => rfl

/-- An amount is finite. -/
theorem isFinite_amount (m : Nat) (e : Int) : (amount m e).isFinite = true :=
  amount_cases m e rfl fun _ => rfl

/-- The magnitude of an amount. -/
theorem abs_amount (m : Nat) (e : Int) : UnpackedFloat.abs (amount m e) = amount m e :=
  amount_cases m e rfl fun _ => rfl

/-! ## Sums -/

/-- What comes out positive is rounded. -/
theorem normalize_of_pos (pos : 0 < m) :
    normalize .binary64 m e .positive = UnpackedFloat.round .binary64 .positive m e := by
  have sign : compare (m : Int) 0 = .gt := Int.compare_eq_gt.2 (by omega)
  rw [UnpackedFloat.normalize, sign]
  dsimp only
  rw [Int.toNat_natCast]

/-- Nothing is added to an amount. -/
theorem add_zero_left (n : Nat) (f : Int) :
    add .binary64 (.zero .positive) (amount n f) = amount n f :=
  amount_cases n f rfl fun _ => rfl

/-- An amount is added to nothing. -/
theorem add_zero_right (m : Nat) (e : Int) :
    add .binary64 (amount m e) (.zero .positive) = amount m e :=
  amount_cases m e rfl fun _ => rfl

/-- An amount is lost in what is infinite. -/
theorem add_infinity (m : Nat) (e : Int) :
    add .binary64 (amount m e) (.infinity .positive) = .infinity .positive :=
  amount_cases m e rfl fun _ => rfl

/-- A sum is computed at the lesser exponent. -/
theorem add_amount (pos : 0 < m) (pos' : 0 < n) :
    add .binary64 (amount m e) (amount n f) =
      UnpackedFloat.round .binary64 .positive
        (m * 2 ^ (e - min e f).toNat + n * 2 ^ (f - min e f).toNat) (min e f) := by
  have positive : 0 < m * 2 ^ (e - min e f).toNat := Nat.mul_pos pos (Nat.two_pow_pos _)
  rw [← normalize_of_pos (by omega), amount_of_pos pos, amount_of_pos pos', add,
    decreaseExponent_eq m e _ _ rfl, decreaseExponent_eq n f _ _ rfl]
  dsimp only [Sign.apply]
  rw [Int.natCast_add]

/-- The exponent of a sum is at most two above the greater exponent. -/
theorem exists_sum (first : Canonical m e) (second : Canonical n f) :
    ∃ m' e', Canonical m' e' ∧ e' ≤ max e f + 2 ∧
      add .binary64 (amount m e) (amount n f) = amount m' e' := by
  by_cases pos : 0 < m
  · by_cases pos' : 0 < n
    · generalize scale : (max e f - min e f).toNat = k
      have fewer : m * 2 ^ (e - min e f).toNat < 2 ^ 53 * 2 ^ k :=
        Nat.mul_lt_mul_of_lt_of_le first.lt (Nat.pow_le_pow_right (by omega) (by omega))
          (Nat.two_pow_pos k)
      have fewer' : n * 2 ^ (f - min e f).toNat < 2 ^ 53 * 2 ^ k :=
        Nat.mul_lt_mul_of_lt_of_le second.lt (Nat.pow_le_pow_right (by omega) (by omega))
          (Nat.two_pow_pos k)
      have positive : 0 < m * 2 ^ (e - min e f).toNat := Nat.mul_pos pos (Nat.two_pow_pos _)
      rw [add_amount pos pos']
      generalize m * 2 ^ (e - min e f).toNat = left at *
      generalize n * 2 ^ (f - min e f).toNat = right at *
      obtain ⟨m', e', canonical, exponent, rounded⟩ :=
        exists_round (m := left + right) (e := min e f) (by omega)
      have width : (left + right).log2 < 54 + k := by
        rw [Nat.log2_lt (by omega), Nat.pow_add, show 2 ^ 54 = 2 ^ 53 + 2 ^ 53 from rfl,
          Nat.add_mul]
        omega
      have least := first.least
      rw [place_eq] at exponent
      exact ⟨m', e', canonical, by omega, rounded⟩
    · obtain rfl : n = 0 := by omega
      exact ⟨m, e, first, by omega, add_zero_right m e⟩
  · obtain rfl : m = 0 := by omega
    exact ⟨n, f, second, by omega, add_zero_left n f⟩

/-- What is added below the last digit does not move the greatest one. -/
theorem log2_add_mul_two_pow {k : Nat} (below : m < 2 ^ k) (lower : 2 ^ 52 ≤ n)
    (upper : n < 2 ^ 53) : (m + n * 2 ^ k).log2 = 52 + k := by
  have lower : 2 ^ 52 * 2 ^ k ≤ n * 2 ^ k := Nat.mul_le_mul_right _ lower
  have upper : (n + 1) * 2 ^ k ≤ 2 ^ 53 * 2 ^ k := Nat.mul_le_mul_right _ upper
  have positive : 0 < 2 ^ 52 * 2 ^ k := Nat.mul_pos (by decide) (Nat.two_pow_pos k)
  rw [Nat.log2_eq_iff (by omega), show 52 + k + 1 = 53 + k by omega, Nat.pow_add, Nat.pow_add]
  rw [Nat.add_one_mul] at upper
  omega

/-- What is less than half a unit of the other operand changes nothing. -/
theorem sum_of_tiny (tiny : Canonical m e) (canonical : Canonical n f) (apart : e + 54 ≤ f) :
    add .binary64 (amount m e) (amount n f) = amount n f := by
  by_cases pos : 0 < m
  · have least := tiny.least
    have full : 2 ^ 52 ≤ n := canonical.full.resolve_right (by omega)
    have positive : 0 < n := by omega
    have few : m < 2 ^ 53 := tiny.lt
    have lesser : min e f = e := by omega
    obtain ⟨k, rfl⟩ : ∃ k : Nat, f = e + k := ⟨(f - e).toNat, by omega⟩
    have scale : (e + k - e).toNat = k := by omega
    rw [add_amount pos positive, lesser, scale, Int.sub_self, Int.toNat_zero, Nat.pow_zero,
      Nat.mul_one]
    have half : 2 * m < 2 ^ k := by
      have wide : 2 ^ 54 ≤ 2 ^ k := Nat.pow_le_pow_right (by omega) (by omega)
      omega
    have rest : (m + n * 2 ^ k) % 2 ^ k = m := by
      rw [Nat.add_mul_mod_self_right, Nat.mod_eq_of_lt (by omega)]
    have whole : (m + n * 2 ^ k) / 2 ^ k = n := by
      rw [Nat.add_mul_div_right _ _ (Nat.two_pow_pos k), Nat.div_eq_of_lt (by omega), Nat.zero_add]
    have cut : place (m + n * 2 ^ k) e = e + k := by
      rw [place_eq, log2_add_mul_two_pow (by omega) full canonical.lt]
      omega
    have shift : (place (m + n * 2 ^ k) e - e).toNat = k := by omega
    rw [round_of_low (by omega), round_down (by omega) (by omega) (by rwa [shift, rest]), shift,
      whole, cut]
  · obtain rfl : m = 0 := by omega
    exact add_zero_left n f

/-! ## Products -/

/-- A product with a power of two that is not less than one is exact. -/
theorem exists_product (pos : 0 < m) (canonical : Canonical m e) (k : Nat) :
    ∃ m' e', Canonical m' e' ∧ e' ≤ e + k ∧ (-1074 < e → e' = e + k) ∧
      mul .binary64 (amount m e) (amount (2 ^ 52) (k - 52)) = amount m' e' := by
  have positive : 0 < m * 2 ^ 52 := Nat.mul_pos pos (by decide)
  have exponent : e + (k - 52 : Int) = (e + k) - (52 : Nat) := by omega
  have cut := place_scaled (e := e + k) pos 52
  have own : place m e = e := canonical.place_eq
  rw [place_eq] at own
  generalize target : place (m * 2 ^ 52) (e + k - (52 : Nat)) = t at cut
  rw [place_eq] at cut
  have least := canonical.least
  have low : e + k - (52 : Nat) ≤ place (m * 2 ^ 52) (e + k - (52 : Nat)) := by omega
  -- Only the zeros that the product appends are cut off.
  have zeros : m * 2 ^ 52 % 2 ^ (t - (e + k - (52 : Nat))).toNat = 0 :=
    Nat.mod_eq_zero_of_dvd (Dvd.dvd.mul_left (Nat.pow_dvd_pow 2 (by omega)) m)
  have product : mul .binary64 (amount m e) (amount (2 ^ 52) (k - 52)) =
      roundWithAccuracy .binary64 .positive (m * 2 ^ 52) (e + k - (52 : Nat)) .exact := by
    rw [amount_of_pos pos, amount_of_pos (by decide), ← exponent]
    rfl
  have rounded := round_down positive low (by
    rw [target, zeros]
    exact Nat.two_pow_pos _)
  have kept := canonical_cut positive low
  rw [target] at rounded kept
  exact ⟨_, t, kept, by omega, fun _ => by omega, product.trans rounded⟩

/-! ## Whole parts -/

/-- The whole part of an amount. -/
theorem toNat_toUInt64 (few : m < 2 ^ 53) (negative : e < 0) :
    (amount m e).toUInt64.toNat = m / 2 ^ (-e).toNat := by
  have less : m / 2 ^ (-e).toNat < UInt64.size :=
    (Nat.div_le_self ..).trans_lt (few.trans (by decide))
  by_cases pos : 0 < m
  · have cut : roundToInt .positive m e = (m / 2 ^ (-e).toNat : Nat) := by
      rw [roundToInt, decreaseExponent_eq m e 0 0 (by omega)]
      change ((ExtendedMantissa.ofMantissaAndAccuracy (m * 2 ^ 0) .exact >>>
        (0 - (e - (0 : Nat))).toNat).mantissa : Int) = _
      rw [mantissa_shift, Nat.pow_zero, Nat.mul_one, Int.natCast_zero, Int.sub_zero, Int.zero_sub]
      rfl
    rw [amount_of_pos pos]
    change (UInt64.ofNatClamp (roundToInt .positive m e).toNat).toNat = _
    rw [cut, Int.toNat_natCast, UInt64.ofNatClamp, dif_pos less]
    rfl
  · obtain rfl : m = 0 := by omega
    rw [Nat.zero_div]
    rfl

/-- A count is read back as it is, at its place. -/
theorem stored_count (pos : 0 < n) (few : n < 2 ^ 53) :
    stored (UnpackedFloat.normalize .binary64 n 0 .positive) =
      amount (n * 2 ^ (52 - n.log2)) (n.log2 - 52) := by
  have width : n.log2 < 53 := (Nat.log2_lt (by omega)).2 few
  have cut : place n 0 = n.log2 - 52 := by
    rw [place_eq]
    omega
  obtain ⟨rounded, canonical⟩ := round_exact (e := 0) pos (by omega)
  rw [cut, show (0 - (n.log2 - 52 : Int)).toNat = 52 - n.log2 by omega] at rounded canonical
  rw [normalize_of_pos pos, rounded, stored_amount canonical (by omega)]

/-- An amount less a smaller one with the same exponent is exact. -/
theorem sub_amount (less : n < m) (pos : 0 < n) :
    sub .binary64 (amount m e) (amount n e) =
      UnpackedFloat.round .binary64 .positive (m - n) e := by
  rw [← normalize_of_pos (by omega), amount_of_pos (by omega), amount_of_pos pos, sub,
    decreaseExponent_eq m e 0 _ (by omega), decreaseExponent_eq n e 0 _ (by omega)]
  dsimp only [Sign.apply]
  rw [Nat.pow_zero, Nat.mul_one, Nat.mul_one, Int.min_self, Int.natCast_sub (by omega)]

/-- An amount less itself is nothing. -/
theorem sub_self (m : Nat) (e : Int) :
    sub .binary64 (amount m e) (amount m e) = .zero .positive := by
  refine amount_cases m e rfl fun pos => ?_
  rw [sub]
  dsimp only
  rw [Int.sub_self]
  rfl

/-- An amount less nothing is the amount. -/
theorem sub_zero (m : Nat) (e : Int) :
    sub .binary64 (amount m e) (.zero .positive) = amount m e :=
  amount_cases m e rfl fun _ => rfl

/-- Where there is a whole part, the point is within the significand. -/
theorem lt_of_whole {k : Nat} (few : m < 2 ^ 53) (whole : 0 < m / 2 ^ k) : k < 53 :=
  (Nat.pow_lt_pow_iff_right (by decide)).1 ((Nat.div_pos_iff.1 whole).2.trans_lt few)

/-- A whole part that is not zero is read back with the exponent of its amount. -/
theorem stored_whole {k : Nat} (canonical : Canonical m (-k)) (whole : 0 < m / 2 ^ k) :
    stored (UnpackedFloat.normalize .binary64 (m / 2 ^ k : Nat) 0 .positive) =
      amount (m / 2 ^ k * 2 ^ k) (-k) := by
  have few : m < 2 ^ 53 := canonical.lt
  have small : k < 53 := lt_of_whole few whole
  have full : 2 ^ 52 ≤ m := canonical.full.resolve_right (by omega)
  have width : (m / 2 ^ k).log2 = 52 - k := by
    rw [Nat.log2_eq_iff (by omega), Nat.le_div_iff_mul_le (Nat.two_pow_pos k),
      Nat.div_lt_iff_lt_mul (Nat.two_pow_pos k), ← Nat.pow_add, ← Nat.pow_add,
      show 52 - k + k = 52 by omega, show 52 - k + 1 + k = 53 by omega]
    exact ⟨full, few⟩
  have exponent : ((52 - k : Nat) - 52 : Int) = -k := by omega
  rw [stored_count whole ((Nat.div_le_self ..).trans_lt few), width, exponent,
    show 52 - (52 - k) = k by omega]

/-- An amount less its whole part is exact, and less than one. -/
theorem exists_rest (canonical : Canonical m e) (negative : e < 0) :
    ∃ m' e', Canonical m' e' ∧ e' ≤ -53 ∧
      sub .binary64 (amount m e)
        (stored (UnpackedFloat.normalize .binary64 (m / 2 ^ (-e).toNat : Nat) 0 .positive)) =
          amount m' e' := by
  obtain ⟨k, rfl⟩ : ∃ k : Nat, e = -k := ⟨(-e).toNat, by omega⟩
  rw [Int.neg_neg, Int.toNat_natCast]
  have divided : m / 2 ^ k * 2 ^ k + m % 2 ^ k = m := Nat.div_add_mod' m (2 ^ k)
  have rest : m % 2 ^ k < 2 ^ k := Nat.mod_lt _ (Nat.two_pow_pos k)
  have least := canonical.least
  by_cases whole : 0 < m / 2 ^ k
  · have small : k < 53 := lt_of_whole canonical.lt whole
    rw [stored_whole canonical whole]
    obtain zero | fraction := Nat.eq_zero_or_pos (m % 2 ^ k)
    · have same : m / 2 ^ k * 2 ^ k = m := by omega
      rw [same, sub_self]
      exact ⟨0, -1074, canonical_zero, by decide, rfl⟩
    · have taken : 0 < m / 2 ^ k * 2 ^ k := Nat.mul_pos whole (Nat.two_pow_pos k)
      have less : m / 2 ^ k * 2 ^ k < m := (Nat.lt_add_of_pos_right fraction).trans_eq divided
      have left : m - m / 2 ^ k * 2 ^ k = m % 2 ^ k := by omega
      have width : (m % 2 ^ k).log2 < k := (Nat.log2_lt (by omega)).2 rest
      have cut : place (m % 2 ^ k) (-k) ≤ -53 := by
        rw [place_eq]
        omega
      obtain ⟨rounded, canonical⟩ := round_exact (e := -k) fraction (by omega)
      rw [sub_amount less taken, left, rounded]
      exact ⟨_, _, canonical, cut, rfl⟩
  · -- Less than one: there is nothing to take off.
    have zero : m / 2 ^ k = 0 := Nat.eq_zero_of_not_pos whole
    have less : m < 2 ^ k := by
      rw [zero] at divided
      omega
    have small : 53 ≤ k := by
      obtain full | exponent := canonical.full
      · exact (Nat.pow_lt_pow_iff_right (by decide)).1 (full.trans_lt less)
      · omega
    rw [zero]
    exact ⟨m, -k, canonical, by omega, sub_zero m _⟩

end DirectionCentral.Binary64

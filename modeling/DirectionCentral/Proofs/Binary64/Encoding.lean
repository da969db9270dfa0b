import Mathlib
import DirectionCentral.Proofs.Binary64.Rounding

/-!
# Storing and reading binary64

What a float stands for is read off its bits (`reading`). An operation computes on what its operands
stand for, and its result is stored and read back (`stored`). Main statements: what is read of a
float is canonical (`canonical_of_reading`), storing a canonical amount changes nothing
(`stored_amount`), unless its exponent is too large: then it becomes infinite
(`stored_amount_of_large`). What equals zero is one of two floats (`eq_zero_of_beq_zero`).

The whole library is imported for its lemmas on the parts of a stored float: no smaller part of it
brings them.
-/

namespace DirectionCentral.Binary64

open Float.Model (Format UnpackedFloat totalExponent)
open Float.Model.UnpackedFloat

/-- What a float stands for. -/
def reading (x : Float) : UnpackedFloat := x.toModel.unpack

/-- What is read of a result after it was stored. -/
def stored (result : UnpackedFloat) : UnpackedFloat := unpack .binary64 (pack .binary64 result)

variable {m n : Nat} {e f : Int}

/-! ## Storing and reading -/

/-- A sum is stored. -/
theorem reading_add (x y : Float) :
    reading (x + y) = stored (add .binary64 (reading x) (reading y)) := rfl

/-- A difference is stored. -/
theorem reading_sub (x y : Float) :
    reading (x - y) = stored (sub .binary64 (reading x) (reading y)) := rfl

/-- A product is stored. -/
theorem reading_mul (x y : Float) :
    reading (x * y) = stored (mul .binary64 (reading x) (reading y)) := rfl

/-- A magnitude is stored. -/
theorem reading_abs (x : Float) : reading x.abs = stored (abs (reading x)) := rfl

/-- A converted count is stored. -/
theorem reading_toFloat (count : UInt64) :
    reading count.toFloat = stored (normalize .binary64 count.toNat 0 .positive) := rfl

/-- Floats are compared by what they stand for. -/
theorem lt_iff (x y : Float) :
    x < y ↔ (reading x).compare (reading y) = some .lt := by
  change (decide (((reading x).compare (reading y) == some .lt) = true) = true) ↔ _
  rw [decide_eq_true_iff, beq_iff_eq]

/-- Floats are ordered by what they stand for. -/
theorem le_iff (x y : Float) :
    x ≤ y ↔ UnpackedFloat.le (reading x) (reading y) = true := by
  change (decide (UnpackedFloat.le (reading x) (reading y) = true) = true) ↔ _
  rw [decide_eq_true_iff]

/-- What is not a number stays so. -/
theorem stored_notANumber : stored .notANumber = .notANumber := unpack_packedNaN

/-- What is infinite stays so. -/
theorem stored_infinity : stored (.infinity .positive) = .infinity .positive := rfl

/-- Zero stays as it is. -/
theorem stored_zero : stored (.zero .positive) = .zero .positive := unpack_packedZero

/-- A significand of fifty-three bits. -/
theorem log2_of_full (lower : 2 ^ 52 ≤ m) (upper : m < 2 ^ 53) : m.log2 = 52 :=
  (Nat.log2_eq_iff (by omega)).2 ⟨lower, upper⟩

/-- The first bit of a full significand stands before the others. -/
theorem toNat_append_one (mantissa : BitVec 52) :
    (1#1 ++ mantissa).toNat = 2 ^ 52 + mantissa.toNat := by
  have below : mantissa.toNat < 2 ^ 52 := mantissa.isLt
  rw [BitVec.toNat_append, ← Nat.shiftLeft_add_eq_or_of_lt below]
  rfl

/-- A full significand is packed without its first bit, and an exponent that fits beside it. -/
theorem pack_of_full (pos : 0 < m) (lower : 2 ^ 52 ≤ m) (upper : m < 2 ^ 53) (fits : e ≤ 971) :
    pack .binary64 (.finite .positive m e pos) =
      packComponents .binary64 .positive (.ofNat 11 (e + 1023 + 52).toNat) (.ofNat 52 m) := by
  have small : ¬ 2 ^ Format.binary64.exponentBits ≤ (e + Format.binary64.exponentBias +
      Format.binary64.mantissaBitsWithoutImplicit).toNat + 1 := by
    change ¬ 2048 ≤ (e + 1023 + 52).toNat + 1
    omega
  have full : m.log2 + 1 = Format.binary64.mantissaBits := by
    rw [log2_of_full lower upper]
    rfl
  rw [pack, if_neg small, if_pos full]
  rfl

/-- A shorter significand is packed as it is, with the least exponent. -/
theorem pack_of_short (pos : 0 < m) (upper : m < 2 ^ 52) :
    pack .binary64 (.finite .positive m (-1074) pos) =
      packComponents .binary64 .positive 0 (.ofNat 52 m) := by
  have short : m.log2 + 1 ≠ Format.binary64.mantissaBits := by
    have := (Nat.log2_lt (Nat.ne_of_gt pos)).2 upper
    change m.log2 + 1 ≠ 53
    omega
  rw [pack, if_neg (by decide), if_neg short]
  rfl

/-- Fields with an exponent that is not the least or the greatest are read as a full significand. -/
theorem unpack_of_inner (sign : Sign) {exponent : BitVec 11} (mantissa : BitVec 52)
    (nonzero : exponent ≠ 0#11) (finite : exponent ≠ -1#11) :
    unpack .binary64 (packComponents .binary64 sign exponent mantissa) =
      .finite sign (2 ^ 52 + mantissa.toNat) (exponent.toNat - 1075) (by omega) := by
  simp only [unpack, unpackExponent_packComponents, unpackMantissa_packComponents,
    unpackSign_packComponents, Sign.ofBitVec_toBitVec, if_neg finite, if_neg nonzero,
    toNat_append_one]
  rfl

/-- Fields with the least exponent are read as a shorter significand. -/
theorem unpack_of_least (sign : Sign) {mantissa : BitVec 52} (pos : 0 < mantissa.toNat) :
    unpack .binary64 (packComponents .binary64 sign 0#11 mantissa) =
      .finite sign mantissa.toNat (-1074) pos := by
  have nonzero : mantissa ≠ 0#52 := fun zero => by
    rw [zero] at pos
    contradiction
  have least : (0#11 : BitVec 11) ≠ -1#11 := by decide
  simp only [unpack, unpackExponent_packComponents, unpackMantissa_packComponents,
    unpackSign_packComponents, Sign.ofBitVec_toBitVec, if_neg least, if_pos, dif_neg nonzero]
  rfl

/-- An amount whose exponent is not too large stays as it is. -/
theorem stored_amount (canonical : Canonical m e) (fits : e ≤ 971) :
    stored (amount m e) = amount m e := by
  obtain ⟨upper, least, full⟩ := canonical
  by_cases pos : 0 < m
  · rw [amount_of_pos pos, stored]
    by_cases lower : 2 ^ 52 ≤ m
    · have field : (BitVec.ofNat 11 (e + 1023 + 52).toNat).toNat = (e + 1075).toNat := by
        rw [BitVec.toNat_ofNat]
        omega
      have nonzero : BitVec.ofNat 11 (e + 1023 + 52).toNat ≠ 0#11 := fun same => by
        have := field.symm.trans (congrArg BitVec.toNat same)
        change (e + 1075).toNat = 0 at this
        omega
      have finite : BitVec.ofNat 11 (e + 1023 + 52).toNat ≠ -1#11 := fun same => by
        have := field.symm.trans (congrArg BitVec.toNat same)
        change (e + 1075).toNat = 2047 at this
        omega
      rw [pack_of_full pos lower upper fits, unpack_of_inner _ _ nonzero finite]
      congr 1
      · rw [BitVec.toNat_ofNat]
        omega
      · omega
    · have exponent : e = -1074 := full.resolve_left lower
      have short : m < 2 ^ 52 := Nat.not_le.1 lower
      have field : (BitVec.ofNat 52 m).toNat = m := by
        rw [BitVec.toNat_ofNat, Nat.mod_eq_of_lt short]
      subst exponent
      rw [pack_of_short pos short]
      refine (unpack_of_least _ (by rwa [field])).trans ?_
      congr 1
  · obtain rfl : m = 0 := by omega
    exact stored_zero

/-- An amount whose exponent is too large becomes infinite. -/
theorem stored_amount_of_large (canonical : Canonical m e) (large : 972 ≤ e) :
    stored (amount m e) = .infinity .positive := by
  have lower : 2 ^ 52 ≤ m := canonical.full.resolve_right (by omega)
  have greatest : 2 ^ Format.binary64.exponentBits ≤ (e + Format.binary64.exponentBias +
      Format.binary64.mantissaBitsWithoutImplicit).toNat + 1 := by
    change 2048 ≤ (e + 1023 + 52).toNat + 1
    omega
  rw [amount_of_pos (by omega), stored, pack, if_pos greatest]
  exact stored_infinity

/-- Every float is packed of three fields. -/
theorem exists_fields (x : Float) :
    ∃ (sign : Sign) (exponent : BitVec 11) (mantissa : BitVec 52),
      reading x = unpack .binary64 (packComponents .binary64 sign exponent mantissa) := by
  have bits := @packComponents_unpackSign_unpackExponent_unpackMantissa .binary64
    x.toModel.toBits.toBitVec
  exact ⟨_, _, _, congrArg (unpack .binary64) bits.symm⟩

/-- What a float stands for is canonical. -/
theorem canonical_of_reading {x : Float} {sign : Sign} {pos : 0 < m}
    (read : reading x = .finite sign m e pos) : Canonical m e ∧ e ≤ 971 := by
  obtain ⟨sign', exponent, mantissa, fields⟩ := exists_fields x
  have short : mantissa.toNat < 2 ^ 52 := mantissa.isLt
  rw [read] at fields
  by_cases greatest : exponent = -1#11
  · -- Infinite, or not a number.
    rw [unpack] at fields
    simp only [unpackExponent_packComponents, unpackMantissa_packComponents,
      unpackSign_packComponents, if_pos greatest] at fields
    split at fields <;> contradiction
  · by_cases least : exponent = 0#11
    · subst least
      by_cases zero : mantissa = 0#52
      · subst zero
        have zero : unpack .binary64 (packComponents .binary64 sign' 0#11 0#52) = .zero sign' :=
          unpack_packedZero
        rw [zero] at fields
        contradiction
      · have pos : 0 < mantissa.toNat :=
          (BitVec.toNat_pos mantissa).2 ((BitVec.pos_iff_ne_zero mantissa).2 zero)
        rw [unpack_of_least sign' pos] at fields
        cases fields
        exact ⟨⟨by omega, Int.le_refl _, .inr rfl⟩, by decide⟩
    · rw [unpack_of_inner sign' mantissa least greatest] at fields
      cases fields
      have upper : exponent.toNat < 2047 := by
        refine Nat.lt_of_le_of_ne (Nat.le_of_lt_succ exponent.isLt) fun same => greatest ?_
        exact BitVec.eq_of_toNat_eq same
      have lower : 0 < exponent.toNat := by
        refine Nat.pos_of_ne_zero fun same => least (BitVec.eq_of_toNat_eq same)
      exact ⟨⟨by omega, by omega, .inl (by omega)⟩, by omega⟩

/-- The literal zero. -/
theorem reading_zero : reading 0.0 = .zero .positive := rfl

/-- What equals zero stands for a zero. -/
theorem reading_of_beq_zero {x : Float} (zero : (x == 0.0) = true) :
    ∃ sign, reading x = .zero sign := by
  change (UnpackedFloat.compare (reading x) (.zero .positive) == some .eq) = true at zero
  cases read : reading x with
  | zero sign => exact ⟨sign, rfl⟩
  | notANumber => simp [read, UnpackedFloat.compare] at zero
  | infinity sign => cases sign <;> simp [read, UnpackedFloat.compare] at zero
  | finite sign m e pos => cases sign <;> simp [read, UnpackedFloat.compare] at zero

/-- What stands for a zero has no bit but its sign. -/
theorem toBits_of_reading_zero {x : Float} {sign : Sign} (read : reading x = .zero sign) :
    x.toModel.toBits.toBitVec = packComponents .binary64 sign 0#11 0#52 := by
  have bits := @packComponents_unpackSign_unpackExponent_unpackMantissa .binary64
    x.toModel.toBits.toBitVec
  change unpack .binary64 x.toModel.toBits.toBitVec = _ at read
  rw [unpack] at read
  dsimp only at read
  split at read
  · split at read <;> contradiction
  · split at read
    · rename_i least
      split at read
      · rename_i none
        rw [← UnpackedFloat.zero.inj read]
        exact bits.symm.trans (by rw [least, none])
      · contradiction
    · contradiction

/-- There are two zeros. -/
theorem eq_zero_of_beq_zero {x : Float} (zero : (x == 0.0) = true) : x = 0.0 ∨ x = -0.0 := by
  obtain ⟨sign, read⟩ := reading_of_beq_zero zero
  have fields := toBits_of_reading_zero read
  obtain ⟨⟨bits, valid⟩⟩ := x
  cases sign with
  | positive =>
    obtain rfl : bits = 0 := UInt64.toBitVec_inj.1 fields
    exact .inl rfl
  | negative =>
    obtain rfl : bits = 0x8000000000000000 := UInt64.toBitVec_inj.1 fields
    exact .inr rfl

/-- A finite and positive float stands for a canonical amount. -/
theorem exists_reading {x : Float} (finite : x.isFinite = true) (positive : 0.0 < x) :
    ∃ m e, 0 < m ∧ Canonical m e ∧ e ≤ 971 ∧ reading x = amount m e := by
  rw [lt_iff, reading_zero] at positive
  change (reading x).isFinite = true at finite
  cases read : reading x with
  | notANumber => simp [read, UnpackedFloat.isFinite] at finite
  | infinity sign => simp [read, UnpackedFloat.isFinite] at finite
  | zero sign => simp [read, UnpackedFloat.compare] at positive
  | finite sign m e pos =>
    cases sign with
    | negative => simp [read, UnpackedFloat.compare] at positive
    | positive =>
      obtain ⟨canonical, fits⟩ := canonical_of_reading read
      exact ⟨m, e, pos, canonical, fits, (amount_of_pos pos).symm⟩

end DirectionCentral.Binary64

import DirectionCentral.Proofs.Machine.ExactStep
import DirectionCentral.Proofs.Machine.IndexRange

/-!
# Packing and addressing

The fields that are packed into a word are unpacked from it again, the address as far as its 16 bits
go, and a word that is unpacked and packed again has lost the bits that mean nothing and no others
(`testBit_toWord_decode`). The address that a word refers to is the exact sum of address and index
modulo 65536, whatever the sign of the index (`toInt_effectiveAddress_decode`); a sum that wraps at
64 bits has the same low bits (`toInt_addressSum_low`), and the bits that mean nothing have no part
in it. `encode_decode_laws` puts the laws together.
-/

namespace DirectionCentral.Instruction

/-- Unpacking what was packed from fields returns the fields. -/
theorem decode_toWord (i : Instruction) : decode i.toWord = i := by
  rw [toWord, decode_encode, UInt16.toUInt16_toUInt32]

/-- Unpacking and packing a word again clears bits 16 and 18 to 23 and keeps the others. -/
theorem testBit_toWord_decode (word : Word) (i : Nat) :
    (decode word).toWord.toNat.testBit i =
      (word.toNat.testBit i && !decide (i = 16 ∨ 18 ≤ i ∧ i ≤ 23)) := by
  rw [toWord_decode, UInt32.toNat_and, Nat.testBit_and]
  by_cases bound : i < 32
  · have mask : ∀ i < 32, (0xFF02FFFF : Word).toNat.testBit i =
        !decide (i = 16 ∨ 18 ≤ i ∧ i ≤ 23) := by decide
    rw [mask i bound]
  · have small : word.toNat < 2 ^ i :=
      Nat.lt_of_lt_of_le word.toNat_lt (Nat.pow_le_pow_right (by decide) (Nat.le_of_not_lt bound))
    rw [Nat.testBit_lt_two_pow small, Bool.false_and, Bool.false_and]

/-- The address that a word refers to is the remainder by 65536 of the exact sum of its address and
the index if it is indexed, and its address otherwise. -/
theorem toInt_effectiveAddress_decode (word : Word) (index : Int64) :
    (((decode word).effectiveAddress index).toNat : Int) =
      if (decode word).indexed then ((decode word).address.toNat + index.toInt) % 65536
      else (decode word).address.toNat := by
  rw [toNat_effectiveAddress, Reading.effectiveAddressOf, ← indexed_eq_indexedOf,
    ← toNat_address]
  split
  · exact Int.toNat_of_nonneg (Int.emod_nonneg _ (by decide))
  · rfl

/-- The low 16 bits of the sum of address and index are the remainder of the exact sum, also where
the sum wraps at 64 bits. -/
theorem toInt_addressSum_low (i : Instruction) (index : Int64) :
    ((i.addressSum index).toUInt64.toUInt16.toNat : Int) =
      (i.address.toNat + index.toInt) % 65536 := by
  have refers := toInt_effectiveAddress_decode { i with indexed := true }.toWord index
  rwa [decode_toWord, effectiveAddress_eq_addressSum rfl, if_pos rfl] at refers

/-- The laws of packing and addressing. Unpacking a packed word returns the operation byte, the
remainder of the address by 65536 and the index flag; the word refers to the remainder of the exact
sum of address and index by 65536 if it is indexed, and to the remainder of the address otherwise.
The low 16 bits of the sum that wraps at 64 bits are that remainder of the exact sum.
Packing an unpacked word clears bits 16 and 18 to 23, and both words refer to the same address. -/
theorem encode_decode_laws (code : UInt8) (address word : Word) (indexed : Bool) (index : Int64) :
    let packed := encode code address indexed
    let fields := decode word
    let repacked := encode fields.code fields.address.toUInt32 fields.indexed
    (decode packed).code = code ∧ (decode packed).address.toNat = address.toNat % 65536 ∧
      (decode packed).indexed = indexed ∧
      (((decode packed).effectiveAddress index).toNat : Int) =
        (if indexed then (address.toNat + index.toInt) % 65536 else address.toNat % 65536) ∧
      (((decode packed).addressSum index).toUInt64.toUInt16.toNat : Int) =
        (address.toNat + index.toInt) % 65536 ∧
      (∀ i, repacked.toNat.testBit i =
        (word.toNat.testBit i && !decide (i = 16 ∨ 18 ≤ i ∧ i ≤ 23))) ∧
      (decode repacked).effectiveAddress index = (decode word).effectiveAddress index := by
  intro packed fields repacked
  have unpacked : decode packed = ⟨code, address.toUInt16, indexed⟩ := decode_encode ..
  have low : address.toUInt16.toNat = address.toNat % 65536 := UInt32.toNat_toUInt16 address
  have whole : ((address.toNat % 65536 : Nat) + index.toInt) % 65536 =
      (address.toNat + index.toInt) % 65536 := by
    rw [Int.natCast_emod]
    exact Int.emod_add_emod ..
  refine ⟨?_, ?_, ?_, ?_, ?_, testBit_toWord_decode word, ?_⟩
  · rw [unpacked]
  · rw [unpacked, low]
  · rw [unpacked]
  · rw [toInt_effectiveAddress_decode, unpacked, low, whole]
    rfl
  · rw [toInt_addressSum_low, unpacked, low, whole]
  · rw [show repacked = fields.toWord from rfl, decode_toWord]

end DirectionCentral.Instruction

import Mathlib.Data.Nat.Bitwise
import Mathlib.Tactic.IntervalCases
import DirectionCentral.Instruction

/-!
# The fields of a word

Where the fields of an instruction stand in its word, bit by bit (`bit_encode`). Encoding and
decoding are inverse to each other up to the bits that mean nothing: decoding what was encoded
returns the fields (`decode_encode`), and encoding what was decoded clears the other bits
(`toWord_decode`). The byte of an operation is the one that the numbering gives its mnemonic
(`Operation.exists_named_iff`).
-/

namespace DirectionCentral.Instruction

/-- Words with the same bits are the same. -/
theorem word_ext {v w : Word} (bits : ∀ i < 32, v.toBitVec.getLsbD i = w.toBitVec.getLsbD i) :
    v = w :=
  UInt32.toBitVec_inj.1 (BitVec.eq_of_getLsbD_eq bits)

/-- The operation byte is in bits 31 to 24, the index flag in bit 17, the address in bits 15 to 0,
and the other bits are zero. -/
theorem bit_encode (code : UInt8) (address : Word) (indexed : Bool) {i : Nat} (bound : i < 32) :
    (encode code address indexed).toBitVec.getLsbD i =
      if 24 ≤ i then code.toBitVec.getLsbD (i - 24)
      else if i = 17 then indexed
      else decide (i < 16) && address.toBitVec.getLsbD i := by
  cases indexed <;> interval_cases i <;> simp [encode, addressMask, indexFlag]

/-- The operation byte is the high byte. -/
theorem bit_code (word : Word) {i : Nat} (bound : i < 8) :
    (decode word).code.toBitVec.getLsbD i = word.toBitVec.getLsbD (24 + i) := by
  simp [decode, bound]

/-- The address is the low half. -/
theorem bit_address (word : Word) {i : Nat} (bound : i < 16) :
    (decode word).address.toBitVec.getLsbD i = word.toBitVec.getLsbD i := by
  simp [decode, bound]

/-- The index flag is bit 17. -/
theorem indexed_decode (word : Word) : (decode word).indexed = word.toBitVec.getLsbD 17 := by
  have flag : (word &&& indexFlag).toNat = (word.toNat.testBit 17).toNat * 2 ^ 17 := by
    rw [UInt32.toNat_and]
    exact Nat.and_two_pow word.toNat 17
  change (word &&& indexFlag != 0) = word.toNat.testBit 17
  cases bit : word.toNat.testBit 17 with
  | false =>
    rw [bit] at flag
    have none : word &&& indexFlag = 0 := UInt32.toNat.inj (by simpa using flag)
    simp [none]
  | true =>
    rw [bit] at flag
    have some : word &&& indexFlag ≠ 0 := fun none => by simp [none] at flag
    simp [some]

/-- The increment is the high byte of the address field. -/
theorem toNat_increment (i : Instruction) : i.increment.toNat = i.address.toNat / 256 := by
  have := i.address.toNat_lt
  simp only [increment, UInt16.toNat_toUInt8, UInt16.toNat_shiftRight]
  simp [Nat.shiftRight_eq_div_pow]
  omega

/-- The limit is the low byte of the address field. -/
theorem toNat_limit (i : Instruction) : i.limit.toNat = i.address.toNat % 256 := by
  simp [limit]

/-- Decoding what was encoded returns the fields. -/
theorem decode_encode (code : UInt8) (address : Word) (indexed : Bool) :
    decode (encode code address indexed) = ⟨code, address.toUInt16, indexed⟩ := by
  have codes : (decode (encode code address indexed)).code = code := by
    apply UInt8.toBitVec_inj.1
    apply BitVec.eq_of_getLsbD_eq
    intro i bound
    rw [bit_code _ bound, bit_encode _ _ _ (by omega), if_pos (by omega), Nat.add_sub_cancel_left]
  have addresses : (decode (encode code address indexed)).address = address.toUInt16 := by
    apply UInt16.toBitVec_inj.1
    apply BitVec.eq_of_getLsbD_eq
    intro i bound
    rw [bit_address _ bound, bit_encode _ _ _ (by omega), if_neg (by omega), if_neg (by omega)]
    simp [bound]
  have flags : (decode (encode code address indexed)).indexed = indexed := by
    rw [indexed_decode, bit_encode _ _ _ (by omega), if_neg (by omega), if_pos rfl]
  calc decode (encode code address indexed)
    _ = ⟨(decode (encode code address indexed)).code,
          (decode (encode code address indexed)).address,
          (decode (encode code address indexed)).indexed⟩ := rfl
    _ = ⟨code, address.toUInt16, indexed⟩ := by rw [codes, addresses, flags]

/-- Bits 16 and 18 to 23 of an encoded word are zero. -/
theorem encode_unused (code : UInt8) (address : Word) (indexed : Bool) :
    encode code address indexed &&& 0x00FD0000 = 0 := by
  apply word_ext
  intro i bound
  rw [UInt32.toBitVec_and, BitVec.getLsbD_and, bit_encode _ _ _ bound]
  interval_cases i <;> simp

/-- An encoded word has no other bits than those of its fields. -/
theorem encode_mask (code : UInt8) (address : Word) (indexed : Bool) :
    encode code address indexed &&& 0xFF02FFFF = encode code address indexed := by
  apply word_ext
  intro i bound
  rw [UInt32.toBitVec_and, BitVec.getLsbD_and, bit_encode _ _ _ bound]
  interval_cases i <;> simp

/-- Encoding what was decoded clears bits 16 and 18 to 23. -/
theorem toWord_decode (word : Word) : (decode word).toWord = word &&& 0xFF02FFFF := by
  apply word_ext
  intro i bound
  have mask : ∀ i < 32, (0xFF02FFFF : Word).toBitVec.getLsbD i =
      decide (24 ≤ i ∨ i = 17 ∨ i < 16) := by decide
  rw [toWord, bit_encode _ _ _ bound, UInt32.toBitVec_and, BitVec.getLsbD_and, mask i bound,
    indexed_decode]
  split
  · rename_i high
    rw [bit_code _ (by omega), Nat.add_sub_cancel' high]
    simp [high]
  · rename_i low
    split
    · rename_i flag
      simp [flag]
    · rename_i other
      by_cases half : i < 16
      · rw [UInt16.toBitVec_toUInt32, BitVec.getLsbD_setWidth, bit_address word half]
        simp [half, bound]
      · simp [low, other, half]

/-- Encoding what was decoded returns a word whose bits 16 and 18 to 23 are zero. -/
theorem toWord_decode_of_unused {word : Word} (unused : word &&& 0x00FD0000 = 0) :
    (decode word).toWord = word := by
  have masks : ∀ i < 32, (0xFF02FFFF : Word).toBitVec.getLsbD i =
      !(0x00FD0000 : Word).toBitVec.getLsbD i := by decide
  rw [toWord_decode]
  apply word_ext
  intro i bound
  have zero : (word &&& 0x00FD0000).toBitVec.getLsbD i = false := by simp [unused]
  rw [UInt32.toBitVec_and, BitVec.getLsbD_and] at zero ⊢
  rw [masks i bound]
  cases bit : word.toBitVec.getLsbD i with
  | false => rfl
  | true =>
    rw [bit, Bool.true_and] at zero
    rw [zero]
    rfl

/-- An address filled into a word without one is encoded with it. -/
theorem encode_fill (code : UInt8) (address : UInt16) (indexed : Bool) :
    encode code 0 indexed &&& ~~~addressMask ||| address.toUInt32 =
      encode code address.toUInt32 indexed := by
  apply word_ext
  intro i bound
  rw [UInt32.toBitVec_or, BitVec.getLsbD_or, UInt32.toBitVec_and, BitVec.getLsbD_and,
    bit_encode _ _ _ bound, bit_encode _ _ _ bound]
  interval_cases i <;> simp [addressMask]

end DirectionCentral.Instruction

namespace DirectionCentral.Operation

/-- The numbering of the operations: each mnemonic with the byte that stands for it in a word. -/
def numbering : List (String × UInt8) :=
  [("HLT", 0x00), ("LDA", 0x01), ("STO", 0x02), ("ADD", 0x03), ("SUB", 0x04), ("MPY", 0x05),
    ("DVH", 0x06), ("TRA", 0x10), ("TNZ", 0x11), ("TMI", 0x12), ("TSX", 0x13), ("TIX", 0x14),
    ("TXI", 0x15)]

/-- The numbering has every operation, once. -/
theorem numbering_eq : numbering = all.map fun op => (op.mnemonic, op.byte) := rfl

/-- A text names an operation just if it is the mnemonic in letters of either case. -/
theorem ofMnemonic?_eq_some_iff {name : List Char} {op : Operation} :
    ofMnemonic? name = some op ↔ Text.sameLetters op.mnemonic.toList name = true := by
  have distinct : ∀ op other : Operation,
      Text.sameLetters op.mnemonic.toList other.mnemonic.toList = true → op = other := by
    intro op other
    cases op <;> cases other <;> decide
  have matched (other : Operation) (found : ofMnemonic? name = some other) :
      Text.sameLetters other.mnemonic.toList name = true :=
    List.find?_some (p := fun op : Operation => Text.sameLetters op.mnemonic.toList name) found
  refine ⟨matched op, fun same => ?_⟩
  cases found : ofMnemonic? name with
  | none =>
    have missing := List.find?_eq_none.1 found op (mem_all op)
    exact absurd same missing
  | some other =>
    have also := matched other found
    simp only [Text.sameLetters, beq_iff_eq] at same also
    rw [distinct other op (by simp [Text.sameLetters, same, also])]

/-- A text names the operation that a byte stands for just if the numbering pairs the byte with the
text, in letters of either case. -/
theorem exists_named_iff {name : List Char} {byte : UInt8} :
    (∃ op, ofMnemonic? name = some op ∧ ofByte? byte = some op) ↔
      ∃ mnemonic, (mnemonic, byte) ∈ numbering ∧
        Text.sameLetters mnemonic.toList name = true := by
  simp only [numbering_eq, List.mem_map, Prod.mk.injEq, ofMnemonic?_eq_some_iff,
    ofByte?_eq_some_iff]
  constructor
  · rintro ⟨op, same, stands⟩
    exact ⟨op.mnemonic, ⟨op, mem_all op, rfl, stands⟩, same⟩
  · rintro ⟨_, ⟨op, -, rfl, stands⟩, same⟩
    exact ⟨op, same, stands⟩

end DirectionCentral.Operation

import DirectionCentral.Word
import DirectionCentral.Text.Digits
import DirectionCentral.Text.UpperCase

/-!
# Instruction words

An instruction is one word: the operation in bits 31 to 24, a flag for indexed addressing in bit 17
and an address in bits 15 to 0. The other bits mean nothing. Every word decodes; whether its
operation byte names one of the thirteen operations is a question of its own
(`Instruction.operation?`).
-/

namespace DirectionCentral

/-- The operations, under their mnemonics. -/
inductive Operation where
  /-- Halt until reset. -/
  | hlt
  /-- Load the accumulator from the cell. -/
  | lda
  /-- Store the accumulator in the cell. -/
  | sto
  /-- Add the cell to the accumulator. -/
  | add
  /-- Subtract the cell from the accumulator. -/
  | sub
  /-- Multiply the accumulator by the cell. -/
  | mpy
  /-- Divide the accumulator by the cell, or saturate it. -/
  | dvh
  /-- Transfer always. -/
  | tra
  /-- Transfer if the accumulator is not zero. -/
  | tnz
  /-- Transfer if the accumulator is negative. -/
  | tmi
  /-- Save the address of the next instruction in the index register and transfer. -/
  | tsx
  /-- Count the index register down and transfer while it is positive. -/
  | tix
  /-- Count the index register up and transfer while it is within a limit. -/
  | txi
deriving DecidableEq

namespace Operation

/-- The operations in the order of their bytes. -/
def all : List Operation :=
  [.hlt, .lda, .sto, .add, .sub, .mpy, .dvh, .tra, .tnz, .tmi, .tsx, .tix, .txi]

/-- The byte that stands for an operation in a word. -/
def byte : Operation → UInt8
  | hlt => 0x00
  | lda => 0x01
  | sto => 0x02
  | add => 0x03
  | sub => 0x04
  | mpy => 0x05
  | dvh => 0x06
  | tra => 0x10
  | tnz => 0x11
  | tmi => 0x12
  | tsx => 0x13
  | tix => 0x14
  | txi => 0x15

/-- The name of an operation in the assembly language. -/
def mnemonic : Operation → String
  | hlt => "HLT"
  | lda => "LDA"
  | sto => "STO"
  | add => "ADD"
  | sub => "SUB"
  | mpy => "MPY"
  | dvh => "DVH"
  | tra => "TRA"
  | tnz => "TNZ"
  | tmi => "TMI"
  | tsx => "TSX"
  | tix => "TIX"
  | txi => "TXI"

/-- The operation that a byte stands for. -/
def ofByte? (byte : UInt8) : Option Operation := all.find? (·.byte == byte)

/-- The operation with the given name, in ASCII letters of either case. -/
def ofMnemonic? (name : List Char) : Option Operation :=
  all.find? fun op => Text.sameLetters op.mnemonic.toList name

/-- Whether an operation refers to its address; only halting does not. -/
def takesAddress (op : Operation) : Bool := op != .hlt

/-- Every operation is listed. -/
theorem mem_all (op : Operation) : op ∈ all := by cases op <;> decide

/-- A byte stands for an operation just if it is that operation's byte. -/
theorem ofByte?_eq_some_iff {byte : UInt8} {op : Operation} :
    ofByte? byte = some op ↔ op.byte = byte := by
  constructor
  · intro h
    simpa using List.find?_some h
  · rintro rfl
    cases op <;> decide

/-- The name of an operation is read as that operation. -/
theorem ofMnemonic?_mnemonic (op : Operation) : ofMnemonic? op.mnemonic.toList = some op := by
  cases op <;> decide

end Operation

/-- The fields of an instruction word. -/
structure Instruction where
  /-- The operation byte, which need not stand for an operation. -/
  code : UInt8
  /-- The address before indexing. -/
  address : UInt16
  /-- Whether the index register is added to the address. -/
  indexed : Bool
deriving DecidableEq

namespace Instruction

/-- The flag for indexed addressing. -/
def indexFlag : Word := 0x20000

/-- The part of a word that holds the address. -/
def addressMask : Word := 0xFFFF

/-- The word with the given fields; of the address the low 16 bits count. -/
def encode (code : UInt8) (address : Word) (indexed : Bool) : Word :=
  code.toUInt32 <<< 24 ||| address &&& addressMask ||| if indexed then indexFlag else 0

/-- The word of an operation with an address. -/
def encodeOperation (op : Operation) (address : Word) (indexed : Bool) : Word :=
  encode op.byte address indexed

/-- The fields of a word. -/
def decode (word : Word) : Instruction where
  code := (word >>> 24).toUInt8
  address := word.toUInt16
  indexed := word &&& indexFlag != 0

/-- The word with these fields and no other bits. -/
def toWord (i : Instruction) : Word := encode i.code i.address.toUInt32 i.indexed

/-- The operation that the word performs, if its byte stands for one. -/
def operation? (i : Instruction) : Option Operation := Operation.ofByte? i.code

/-- The high byte of the address, which `TXI` adds to the index register. -/
def increment (i : Instruction) : UInt8 := (i.address >>> 8).toUInt8

/-- The low byte of the address, which `TXI` compares the index register with. -/
def limit (i : Instruction) : UInt8 := i.address.toUInt8

/-- The address that an instruction refers to: its own, and if it is indexed the index register
added to it modulo 65536. -/
def effectiveAddress (i : Instruction) (index : Int64) : UInt16 :=
  if i.indexed then i.address + index.toUInt64.toUInt16 else i.address

/-- The word that halts, which takes the place of a fetch past the end of memory. -/
def haltWord : Word := 0

/-- The halting word decodes to the halting operation. -/
theorem operation?_haltWord : (decode haltWord).operation? = some .hlt := by decide

end Instruction

end DirectionCentral

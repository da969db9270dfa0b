import DirectionCentral.Text.Digits

/-!
# Diagnostics

Why a machine stopped otherwise than by its halting instruction.
-/

namespace DirectionCentral

/-- Why a machine stopped otherwise than by its halting instruction. -/
inductive Diagnostic where
  /-- The next address is not one of memory's. -/
  | endOfMemory (location : UInt64)
  /-- The byte of the word at an address stands for no operation. -/
  | unknownOperation (code : UInt8) (location : UInt64)
deriving DecidableEq

namespace Diagnostic

/-- What is said of a byte that stands for no operation. -/
def unknownByteText (code : UInt8) : String :=
  "unknown opcode: 0x" ++ String.ofList (Text.hexadecimal 2 code.toNat)

/-- The diagnostic in words. -/
def text : Diagnostic → String
  | endOfMemory location => s!"program counter {location.toNat} reached end of memory"
  | unknownOperation code location => s!"{unknownByteText code} at {location.toNat}"

end Diagnostic

end DirectionCentral

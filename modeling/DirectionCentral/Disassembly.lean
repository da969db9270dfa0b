import DirectionCentral.Instruction
import DirectionCentral.Memory
import DirectionCentral.Text.Lines

/-!
# Disassembly

The text of a word in the notation of the assembly language. A word without an operation is shown
with question marks and its byte. A listing gives a line to each word: address, text, raw word.
-/

namespace DirectionCentral.Disassembly

/-- The text of a word: bare `HLT` for the zero fields, two numbers for `TXI`, an address for the
others, and `,X` after it if the word is indexed. -/
def wordChars (word : Word) : List Char :=
  let i := Instruction.decode word
  let suffix := if i.indexed then [',', 'X'] else []
  let address := Text.decimal i.address.toNat
  match i.operation? with
  | some .hlt =>
    if i.address = 0 ∧ i.indexed = false then "HLT".toList
    else "HLT ".toList ++ address ++ suffix
  | some .txi =>
    "TXI ".toList ++ Text.decimal i.increment.toNat ++ ',' :: Text.decimal i.limit.toNat ++ suffix
  | some op => op.mnemonic.toList ++ ' ' :: address ++ suffix
  | none => "??? 0x".toList ++ Text.hexadecimal 2 i.code.toNat ++ ' ' :: address ++ suffix

/-- The text of a word. -/
def wordText (word : Word) : String := String.ofList (wordChars word)

/-- The line of a listing for a word at an address. -/
def lineChars (address : Nat) (word : Word) : List Char :=
  Text.zeroPadded 5 address ++ [':', ' '] ++ Text.padEnd 16 (wordChars word) ++ [' ', ';', ' '] ++
    Text.hexadecimal 8 word.toNat

/-- The lines that every listing begins with. -/
def header : List (List Char) :=
  ["; FSQ-7 Disassembly".toList, "; -----------------".toList, []]

/-- The lines of a listing of words from an address on. -/
def listingLines (words : List Word) (origin : Nat) : List (List Char) :=
  header ++ words.zipIdx.map fun (word, offset) => lineChars (origin + offset) word

/-- The listing of words from an address on, each line ended by a newline. -/
def listing (words : List Word) (origin : Nat) : String :=
  String.ofList (Text.unlines (listingLines words origin))

/-- The texts of the cells from an address on, at most `count` of them, with their addresses. -/
def ofMemory (m : Memory) (start count : UInt64) : List (UInt64 × String) :=
  (m.dump start count).map fun (address, word) => (address, wordText word)

/-- The line that a trace shows for a word performed at an address. -/
def traceLine (location : Nat) (word : Word) (effectiveAddress : Nat) (accumulator index : Int) :
    String :=
  String.ofList
    (Text.zeroPadded 5 location ++ [':', ' '] ++ Text.padEnd 14 (wordChars word) ++
      " ea=".toList ++ Text.zeroPadded 5 effectiveAddress ++
      " A=".toList ++ Text.signedDecimal accumulator ++
      " I=".toList ++ Text.signedDecimal index)

end DirectionCentral.Disassembly

import DirectionCentral.Machine

/-!
# Demonstration programs

Six short programs with the words they leave behind when they have run. The index register has no
loading instruction: a program gives it the value `n` by `TXI n,0` after a reset, which adds `n` to
zero and does not transfer, because `n` is greater than the limit 0.
-/

namespace DirectionCentral

/-- A program with the words that it leaves in cells. -/
structure Demonstration where
  /-- The name by which it is called. -/
  name : String
  /-- What it shows. -/
  description : String
  /-- The program. -/
  image : Image
  /-- Cells and their words after the run. -/
  expected : List (UInt64 × Word)

/-- A cell that holds another word than expected. -/
structure Mismatch where
  /-- The address of the cell. -/
  address : UInt64
  /-- The word that was expected. -/
  expected : Word
  /-- The word that it holds. -/
  actual : Word
deriving DecidableEq

namespace Demonstration

/-- The word of an operation with a direct address. -/
def direct (op : Operation) (address : Word) : Word := Instruction.encodeOperation op address false

/-- The word of an operation with an indexed address. -/
def indexed (op : Operation) (address : Word) : Word := Instruction.encodeOperation op address true

/-- The word of `TXI` with an increment and a limit. -/
def countUpWord (increment limit : UInt8) : Word :=
  direct .txi (increment.toUInt32 <<< 8 ||| limit.toUInt32)

/-- Sum a table by a counting loop. The index runs from the length of the table down to one, so the
loop adds the ten cells after the first: the sum is 270, without the 5 in the first cell. -/
def arraySum : Demonstration where
  name := "array-sum"
  description := "Indexed LDA/ADD/STO over [5, 10, .., 50] with TIX loop control"
  image := ⟨[
    ⟨0, [countUpWord 10 0, direct .lda 200, indexed .add 100, direct .sto 200, direct .tix 1,
      direct .hlt 0]⟩,
    ⟨100, [5, 10, 15, 20, 25, 30, 35, 40, 45, 50]⟩,
    ⟨200, [0]⟩]⟩
  expected := [(200, 270)]

/-- Multiply 7 by 6 by adding it six times. -/
def multiply : Demonstration where
  name := "multiply"
  description := "Multiply by repeated addition, counting down with TIX"
  image := ⟨[
    ⟨0, [countUpWord 6 0, direct .add 200, direct .tix 1, direct .sto 201, direct .hlt 0]⟩,
    ⟨200, [7]⟩]⟩
  expected := [(201, 42)]

/-- Square 12 in a subroutine, which returns by `TRA 0,X` to the address that `TSX` saved. -/
def subroutine : Demonstration where
  name := "subroutine"
  description := "TSX call and indexed TRA return computing 12 squared"
  image := ⟨[
    ⟨0, [direct .lda 200, direct .tsx 10, direct .sto 201, direct .hlt 0]⟩,
    ⟨10, [direct .mpy 200, indexed .tra 0]⟩,
    ⟨200, [12]⟩]⟩
  expected := [(201, 144)]

/-- Copy eight words from cell 100 on to cell 120 on, the last one first. -/
def blockCopy : Demonstration where
  name := "block-copy"
  description := "Indexed LDA/STO pair moving an eight-word table"
  image := ⟨[
    ⟨0, [countUpWord 8 0, indexed .lda 99, indexed .sto 119, direct .tix 1, direct .hlt 0]⟩,
    ⟨100, [3, 1, 4, 1, 5, 9, 2, 6]⟩]⟩
  expected := [(120, 3), (121, 1), (122, 4), (123, 1), (124, 5), (125, 9), (126, 2), (127, 6)]

/-- Count the index up from 1 to 5 and add 3 each time. `TXI` transfers to its own address field,
`256 * 1 + 5`, so the body stands at 261. -/
def countUp : Demonstration where
  name := "count-up"
  description := "TXI incrementing I from 1 to 5 and branching to its packed address"
  image := ⟨[
    ⟨0, [countUpWord 1 5, direct .sto 300, direct .hlt 0]⟩,
    ⟨261, [direct .add 301, direct .tra 0]⟩,
    ⟨301, [3]⟩]⟩
  expected := [(300, 15)]

/-- Divide 100 by zero, which saturates, and by 7. -/
def division : Demonstration where
  name := "division"
  description := "DVH by zero saturating to 0x7FFFFFFF, then 100 / 7"
  image := ⟨[
    ⟨0, [direct .lda 200, direct .dvh 201, direct .sto 202, direct .lda 200, direct .dvh 203,
      direct .sto 204, direct .hlt 0]⟩,
    ⟨200, [100, 0]⟩,
    ⟨203, [7]⟩]⟩
  expected := [(202, 0x7FFFFFFF), (204, 14)]

/-- The demonstration programs in the order in which they are shown. -/
def all : List Demonstration := [arraySum, multiply, subroutine, blockCopy, countUp, division]

/-- The program with the given name, in ASCII letters of either case. -/
def byName? (name : String) : Option Demonstration :=
  all.find? fun demonstration => Text.sameLetters demonstration.name.toList name.toList

/-- How many instructions a demonstration may perform. -/
def budget : Nat := 10000

/-- A machine that is reset and has the program loaded. -/
def prepare (d : Demonstration) (m : Machine) : Machine := m.reset.loadImage d.image

/-- Reset a machine, load the program and run it. -/
def runOn (d : Demonstration) (m : Machine) (budget : Nat) : Machine := (d.prepare m).run budget

/-- Run the program on a new machine of standard size. -/
def execute (d : Demonstration) : Machine := d.runOn (.ofConfiguration {}) budget

/-- The cells whose words differ from those expected. -/
def mismatches (d : Demonstration) (m : Machine) : List Mismatch :=
  d.expected.filterMap fun (address, expected) =>
    let actual := m.memory.read address
    if actual = expected then none else some ⟨address, expected, actual⟩

end Demonstration

end DirectionCentral

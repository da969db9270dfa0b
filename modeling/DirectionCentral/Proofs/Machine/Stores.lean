import Mathlib.Algebra.Group.Nat.Defs
import DirectionCentral.Proofs.Machine.Loading

/-!
# Stores and the instructions beside them

What a memory holds after stores: the last word in each cell that was stored in, and what it held in
every other one. A program stays in memory as long as nothing is stored over it: `Carries` says that
the instructions of a listing are in their cells, and stores elsewhere leave them there.
-/

namespace DirectionCentral

/-- Different numbers are addresses of different cells. -/
theorem ofNat_ne_ofNat {i j : Nat} (different : i ≠ j) (left : i < 2 ^ 64) (right : j < 2 ^ 64) :
    UInt64.ofNat i ≠ .ofNat j := by
  intro same
  rw [UInt64.ofNat_eq_iff_mod_eq_toNat, UInt64.toNat_ofNat_of_lt' right, Nat.mod_eq_of_lt left]
    at same
  exact different same

namespace Memory

variable {memory : Memory}

/-! ## Single stores -/

/-- A cell holds the word that was stored in it last. -/
theorem read_write_self {a : UInt64} (inside : a.toNat < memory.size) (word : Word) :
    (memory.write a word).read a = word := by
  rw [read_write, if_pos ⟨rfl, inside⟩]

/-- A store in another cell leaves what a cell holds. -/
theorem read_write_of_ne {a b : UInt64} (other : a ≠ b) (word : Word) :
    (memory.write a word).read b = memory.read b := by
  rw [read_write, if_neg fun hit => other hit.1]

/-- Of two stores in a cell the second one counts. -/
theorem write_write (memory : Memory) (a : UInt64) (v w : Word) :
    (memory.write a v).write a w = memory.write a w := by
  simp [write]

/-- Stores in different cells may be made in either order. -/
theorem write_comm (memory : Memory) {a b : UInt64} (other : a ≠ b) (v w : Word) :
    (memory.write a v).write b w = (memory.write b w).write a v := by
  have different : a.toNat ≠ b.toNat := fun same => other (UInt64.toNat_inj.1 same)
  simp only [write, Array.setIfInBounds_comm _ _ different]

/-- Storing in a cell what it holds changes nothing. -/
theorem write_read (memory : Memory) (a : UInt64) : memory.write a (memory.read a) = memory := by
  refine ext_read (size_write ..) fun b _ => ?_
  rw [read_write]
  split
  · next hit => rw [hit.1]
  · rfl

/-! ## Instructions in memory -/

/-- A cell of a memory holds the word of an instruction. -/
structure Has (memory : Memory) (a : UInt64) (i : Instruction) : Prop where
  /-- There is such a cell. -/
  inside : a.toNat < memory.size
  /-- Its word decodes to the instruction. -/
  decoded : Instruction.decode (memory.read a) = i

/-- The instructions of a listing are in their cells. -/
def Carries (memory : Memory) (listing : List (UInt64 × Instruction)) : Prop :=
  ∀ entry ∈ listing, memory.Has entry.1 entry.2

/-- A store elsewhere leaves an instruction. -/
theorem Has.write {a : UInt64} {i : Instruction} (cell : memory.Has a i) {b : UInt64}
    (elsewhere : b ≠ a) (word : Word) : (memory.write b word).Has a i := by
  refine ⟨by rw [size_write]; exact cell.inside, ?_⟩
  rw [read_write_of_ne elsewhere, cell.decoded]

/-- A store elsewhere leaves the instructions of a listing. -/
theorem Carries.write {listing : List (UInt64 × Instruction)} (carries : memory.Carries listing)
    {b : UInt64} (elsewhere : b ∉ listing.map Prod.fst) (word : Word) :
    (memory.write b word).Carries listing := by
  intro entry member
  have other : b ≠ entry.1 := fun same => elsewhere (same ▸ List.mem_map_of_mem member)
  exact (carries entry member).write other word

/-! ## Several stores -/

/-- Store words in cells, the first of them last. -/
def store (memory : Memory) (cells : List (UInt64 × Word)) : Memory :=
  cells.foldr (fun cell memory => memory.write cell.1 cell.2) memory

/-- Stores keep the number of cells. -/
theorem size_store (memory : Memory) (cells : List (UInt64 × Word)) :
    (memory.store cells).size = memory.size := by
  induction cells with
  | nil => rfl
  | cons cell rest ih => exact (size_write ..).trans ih

/-- A cell in which nothing is stored holds what it held. -/
theorem read_store_of_notMem {a : UInt64} {cells : List (UInt64 × Word)}
    (elsewhere : a ∉ cells.map Prod.fst) : (memory.store cells).read a = memory.read a := by
  induction cells with
  | nil => rfl
  | cons cell rest ih =>
    obtain ⟨other, later⟩ := not_or.1 (mt List.mem_cons.2 elsewhere)
    change ((memory.store rest).write cell.1 cell.2).read a = _
    rw [read_write_of_ne (Ne.symm other), ih later]

/-- A cell in which one word is stored holds this word. -/
theorem read_store_of_mem {cells : List (UInt64 × Word)} (distinct : (cells.map Prod.fst).Nodup)
    {cell : UInt64 × Word} (stored : cell ∈ cells) (inside : cell.1.toNat < memory.size) :
    (memory.store cells).read cell.1 = cell.2 := by
  induction cells with
  | nil => contradiction
  | cons first rest ih =>
    obtain ⟨other, distinct⟩ := List.nodup_cons.1 distinct
    change ((memory.store rest).write first.1 first.2).read cell.1 = _
    obtain rfl | later := List.mem_cons.1 stored
    · exact read_write_self (by rwa [size_store]) _
    · have different : first.1 ≠ cell.1 := by
        intro same
        exact other (same ▸ List.mem_map_of_mem later)
      rw [read_write_of_ne different, ih distinct later]

/-- Stores elsewhere leave the instructions of a listing. -/
theorem Carries.store {listing : List (UInt64 × Instruction)} (carries : memory.Carries listing)
    {cells : List (UInt64 × Word)}
    (elsewhere : ∀ cell ∈ cells, cell.1 ∉ listing.map Prod.fst) :
    (memory.store cells).Carries listing := by
  induction cells with
  | nil => exact carries
  | cons cell rest ih =>
    have later := ih fun other member => elsewhere other (List.mem_cons_of_mem _ member)
    exact later.write (elsewhere cell List.mem_cons_self) cell.2

end Memory

end DirectionCentral

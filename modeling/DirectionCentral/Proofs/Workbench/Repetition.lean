import DirectionCentral.Proofs.Machine.Footprint
import DirectionCentral.Proofs.Machine.Loading
import DirectionCentral.Proofs.Machine.Run
import DirectionCentral.Proofs.Outcome
import DirectionCentral.Workbench

/-!
# Repeating a run

A reset clears all of a machine but its memory, and loads the program again. So of what a run has
done a reset leaves the words that it stored where the program has none (`unchangedBut_reload`). If
there are no such words, the workbench is again as it was when the program was loaded, and the run
can be repeated (`run_reset_run`).
-/

namespace DirectionCentral

namespace Machine

/-! ## What a reset leaves of a run -/

/-- A machine that was reset and has the program of an image loaded. -/
def freshly (m : Machine) (image : Image) : Machine := m.reset.loadImage image

/-- The addresses at which a run stores and an image has no word. -/
def strayStores (m : Machine) (image : Image) (n : Nat) : List UInt64 :=
  (m.stores n).filter fun a => (image.wordAt? a).isNone

/-- A freshly loaded machine is zero, but for its memory and for whether it traces. -/
theorem freshly_eq (m : Machine) (image : Image) :
    m.freshly image =
      { memory := (m.freshly image).memory, trace := { enabled := m.trace.enabled } } :=
  m.reset.loadImage_eq image

/-- Loading a program keeps the number of cells. -/
theorem size_freshly (m : Machine) (image : Image) :
    (m.freshly image).memory.size = m.memory.size :=
  m.reset.size_loadImage image

/-- A cell of a freshly loaded machine holds the word that the image has there, or what it held. -/
theorem read_freshly (m : Machine) (image : Image) {a : UInt64} (inside : a.toNat < m.memory.size) :
    (m.freshly image).memory.read a = (image.wordAt? a).getD (m.memory.read a) :=
  m.reset.read_loadImage image inside

/-- Once a program has been run and loaded again, memory is as it was before the run, but for stores
where the program has no word. -/
theorem unchangedBut_reload (m : Machine) (image : Image) (n : Nat) :
    UnchangedBut ((m.freshly image).strayStores image n) (m.freshly image)
      (((m.freshly image).run n).freshly image) := by
  let start := m.freshly image
  let final := start.run n
  have ran : UnchangedBut (start.stores n) start final := by
    rw [show final = _ from start.run_eq_steps n]
    exact start.unchanged_steps n
  -- Where the image has a word it is loaded again; elsewhere the word of the run stays.
  have reload {a : UInt64}
      (kept : image.wordAt? a = none → final.memory.read a = start.memory.read a) :
      (final.freshly image).memory.read a = start.memory.read a := by
    by_cases inside : a.toNat < start.memory.size
    · have before : a.toNat < m.memory.size := size_freshly m image ▸ inside
      have after : a.toNat < final.memory.size := ran.size ▸ inside
      rw [read_freshly final image after]
      cases word : image.wordAt? a with
      | none => exact kept word
      | some here => rw [read_freshly m image before, word, Option.getD_some, Option.getD_some]
    · have past : start.memory.size ≤ a.toNat := not_lt.1 inside
      rw [Memory.read_of_size_le past, Memory.read_of_size_le]
      rwa [size_freshly, ran.size]
  refine ⟨(size_freshly ..).trans ran.size, fun a other => reload fun none => ran.reads a ?_,
    fun a high => reload fun _ => ran.high a high⟩
  exact fun stored => other (List.mem_filter.2 ⟨stored, by simp [none]⟩)

/-- A program that was run and is loaded again is as it was, if every store of the run was where the
program has a word, or past the end of memory. -/
theorem reload_eq (m : Machine) (image : Image) (n : Nat)
    (covered : ∀ a ∈ (m.freshly image).stores n,
      (image.wordAt? a).isSome ∨ (m.freshly image).memory.size ≤ a.toNat) :
    ((m.freshly image).run n).freshly image = m.freshly image := by
  have unchanged := m.unchangedBut_reload image n
  have memory : (((m.freshly image).run n).freshly image).memory = (m.freshly image).memory := by
    refine Memory.ext_read unchanged.size fun a inside => unchanged.reads a fun stray => ?_
    obtain ⟨stored, none⟩ := List.mem_filter.1 stray
    rw [unchanged.size] at inside
    obtain some | past := covered a stored
    · simp [Option.isNone_iff_eq_none.1 none] at some
    · omega
  have enabled : ((m.freshly image).run n).trace.enabled = m.trace.enabled := by
    rw [run_eq_steps, enabled_steps, freshly_eq]
  rw [freshly_eq, memory, enabled, ← freshly_eq]

end Machine

namespace Workbench

variable {w loaded : Workbench}

/-- A program has just been loaded into a workbench: an assembled source text or a demonstration. -/
inductive Loads (w loaded : Workbench) : Prop where
  /-- A source text was assembled and loaded. -/
  | source (text : String) (accepted : w.loadSource text = .ok loaded)
  /-- A demonstration was loaded by its name. -/
  | demonstration (name : String) (known : w.loadDemonstration? name = some loaded)

/-- However a program was loaded, the machine was reset and the image stored. -/
theorem Loads.exists_install (loads : Loads w loaded) : ∃ image, loaded = w.install image := by
  cases loads with
  | source text accepted =>
    obtain ⟨image, -, installed⟩ := map_eq_ok_iff.1 accepted
    exact ⟨image, installed.symm⟩
  | demonstration name known =>
    obtain ⟨d, -, installed⟩ := Option.map_eq_some_iff.1 known
    exact ⟨d.image, installed.symm⟩

/-- Whatever was done with a workbench before a program was loaded: if the run stores only where the
program has a word or past the end of memory, then after a reset the same run is made again. It
performs as many instructions and leaves the workbench the same, with its registers, memory, trace
and diagnostic. -/
theorem run_reset_run (w loaded : Workbench) (loads : Loads w loaded) (budget : UInt32)
    (covered : ∀ a ∈ loaded.machine.stores budget.toNat,
      (loaded.image.wordAt? a).isSome ∨ loaded.machine.memory.size ≤ a.toNat) :
    (loaded.run budget).reset.performed budget = loaded.performed budget ∧
      (loaded.run budget).reset.run budget = loaded.run budget := by
  obtain ⟨image, rfl⟩ := loads.exists_install
  have again : ((w.install image).run budget).reset = w.install image :=
    congrArg (Workbench.mk · image) (w.machine.reload_eq image budget.toNat covered)
  rw [again]
  exact ⟨rfl, rfl⟩

/-- A program whose last two segments overlap and reach past the end of memory. It doubles the word
in cell 6, where the second of them has put 9, and stores the result there and past the end. -/
def doubling : String := "LDA 6\nADD 6\nSTO 6\nSTO 100\nHLT\nORG 6\nDAT 7\nORG 6\nDAT 9\nDAT 1"

/-- On a tracing machine that was used before, the program doubles 9 each time that it is run. -/
theorem run_reset_run_doubling :
    let image : Image :=
      ⟨[⟨0, [0x01000006, 0x03000006, 0x02000006, 0x02000064, 0]⟩, ⟨6, [7]⟩, ⟨6, [9, 1]⟩]⟩
    let machine : Machine :=
      { registers := { accumulator := 5, halted := true }
        memory := ⟨#[3, 3, 3, 3, 3, 3, 3], by decide⟩
        trace := { enabled := true } }
    let loaded := Workbench.install ⟨machine, {}⟩ image
    Loads ⟨machine, {}⟩ loaded ∧ loaded.machine.stores 10 = [6, 100] ∧
      (loaded.run 10).machine.memory.read 6 = 18 ∧
      (loaded.run 10).reset.performed 10 = 5 ∧
      (loaded.run 10).reset.run 10 = loaded.run 10 := by
  intro image machine loaded
  have assembled : Assembly.assemble doubling = .ok image := by decide +kernel
  have loads : Loads ⟨machine, {}⟩ loaded :=
    .source doubling (map_eq_ok_iff.2 ⟨image, assembled, rfl⟩)
  have stores : loaded.machine.stores 10 = [6, 100] := by decide +kernel
  have covered : ∀ a ∈ loaded.machine.stores 10,
      (loaded.image.wordAt? a).isSome ∨ loaded.machine.memory.size ≤ a.toNat := by
    rw [stores]
    exact List.forall_mem_cons.2
      ⟨.inl (by decide +kernel), List.forall_mem_singleton.2 (.inr (by decide +kernel))⟩
  obtain ⟨count, same⟩ := run_reset_run _ loaded loads 10 covered
  exact ⟨loads, stores, by decide +kernel, count.trans (by decide +kernel), same⟩

/-- A program that counts in a cell where it has no word counts on. -/
example :
    let image : Image := ⟨[⟨0, [0x01000005, 0x03000003, 0x02000005, 1]⟩]⟩
    let loaded := (ofSize 6).install image
    (loaded.run 3).machine.memory.read 5 = 1 ∧
      ((loaded.run 3).reset.run 3).machine.memory.read 5 = 2 := by
  decide +kernel

end Workbench

end DirectionCentral

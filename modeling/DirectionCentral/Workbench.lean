import DirectionCentral.Assembly.Draft
import DirectionCentral.Demonstration
import DirectionCentral.Disassembly
import DirectionCentral.Machine.Json

/-!
# The workbench

A machine together with the program that it was last given, for embedding in another environment. A
reset loads the program again, so that a run can be repeated.
-/

namespace DirectionCentral

/-- A machine and its program. -/
structure Workbench where
  /-- The machine. -/
  machine : Machine
  /-- The program that was last loaded. -/
  image : Image := {}

namespace Workbench

/-- A workbench with the given number of memory cells and no program. -/
def ofSize (memorySize : UInt64) : Workbench := { machine := .ofSize memorySize }

/-- Reset the machine and load a program. -/
def install (w : Workbench) (image : Image) : Workbench :=
  { machine := w.machine.reset.loadImage image, image }

/-- Assemble a program and load it. -/
def loadSource (w : Workbench) (source : String) : Except Assembly.Error Workbench :=
  (Assembly.assemble source).map w.install

/-- Load the demonstration program with the given name. -/
def loadDemonstration? (w : Workbench) (name : String) : Option Workbench :=
  (Demonstration.byName? name).map fun d => w.install d.image

/-- Reset the machine and load the program again. -/
def reset (w : Workbench) : Workbench := w.install w.image

/-- Change the machine and keep the program. -/
def mapMachine (w : Workbench) (change : Machine → Machine) : Workbench :=
  { w with machine := change w.machine }

/-- Step the machine. -/
def step (w : Workbench) : Workbench := w.mapMachine Machine.step

/-- Run the machine. -/
def run (w : Workbench) (budget : UInt32) : Workbench :=
  w.mapMachine fun m => m.run budget.toNat

/-- How many instructions a run performs. -/
def performed (w : Workbench) (budget : UInt32) : UInt32 :=
  (w.machine.performed budget.toNat).toUInt32

/-- The diagnostic, or the empty text. -/
def diagnosticText (w : Workbench) : String := w.machine.diagnostic.getD ""

/-- The text of the word in a cell. -/
def disassembleAt (w : Workbench) (address : UInt64) : String :=
  Disassembly.wordText (w.machine.memory.read address)

/-- The display state in JSON. -/
def stateText (w : Workbench) : String := w.machine.registers.toStateJson.compactText

/-- The trace in JSON. -/
def traceText (w : Workbench) : String :=
  (Trace.entriesJson w.machine.trace.entries.toList).compactText

end Workbench

end DirectionCentral

import DirectionCentral.Disassembly
import DirectionCentral.Machine

/-!
# The debugger

A machine under observation: it is stepped, or runs until it halts or comes to a breakpoint, one
instruction a tick. Tracing is always on. A reset builds the machine anew and loads the program
again; breakpoints and the place in the view of memory stay.
-/

namespace DirectionCentral

/-- What the debugger last had to say. -/
inductive Status where
  /-- Nothing has happened yet. -/
  | ready
  /-- The word at an address was performed. -/
  | stepped (location : UInt64) (word : Word)
  /-- The machine is halted: for the fault in words, or after a number of instructions. -/
  | halted (diagnostic : Option String) (instructions : UInt64)
  /-- The machine runs. -/
  | running
  /-- The run was stopped by key. -/
  | paused
  /-- The run came to a breakpoint. -/
  | atBreakpoint (location : UInt64)
  /-- A breakpoint was set. -/
  | breakpointSet (location : UInt64)
  /-- A breakpoint was removed. -/
  | breakpointRemoved (location : UInt64)
  /-- The machine was built anew. -/
  | reset
deriving DecidableEq

/-- The status in words. -/
def Status.text : Status → String
  | ready => "Ready. Press 's' to step, 'r' to run, 'q' to quit."
  | stepped location word =>
    let address := String.ofList (Text.zeroPadded 5 location.toNat)
    s!"P={address}: {Disassembly.wordText word}"
  | halted (some diagnostic) _ => s!"Halted: {diagnostic}"
  | halted none instructions => s!"Halted after {instructions.toNat} instructions"
  | running => "Running..."
  | paused => "Paused."
  | atBreakpoint location => s!"Breakpoint at P={location.toNat}"
  | breakpointSet location => s!"Set breakpoint at P={location.toNat}"
  | breakpointRemoved location => s!"Removed breakpoint at P={location.toNat}"
  | reset => "Reset. Ready."

/-- A machine under observation. -/
structure Debugger where
  /-- The machine. -/
  machine : Machine
  /-- The program, for loading it again. -/
  image : Image
  /-- What the machine is built from, but for tracing. -/
  config : Configuration
  /-- The addresses of the breakpoints, ascending. -/
  breakpoints : List UInt64 := []
  /-- Whether ticks perform instructions. -/
  running : Bool := false
  /-- Whether the user wants to leave. -/
  quitting : Bool := false
  /-- What there is to say. -/
  status : Status := .ready
  /-- The first address in the view of memory. -/
  scroll : UInt64

namespace Debugger

/-- A new tracing machine with a program loaded. -/
def freshMachine (image : Image) (config : Configuration) : Machine :=
  (Machine.ofConfiguration { config with traceEnabled := true }).loadImage image

/-- A debugger for a program. The view of memory begins at the program's first segment. -/
def ofImage (image : Image) (config : Configuration) : Debugger where
  machine := freshMachine image config
  image
  config
  scroll := (image.segments.head?.map (·.start)).getD 0

/-- Stop running and say why the machine is halted. -/
def stopHalted (d : Debugger) : Debugger :=
  { d with
    running := false
    status := .halted d.machine.diagnostic d.machine.registers.instructions }

/-- Perform one instruction, if the machine is not halted. -/
def step (d : Debugger) : Debugger :=
  if d.machine.registers.halted then d.stopHalted
  else
    let location := d.machine.registers.next
    let word := d.machine.memory.read location
    let d := { d with machine := d.machine.step }
    if d.machine.registers.halted then d.stopHalted
    else { d with status := .stepped location word }

/-- Begin to run. -/
def run (d : Debugger) : Debugger := { d with running := true, status := .running }

/-- Perform one instruction if the debugger runs; stop instead if the machine is halted or at a
breakpoint. -/
def tick (d : Debugger) : Debugger :=
  if d.running then
    if d.machine.registers.halted then d.stopHalted
    else if d.breakpoints.contains d.machine.registers.next then
      { d with running := false, status := .atBreakpoint d.machine.registers.next }
    else d.step
  else d

/-- Insert an address into an ascending list. -/
def insertAscending (address : UInt64) : List UInt64 → List UInt64
  | [] => [address]
  | first :: rest =>
    if address ≤ first then address :: first :: rest else first :: insertAscending address rest

/-- Set a breakpoint at the next address, or remove it if there is one. -/
def toggleBreakpoint (d : Debugger) : Debugger :=
  let location := d.machine.registers.next
  if d.breakpoints.contains location then
    { d with
      breakpoints := d.breakpoints.filter (· != location)
      status := .breakpointRemoved location }
  else
    { d with
      breakpoints := insertAscending location d.breakpoints
      status := .breakpointSet location }

/-- Build the machine anew and load the program again. -/
def reset (d : Debugger) : Debugger :=
  { d with machine := freshMachine d.image d.config, running := false, status := .reset }

/-- Stop running. -/
def pause (d : Debugger) : Debugger := { d with running := false, status := .paused }

/-- Move the view of memory to the address before. -/
def scrollUp (d : Debugger) : Debugger :=
  { d with scroll := if d.scroll = 0 then 0 else d.scroll - 1 }

/-- Move the view of memory to the address after, if there is such a cell. After the last address of
64 bits comes the first one. -/
def scrollDown (d : Debugger) : Debugger :=
  if (d.scroll + 1).toNat < d.machine.memory.size then { d with scroll := d.scroll + 1 } else d

/-- A line of the view of the program: a cell, its text, and whether it is performed next. -/
structure ProgramLine where
  /-- The address of the cell. -/
  address : UInt64
  /-- The text of its word. -/
  text : String
  /-- Whether the word is performed next. -/
  isNext : Bool
deriving DecidableEq

/-- The cells around the next address, at most `count` of them: half of them before it, or as many
as there are. -/
def programLines (d : Debugger) (count : Nat) : List ProgramLine :=
  let next := d.machine.registers.next
  let start := UInt64.ofNat (next.toNat - count / 2)
  (Disassembly.ofMemory d.machine.memory start (UInt64.ofNat count)).map fun (address, text) =>
    ⟨address, text, address == next⟩

/-! ## Keys -/

/-- A key of the keyboard. -/
inductive Key where
  /-- The key of a character. -/
  | char (c : Char)
  /-- The arrow up. -/
  | up
  /-- The arrow down. -/
  | down
  /-- The enter key. -/
  | enter
  /-- The escape key. -/
  | escape
  /-- Any other key, by its name. -/
  | other (name : String)
deriving DecidableEq

/-- Do what a key asks for; most keys ask for nothing. -/
def press (d : Debugger) : Key → Debugger
  | .char 'q' => { d with quitting := true }
  | .char 's' => { d with running := false }.step
  | .char 'r' => d.run
  | .char 'p' => d.pause
  | .char 'b' => d.toggleBreakpoint
  | .char 'x' => d.reset
  | .up => d.scrollUp
  | .down => d.scrollDown
  | _ => d

end Debugger

end DirectionCentral

import DirectionCentral.Debugger
import DirectionCentral.Screen.Panel

/-!
# The debugger's screen

On the left the program around the next instruction, the registers, the end of the trace and the
status; on the right memory and the keys. Program and memory take the height that the others leave.
-/

namespace DirectionCentral.Debugger

open Screen

/-- The style of what is at the next address. -/
def nextStyle : Style := { colour := .yellow, bold := true }

/-- How many entries of the trace are shown. -/
def traceRows : Nat := 6

/-- The panel of the program, with the next address and the breakpoints marked. -/
def programPanel (d : Debugger) (rows : Nat) : Panel where
  title := " Disassembly "
  border := { colour := .cyan }
  lines := (d.programLines rows).map fun line =>
    let hasBreakpoint := d.breakpoints.contains line.address
    let style : Style :=
      if line.isNext then nextStyle
      else if hasBreakpoint then { colour := .red }
      else {}
    let mark := if hasBreakpoint then "●" else " "
    let arrow := if line.isNext then "▶ " else "  "
    let address := String.ofList (Text.zeroPadded 5 line.address.toNat)
    .uniform style s!"{mark} {arrow}{address}: {line.text}"

/-- The panel of the registers. -/
def registerPanel (d : Debugger) : Panel :=
  let r := d.machine.registers
  let plain := styled {}
  let white (text : List Char) := styled { colour := .white } (String.ofList text)
  let line (text : Row) : Line := ⟨text, {}⟩
  { title := " Registers "
    border := { colour := .green }
    lines := [
      line (plain "A: " ++ white (Text.hexadecimal 8 r.accumulator.toUInt32.toNat) ++
        plain s!" = {r.accumulator.toInt}"),
      line (plain "I: " ++ white (Text.padStart 8 ' ' (Text.signedDecimal r.index.toInt)) ++
        plain "   P: " ++
        styled { colour := .yellow } (String.ofList (Text.zeroPadded 5 r.next.toNat))),
      line (plain "Instructions: " ++ styled { colour := .cyan } s!"{r.instructions.toNat}" ++
        plain "   RTC: " ++ styled { colour := .cyan } s!"{d.machine.clock.ticks.toNat}"),
      line (plain "State: " ++
        if r.halted then styled { colour := .red, bold := true } "HALTED"
        else styled { colour := .green } "RUNNING")] }

/-- The panel of the trace. Indexed instructions stand out. -/
def tracePanel (d : Debugger) : Panel where
  title := " Trace "
  border := { colour := .blue }
  lines := (d.machine.trace.recent traceRows).map fun entry =>
    let style : Style := { colour := if entry.instruction.indexed then .magenta else .gray }
    .uniform style (Disassembly.traceLine entry.location.toNat entry.word
      entry.effectiveAddress.toNat entry.accumulator.toInt entry.index.toInt)

/-- The panel of the status. -/
def statusPanel (d : Debugger) : Panel where
  title := " Status "
  border := { colour := .white }
  blank := { colour := .white }
  lines := [.uniform { colour := .white } d.status.text]

/-- The panel of memory. Cells that hold zero are dim. -/
def memoryPanel (d : Debugger) (rows : Nat) : Panel where
  title := " Memory "
  border := { colour := .magenta }
  lines := (d.machine.memory.dump d.scroll (UInt64.ofNat rows)).map fun (address, word) =>
    let style : Style :=
      if address == d.machine.registers.next then nextStyle
      else { colour := if word != 0 then .white else .darkGray }
    let location := String.ofList (Text.zeroPadded 5 address.toNat)
    let digits := String.ofList (Text.hexadecimal 8 word.toNat)
    .uniform style s!"{location}: {digits} = {(Accumulator.ofWord word).toInt}"

/-- The panel of the keys. -/
def helpPanel : Panel where
  title := " Help "
  border := { colour := .darkGray }
  blank := { colour := .darkGray }
  lines := [
    .uniform { colour := .darkGray } "s: Step  r: Run  p: Pause  b: Breakpoint",
    .uniform { colour := .darkGray } "x: Reset  ↑↓: Scroll memory  q: Quit"]

/-- The screen in a width and a height of at least 27. The left column takes three fifths. -/
def screen (d : Debugger) (width height : Nat) : List Row :=
  let left := width * 3 / 5
  let right := width - left
  let program := height - 17
  let memory := height - 4
  beside
    ((d.programPanel (program - 2)).draw left program ++ d.registerPanel.draw left 6 ++
      d.tracePanel.draw left (traceRows + 2) ++ d.statusPanel.draw left 3)
    ((d.memoryPanel (memory - 2)).draw right memory ++ helpPanel.draw right 4)

end DirectionCentral.Debugger

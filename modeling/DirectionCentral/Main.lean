import DirectionCentral.CommandLine.Command
import DirectionCentral.Debugger.Screen

/-!
# The program

The outer layer: it reads the file that a command needs, carries the command's plan out, and prints.
The debugger is worked from standard input: the characters of a line are keys, `j` and `k` stand for
the arrows, and while the machine runs an empty line lets it tick.
-/

namespace DirectionCentral.CommandLine

/-- What an error of the system says in the library's terms. -/
def fileErrorOf : IO.Error → FileError
  | .noFileOrDirectory .. => .notFound
  | .inappropriateType _ 20 _ => .notADirectory
  | .inappropriateType .. => .isADirectory
  | .invalidArgument _ 36 _ => .nameTooLong
  | error => .other (toString error)

/-- The text of a file of the system. -/
def readSystemFile (path : String) : IO (Except FileError String) := do
  try
    let bytes ← IO.FS.readBinFile path
    return textOfBytes bytes
  catch error => return .error (fileErrorOf error)

/-- Print what a command prints, without the messages that were not asked for. -/
def printOutput (verbosity : Nat) (output : List Output) : IO Unit := do
  for item in output do
    match item with
    | .line text => IO.println text
    | .failure text => IO.eprintln text
    | .message message =>
      if isShown verbosity message then IO.println s!"{message.severity.name} {message.text}"

/-- The key that a typed character stands for. -/
def keyOf (c : Char) : Debugger.Key :=
  if c = 'k' then .up else if c = 'j' then .down else .char c

/-- Draw the debugger and do what the next line asks for, until the user leaves. -/
partial def observe (debugger : Debugger) : IO Unit := do
  for row in debugger.screen 80 30 do
    IO.println (String.ofList (Text.trimEnd (row.map (·.char))))
  let line ← (← IO.getStdin).getLine
  let keys := (Text.trim line.toList).map keyOf
  let debugger := (keys.foldl Debugger.press debugger).tick
  if line.isEmpty || debugger.quitting then return () else observe debugger

/-- Carry a plan out on the files of the system. -/
def carryOut (verbosity : Nat) : Plan → IO UInt32
  | .finish outcome => do
    printOutput verbosity outcome.output
    return outcome.exit
  | .observe before debugger => do
    printOutput verbosity before
    observe debugger
    return 0
  | .save before path text saved failed => do
    printOutput verbosity before
    let outcome ←
      try
        IO.FS.writeFile path text
        pure saved
      catch error => pure (failed (fileErrorOf error))
    printOutput verbosity outcome.output
    return outcome.exit

end DirectionCentral.CommandLine

open DirectionCentral.CommandLine in
/-- Do what the arguments ask for and return the program's exit code. -/
def main (arguments : List String) : IO UInt32 := do
  match parse? arguments with
  | none => carryOut 0 (.finish refusal)
  | some (.perform settings command) =>
    let input ←
      match command.input? with
      | some path => readSystemFile path
      | none => pure (.error .notFound)
    carryOut settings.verbosity (command.plan settings input)
  | some _ => carryOut 0 (.finish (execute arguments {}).1)

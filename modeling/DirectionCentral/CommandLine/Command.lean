import DirectionCentral.Assembly.Draft
import DirectionCentral.CommandLine.Arguments
import DirectionCentral.CommandLine.Files
import DirectionCentral.Debugger
import DirectionCentral.Demonstration
import DirectionCentral.Image.Json
import DirectionCentral.Journal
import DirectionCentral.Machine.Json

/-!
# Commands

What a command prints, saves and returns. Every command reads at most one file, whose text is given
to it, and saves at most one file as its last act but for saying how that went. So a command is a
plan (`Plan`): finished, or a file to save and two ways to go on.
-/

namespace DirectionCentral.CommandLine

/-- A line that a command prints. -/
inductive Output where
  /-- A line of the answer. -/
  | line (text : String)
  /-- A line that says why the command fails. -/
  | failure (text : String)
  /-- A message of the machine's journal. -/
  | message (message : Message)
deriving DecidableEq

/-- What has been printed when a command ends, and the number it returns. -/
structure Outcome where
  /-- The printed lines in order. -/
  output : List Output
  /-- Zero for success. -/
  exit : UInt32 := 0
deriving DecidableEq

namespace Outcome

/-- The outcome with lines printed before it. -/
def after (o : Outcome) (before : List Output) : Outcome := { o with output := before ++ o.output }

/-- Fail with a message. -/
def fail (text : String) : Outcome := ⟨[.failure s!"❌ {text}"], 1⟩

end Outcome

/-- What remains to be done for a command. -/
inductive Plan where
  /-- Nothing but to print. -/
  | finish (outcome : Outcome)
  /-- Print lines, save a text under a path, and end according to how that goes. -/
  | save (before : List Output) (path text : String) (saved : Outcome)
    (failed : FileError → Outcome)
  /-- Print lines and hand over to the debugger. -/
  | observe (before : List Output) (debugger : Debugger)

/-- The lines of texts. -/
def printed (texts : List String) : List Output := texts.map .line

/-- The messages of the journal. -/
def logged (messages : List Message) : List Output := messages.map .message

/-- A program from a file, and the line that says so. -/
structure Program where
  /-- What is said of it. -/
  banner : String
  /-- The program. -/
  image : Image

/-- Whether a path is that of a source file in assembly text. -/
def isSource (path : String) : Bool := ".asm".toList.isSuffixOf path.toList

/-- An image from the text of its file, or why there is none. -/
def readImage (input : Except FileError String) : Except String Image :=
  match input with
  | .error e => .error s!"Failed to load image: I/O error: {e.message}"
  | .ok text =>
    match Image.loadDocument text with
    | .error e => .error s!"Failed to load image: {e.message}"
    | .ok image => .ok image

/-- An assembled image from the text of its source file, or why there is none. -/
def readSource (input : Except FileError String) : Except String Image :=
  match input with
  | .error e => .error s!"Failed to read file: {e.message}"
  | .ok text =>
    match Assembly.assemble text with
    | .error e => .error s!"Assembly error: {e.message}"
    | .ok image => .ok image

/-- A program from the text of its file, which is a source file or an image. -/
def readProgram (path : String) (input : Except FileError String) : Except String Program :=
  if isSource path then
    (readSource input).map fun image => ⟨s!"📝 Assembled {image.size} words", image⟩
  else (readImage input).map fun image => ⟨s!"📂 Loaded {image.size} words", image⟩

/-- Read a program that has words and go on with it. -/
def withProgram (path : String) (input : Except FileError String)
    (use : Image → List Output → Plan) (before : List Output) : Plan :=
  match readProgram path input with
  | .error text => .finish ((Outcome.fail text).after before)
  | .ok program =>
    let before := before ++ [.line program.banner]
    if program.image.isEmpty then
      .finish ((Outcome.fail "No instructions to execute").after before)
    else use program.image before

/-- The lines that `run` prints of the machine in the end. -/
def resultLines (m : Machine) (performed : UInt64) (limit : UInt64) (json : Bool) : List String :=
  let r := m.registers
  let accumulator := r.accumulator.toInt
  let bits := String.ofList (Text.hexadecimal 8 r.accumulator.toUInt32.toNat)
  let state :=
    if json then [r.toStateJson.indentedText]
    else
      [s!"Instructions: {performed.toNat}",
        "State: " ++ if r.halted then "HALTED" else "RUNNING",
        s!"A (accumulator): {accumulator} (0x{bits})",
        s!"I (index):       {r.index.toInt}",
        s!"P (counter):     {r.next.toNat}"]
  let diagnostic := m.diagnostic.toList.map fun text => s!"Diagnostic: {text}"
  let warning :=
    if r.halted then []
    else
      ["", s!"⚠️  Reached instruction limit ({limit.toNat}). " ++
        "Use --max-instructions to increase."]
  ["", "━━━ Result ━━━"] ++ state ++ diagnostic ++ warning

/-- Run a program and show the machine in the end. -/
def runImage (settings : Settings) (limit : UInt64) (trace json : Bool) (image : Image) :
    Outcome :=
  let empty := Machine.ofConfiguration ⟨settings.memorySize, trace⟩
  let loaded := empty.loadImage image
  let (performed, final) := loaded.runCounted limit.toNat
  let traceLines :=
    if trace then
      final.trace.entries.toList.map fun entry =>
        Disassembly.traceLine entry.location.toNat entry.word entry.effectiveAddress.toNat
          entry.accumulator.toInt entry.index.toInt
    else []
  ⟨logged (empty.loadImageMessages image) ++ printed ["", "━━━ Execution ━━━"] ++
    logged (loaded.runMessages limit.toNat) ++ printed traceLines ++
    printed (resultLines final performed limit json), 0⟩

/-- Assemble a source file into an image file. The two paths must not be the same. -/
def assembleFile (source : String) (output : Option String) (input : Except FileError String) :
    Plan :=
  let target := output.getD (Path.withExtension "json" source)
  if Path.same target source then
    .finish (.fail s!"Refusing to overwrite source {source}; pass --output")
  else
    let before := [Output.line s!"📝 Assembling: {source} → {target}"]
    match readSource input with
    | .error text => .finish ((Outcome.fail text).after before)
    | .ok image =>
      let count := image.segments.length
      let before := before ++ [.line s!"✓ Assembled {image.size} words in {count} segments"]
      .save before target image.toDocument ⟨printed [s!"✓ Saved to {target}"], 0⟩ fun e =>
        .fail s!"Failed to save image: I/O error: {e.message}"

/-- List the segments of an image file, each with an empty line after it. -/
def disassembleFile (path : String) (input : Except FileError String) : Outcome :=
  let before := printed [s!"📖 Disassembling: {path}", ""]
  match readImage input with
  | .error text => (Outcome.fail text).after before
  | .ok image =>
    ⟨before ++ printed (image.segments.map fun s => Disassembly.listing s.words s.start.toNat), 0⟩

/-- The lines that are printed of a demonstration after its run. -/
def demonstrationLines (d : Demonstration) (performed : UInt64) (m : Machine) : List String :=
  let verdict :=
    match d.mismatches m with
    | [] => ["  ✓ results match"]
    | mismatches =>
      mismatches.map fun x =>
        s!"  ✗ [{x.address.toNat}] = {x.actual.toNat} (expected {x.expected.toNat})"
  let accumulator := m.registers.accumulator.toInt
  [s!"{d.name} - {d.description}",
    s!"  {performed.toNat} instructions, A = {accumulator}"] ++ verdict ++ [""]

/-- Run demonstrations one after the other on one machine. Returns what is printed and whether all
of them left what they should. -/
def runDemonstrations (m : Machine) : List Demonstration → List Output × Bool
  | [] => ([], true)
  | d :: rest =>
    let loading := Machine.resetMessages ++ m.reset.loadImageMessages d.image
    let prepared := d.prepare m
    let messages := loading ++ prepared.runMessages Demonstration.budget
    let (performed, final) := prepared.runCounted Demonstration.budget
    let (output, good) := runDemonstrations final rest
    (logged messages ++ printed (demonstrationLines d performed final) ++ output,
      (d.mismatches final).isEmpty && good)

/-- Run demonstrations on a new machine and show how they went. -/
def showDemonstrations (settings : Settings) (demonstrations : List Demonstration) : Outcome :=
  let (output, good) := runDemonstrations (.ofSize settings.memorySize) demonstrations
  ⟨printed ["━━━ Example Programs ━━━", ""] ++ output, if good then 0 else 1⟩

/-- Run one demonstration or all of them. -/
def demonstrate (settings : Settings) (name : Option String) : Outcome :=
  match name with
  | none => showDemonstrations settings Demonstration.all
  | some name =>
    match Demonstration.byName? name with
    | some d => showDemonstrations settings [d]
    | none => .fail s!"No example named '{name}'"

/-! ## The self-test -/

/-- A check of the self-test: its name, what the machine reported, and whether it holds. -/
structure Check where
  /-- What is checked. -/
  name : String
  /-- The messages of the check. -/
  messages : List Message := []
  /-- Whether it holds. -/
  holds : Bool

/-- Fields survive packing into a word. -/
def codecCheck : Check where
  name := "Instruction codec round-trip"
  holds :=
    [0x00, 0x03, 0x15, 0xFF].all fun (code : UInt8) =>
      [0, 1, 0xFFFF, 0x12345].all fun (address : Word) =>
        [false, true].all fun indexed =>
          Instruction.decode (Instruction.encode code address indexed) == ⟨code, address.toUInt16, indexed⟩

/-- Indexed addresses wrap at both ends. -/
def addressCheck : Check where
  name := "Indexed address wraparound"
  holds :=
    let i := Instruction.decode (Instruction.encodeOperation .lda 0xFFF0 true)
    i.effectiveAddress 0x20 == 0x10 && i.effectiveAddress (-0xFFF1) == 0xFFFF

/-- Integers wrap to 32 bits. -/
def wrapCheck : Check where
  name := "32-bit wraparound"
  holds :=
    Accumulator.wrap 0xFFFFFFFF == -1 && Accumulator.wrap (0x7FFFFFFF + 1) == Int32.minValue

/-- Division by zero gives the greatest number and does not halt. -/
def divisionCheck : Check :=
  let empty := Machine.ofSize 16
  let words :=
    [Instruction.encodeOperation .lda 10 false, Instruction.encodeOperation .dvh 11 false]
  let loaded := (empty.load words 0).write 10 5
  let final := loaded.run 2
  { name := "DVH by zero saturates"
    messages := empty.loadMessages words 0 ++ loaded.runMessages 2
    holds := final.registers.accumulator == Accumulator.saturated && final.isRunning }

/-- A word without an operation halts. -/
def unknownCheck : Check :=
  let empty := Machine.ofSize 16
  let words := [Instruction.encode 0xFF 0 false]
  let loaded := empty.load words 0
  { name := "Unknown opcode halts"
    messages := empty.loadMessages words 0 ++ loaded.stepMessages
    holds := loaded.step.registers.halted }

/-- The first demonstration leaves its sum. -/
def demonstrationCheck : Check :=
  let d := Demonstration.arraySum
  let empty := Machine.ofConfiguration {}
  let prepared := d.prepare empty
  { name := "Array sum example stores 270"
    messages := Machine.resetMessages ++ empty.reset.loadImageMessages d.image ++
      prepared.runMessages Demonstration.budget
    holds := (prepared.run Demonstration.budget).memory.read 200 == 270 }

/-- The checks in order. -/
def checks : List Check :=
  [codecCheck, addressCheck, wrapCheck, divisionCheck, unknownCheck, demonstrationCheck]

/-- Do the checks and say how they went. -/
def selfTest : Outcome :=
  let failed := checks.countP (!·.holds)
  let output := checks.flatMap fun check =>
    logged check.messages ++ printed [check.name ++ if check.holds then "... ✓" else "... ✗"]
  let verdict := if failed = 0 then ["✓ All tests passed!"] else []
  let passed := checks.length - failed
  ⟨printed ["━━━ FSQ-7 Emulator Self-Test ━━━", ""] ++ output ++
    printed (["", "━━━━━━━━━━━━━━━━━━━━━━━━━━━━━━",
      s!"Results: {passed} passed, {failed} failed"] ++ verdict),
    if failed = 0 then 0 else 1⟩

/-! ## Performing -/

/-- What the program says of itself when it is given no command. -/
def introduction : List Output :=
  printed ["FSQ-7 Emulator v0.1.0", "An AN/FSQ-7 instruction core emulator", "",
    "Use --help for available commands", ""]

/-- The path of the file that a command reads, if it reads one. -/
def Command.input? : Command → Option String
  | run program _ _ _ => some program
  | debug program => some program
  | assemble source _ => some source
  | disassemble image => some image
  | _ => none

/-- The plan of a command, given the text of the file that it reads. -/
def Command.plan (settings : Settings) (input : Except FileError String) : Command → Plan
  | run program limit trace json =>
    withProgram program input
      (fun image before => .finish ((runImage settings limit trace json image).after before))
      (printed [s!"🔧 Running: {program}"])
  | debug program =>
    withProgram program input
      (fun image before =>
        .observe (before ++ printed ["🚀 Launching debugger...", ""])
          (.ofImage image { memorySize := settings.memorySize }))
      (printed [s!"🔍 Loading: {program}"])
  | assemble source output => assembleFile source output input
  | disassemble image => .finish (disassembleFile image input)
  | demonstrate name => .finish (CommandLine.demonstrate settings name)
  | selfTest => .finish CommandLine.selfTest
  | introduce =>
    .finish ((CommandLine.demonstrate settings (some "array-sum")).after introduction)

/-- The version of the program. -/
def versionText : String := "fsq7-emu 0.1.0"

/-- How the program is used. -/
def helpText : List String :=
  ["An emulator of the AN/FSQ-7 (1958) instruction core", "",
    "Usage: fsq7-emu [OPTIONS] [COMMAND]", "",
    "Commands:",
    "  run     Run a program until it halts",
    "  debug   Interactive debugger",
    "  asm     Assemble source to a JSON image",
    "  disasm  Disassemble a JSON image to readable text",
    "  demo    Run bundled example programs and check their results",
    "  test    Run the built-in self-test"]

/-- Whether a message is shown under a verbosity. -/
def isShown (verbosity : Nat) (message : Message) : Bool := message.severity.rank ≤ verbosity

/-- Carry a plan out on files. -/
def Plan.carryOut (files : Files) : Plan → Outcome × Files
  | finish outcome => (outcome, files)
  | observe before _ => (⟨before, 0⟩, files)
  | save before path text saved failed =>
    match files.write path text with
    | .ok files => (saved.after before, files)
    | .error e => ((failed e).after before, files)

/-- Perform a command on files. -/
def Command.perform (settings : Settings) (command : Command) (files : Files) :
    Outcome × Files :=
  let input :=
    match command.input? with
    | some path => files.readText path
    | none => .error .notFound
  (command.plan settings input).carryOut files

/-- The outcome of refused arguments. -/
def refusal : Outcome := ⟨[.failure "error: the arguments are not understood"], 2⟩

/-- The verbosity that a request asks for. -/
def Request.verbosity : Request → Nat
  | perform settings _ => settings.verbosity
  | _ => 0

/-- Do what the arguments ask for on files. -/
def execute (arguments : List String) (files : Files) : Outcome × Files :=
  match parse? arguments with
  | none => (refusal, files)
  | some .version => (⟨printed [versionText], 0⟩, files)
  | some .help => (⟨printed helpText, 0⟩, files)
  | some (.perform settings command) => command.perform settings files

/-- The verbosity that arguments ask for. -/
def verbosity (arguments : List String) : Nat := ((parse? arguments).map (·.verbosity)).getD 0

end DirectionCentral.CommandLine

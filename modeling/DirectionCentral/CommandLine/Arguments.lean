import DirectionCentral.Memory
import DirectionCentral.Text.Digits

/-!
# Arguments

What the arguments of the program ask for. Options have a long name, after two dashes, and some a
short one, after one dash. A value follows its option as the next argument or, attached, after a long
name and `=` or directly after a short name; short options may share one dash. After the argument
`--` no argument is an option. The general options may stand before or after the command's name;
where one is given in both places, the later place counts. An argument list that does not follow
these rules is refused.
-/

namespace DirectionCentral.CommandLine

/-- A command with its arguments. -/
inductive Command where
  /-- Run a program until it halts, or up to a number of instructions. -/
  | run (program : String) (limit : UInt64) (trace json : Bool)
  /-- Observe a program in the debugger. -/
  | debug (program : String)
  /-- Assemble a source file into an image file. -/
  | assemble (source : String) (output : Option String)
  /-- List the words of an image file. -/
  | disassemble (image : String)
  /-- Run one demonstration program or all of them. -/
  | demonstrate (name : Option String)
  /-- Test the program itself. -/
  | selfTest
  /-- Introduce the program, and run the first demonstration. -/
  | introduce
deriving DecidableEq

/-- The general options. -/
structure Settings where
  /-- The number of memory cells. -/
  memorySize : UInt64 := Memory.standardSize
  /-- How many times more messages are asked for. -/
  verbosity : Nat := 0
deriving DecidableEq

/-- What the arguments ask for. -/
inductive Request where
  /-- Say the version. -/
  | version
  /-- Say how the program is used. -/
  | help
  /-- Perform a command. -/
  | perform (settings : Settings) (command : Command)
deriving DecidableEq

/-- An option. -/
inductive Flag where
  | memorySize
  | verbose
  | help
  | version
  | maxInstructions
  | trace
  | json
  | output
deriving DecidableEq

namespace Flag

/-- The long name. -/
def longName : Flag → String
  | memorySize => "memory-size"
  | verbose => "verbose"
  | help => "help"
  | version => "version"
  | maxInstructions => "max-instructions"
  | trace => "trace"
  | json => "json"
  | output => "output"

/-- The short name, if there is one. -/
def shortName : Flag → Option Char
  | memorySize => none
  | verbose => some 'v'
  | help => some 'h'
  | version => some 'V'
  | maxInstructions => some 'm'
  | trace => some 't'
  | json => none
  | output => some 'o'

/-- Whether a value belongs to the option. -/
def takesValue : Flag → Bool
  | memorySize | maxInstructions | output => true
  | _ => false

end Flag

/-- The names of the commands. -/
inductive Name where
  | run
  | debug
  | asm
  | disasm
  | demo
  | test
  | help
deriving DecidableEq

namespace Name

/-- The names of the commands, as they are written. -/
def all : List (String × Name) :=
  [("run", run), ("debug", debug), ("asm", asm), ("disasm", disasm), ("demo", demo),
    ("test", test), ("help", help)]

/-- The command with the given name. -/
def ofString? (text : String) : Option Name := all.lookup text

/-- The options that may follow the name. -/
def flags : Name → List Flag
  | run => [.maxInstructions, .trace, .json, .memorySize, .verbose, .help]
  | asm => [.output, .memorySize, .verbose, .help]
  | _ => [.memorySize, .verbose, .help]

/-- How many other arguments may follow the name. -/
def operands : Name → Nat
  | test | help => 0
  | _ => 1

end Name

/-- What the arguments of one place, before or after the command's name, have given so far. -/
structure Given where
  /-- The number of memory cells. -/
  memorySize? : Option UInt64 := none
  /-- How often more messages were asked for. -/
  verbosity : Nat := 0
  /-- The greatest number of instructions. -/
  limit? : Option UInt64 := none
  /-- Whether a trace was asked for. -/
  trace : Bool := false
  /-- Whether JSON was asked for. -/
  json : Bool := false
  /-- The output file. -/
  output? : Option String := none
  /-- The other arguments in order. -/
  operands : List String := []

/-- A request that is complete before the arguments end, or none: the arguments are refused. -/
abbrev Early := Option Request

/-- Refuse the arguments. -/
def refused {α : Type} : Except Early α := .error none

/-- An unsigned integer of 64 bits in decimal digits, which a plus sign may precede. -/
def number? (text : String) : Option UInt64 :=
  let digits :=
    match text.toList with
    | '+' :: rest => rest
    | all => all
  match Text.decimal? digits with
  | some n => if n < UInt64.size then some (UInt64.ofNat n) else none
  | none => none

/-- Take an option without a value. -/
def Given.addFlag (g : Given) : Flag → Except Early Given
  | .help => .error (some .help)
  | .version => .error (some .version)
  | .verbose => .ok { g with verbosity := g.verbosity + 1 }
  | .trace => if g.trace then refused else .ok { g with trace := true }
  | .json => if g.json then refused else .ok { g with json := true }
  | _ => refused

/-- Take an option with its value. An option with a value may be given once. -/
def Given.addValue (g : Given) (flag : Flag) (value : String) : Except Early Given :=
  match flag with
  | .memorySize =>
    match g.memorySize?, number? value with
    | none, some n => .ok { g with memorySize? := some n }
    | _, _ => refused
  | .maxInstructions =>
    match g.limit?, number? value with
    | none, some n => .ok { g with limit? := some n }
    | _, _ => refused
  | .output =>
    match g.output? with
    | none => .ok { g with output? := some value }
    | some _ => refused
  | _ => refused

/-- Take another argument, of which at most `most` are taken. -/
def Given.addOperand (g : Given) (most : Nat) (argument : String) : Except Early Given :=
  if g.operands.length < most then .ok { g with operands := g.operands ++ [argument] } else refused

/-- Take the options behind one dash. The result says which option still waits for its value. -/
def Given.addCluster (g : Given) (flags : List Flag) :
    List Char → Except Early (Given × Option Flag)
  | [] => .ok (g, none)
  | c :: rest =>
    match flags.find? (·.shortName == some c) with
    | none => refused
    | some flag =>
      if flag.takesValue then
        match rest with
        | [] => .ok (g, some flag)
        | '=' :: value => (g.addValue flag (String.ofList value)).map (·, none)
        | value => (g.addValue flag (String.ofList value)).map (·, none)
      else (g.addFlag flag).bind fun g => g.addCluster flags rest

/-- Take a long option, which is written without its dashes. -/
def Given.addLong (g : Given) (flags : List Flag) (text : List Char) :
    Except Early (Given × Option Flag) :=
  let name := String.ofList (text.takeWhile (· != '='))
  match flags.find? (·.longName == name), text.dropWhile (· != '=') with
  | none, _ => refused
  | some flag, [] =>
    if flag.takesValue then .ok (g, some flag) else (g.addFlag flag).map (·, none)
  | some flag, _ :: value =>
    if flag.takesValue then (g.addValue flag (String.ofList value)).map (·, none) else refused

/-- Whether an argument stands for itself: it does not begin with a dash, or is one dash. -/
def isPlain (argument : List Char) : Bool :=
  match argument with
  | ['-'] => true
  | '-' :: _ => false
  | _ => true

/-- Take the arguments after a command's name, of which `waiting?` is an option whose value is
next. -/
def Given.addAll (g : Given) (flags : List Flag) (most : Nat) (waiting? : Option Flag) :
    List String → Except Early Given
  | [] => if waiting?.isSome then refused else .ok g
  | argument :: rest =>
    match waiting? with
    | some flag =>
      if isPlain argument.toList then
        (g.addValue flag argument).bind fun g => g.addAll flags most none rest
      else refused
    | none =>
      match argument.toList with
      | ['-', '-'] => rest.foldlM (fun g argument => g.addOperand most argument) g
      | '-' :: '-' :: long =>
        (g.addLong flags long).bind fun (g, waiting?) => g.addAll flags most waiting? rest
      | '-' :: c :: short =>
        (g.addCluster flags (c :: short)).bind fun (g, waiting?) =>
          g.addAll flags most waiting? rest
      | _ => (g.addOperand most argument).bind fun g => g.addAll flags most none rest

/-- The general options that two places give. -/
def settings (before after : Given) : Settings where
  memorySize := (after.memorySize?.or before.memorySize?).getD Memory.standardSize
  verbosity := if after.verbosity = 0 then before.verbosity else after.verbosity

/-- The command that a name and what follows it ask for. -/
def Name.command (name : Name) (g : Given) : Except Early Command :=
  match name, g.operands with
  | run, [program] => .ok (.run program (g.limit?.getD 10000) g.trace g.json)
  | debug, [program] => .ok (.debug program)
  | asm, [source] => .ok (.assemble source g.output?)
  | disasm, [image] => .ok (.disassemble image)
  | demo, operands => .ok (.demonstrate operands.head?)
  | test, _ => .ok .selfTest
  | _, _ => refused

/-- Whether the arguments after `help` name a command, or nothing. -/
def isHelpTopic (arguments : List String) : Bool :=
  match arguments with
  | [] => true
  | [name] => (Name.ofString? name).isSome
  | _ => false

/-- The request of a command's name and what follows it, after the given general options. -/
def Name.request (name : Name) (before : Given) (arguments : List String) :
    Except Early Request :=
  match name with
  | .help => if isHelpTopic arguments then .ok .help else refused
  | name =>
    (({} : Given).addAll name.flags name.operands none arguments).bind fun after =>
      (name.command after).map fun command => .perform (settings before after) command

/-- The options that may stand before the command's name. -/
def generalFlags : List Flag := [.memorySize, .verbose, .help, .version]

/-- The request of arguments after those already taken, of which `waiting?` is an option whose
value is next. -/
def Given.request (g : Given) (waiting? : Option Flag) : List String → Except Early Request
  | [] => if waiting?.isSome then refused else .ok (.perform (settings g {}) .introduce)
  | argument :: rest =>
    match waiting? with
    | some flag =>
      if isPlain argument.toList then
        (g.addValue flag argument).bind fun g => g.request none rest
      else refused
    | none =>
      match argument.toList with
      | ['-', '-'] =>
        if rest.isEmpty then .ok (.perform (settings g {}) .introduce) else refused
      | '-' :: '-' :: long =>
        (g.addLong generalFlags long).bind fun (g, waiting?) => g.request waiting? rest
      | '-' :: c :: short =>
        (g.addCluster generalFlags (c :: short)).bind fun (g, waiting?) => g.request waiting? rest
      | _ =>
        match Name.ofString? argument with
        | some name => name.request g rest
        | none => refused

/-- What the arguments ask for; none if they are refused. -/
def parse? (arguments : List String) : Option Request :=
  match ({} : Given).request none arguments with
  | .ok request => some request
  | .error early => early

end DirectionCentral.CommandLine

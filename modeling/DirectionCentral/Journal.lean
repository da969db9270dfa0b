import DirectionCentral.Machine

/-!
# The journal

What the machine reports while it works: a message for each reset, load, instruction and fault, in
order. Messages are computed from the machine before an action; they are no part of it, so nothing
that is performed depends on them.
-/

namespace DirectionCentral

/-- How much a message matters, from the most to the least. -/
inductive Severity where
  /-- A fault of the program. -/
  | warn
  /-- A change from outside. -/
  | info
  /-- An instruction. -/
  | debug
  /-- A detail. -/
  | trace
deriving DecidableEq

/-- The name of a severity. -/
def Severity.name : Severity → String
  | warn => "WARN"
  | info => "INFO"
  | debug => "DEBUG"
  | trace => "TRACE"

/-- The place of a severity in their order. -/
def Severity.rank : Severity → Nat
  | warn => 0
  | info => 1
  | debug => 2
  | trace => 3

/-- A message of the journal. -/
structure Message where
  /-- How much it matters. -/
  severity : Severity
  /-- What it says. -/
  text : String
deriving DecidableEq

namespace Machine

/-- The message of a reset. -/
def resetMessages : List Message := [⟨.info, "reset"⟩]

/-- The messages of a load: first how many words are dropped, if any are, then how many stored. -/
def loadMessages (m : Machine) (words : List Word) (start : UInt64) : List Message :=
  let stored := m.memory.stored words start
  let dropped := words.length - stored
  let ofDropped : List Message :=
    if dropped = 0 then []
    else
      [⟨.trace,
        s!"load at {start.toNat}: dropped {dropped} of {words.length} words past end of memory"⟩]
  ofDropped ++ [⟨.info, s!"loaded {stored} words at {start.toNat}"⟩]

/-- The messages of loading an image, segment by segment. -/
def loadImageMessages (m : Machine) (image : Image) : List Message :=
  image.segments.flatMap fun s => m.loadMessages s.words s.start

/-- The messages of a step that performed `entry`, fetched past the end of memory if `pastEnd`, and
left the registers `after`. -/
def entryMessages (entry : TraceEntry) (pastEnd : Bool) (after : Registers) : List Message :=
  let ofFetch : List Message :=
    if pastEnd then [⟨.warn, (Diagnostic.endOfMemory entry.location).text⟩] else []
  let ofDispatch : Message :=
    match entry.instruction.operation? with
    | some op =>
      let ea := entry.effectiveAddress.toNat
      let a := after.accumulator.toInt
      let i := after.index.toInt
      ⟨.debug, s!"{op.mnemonic} ea={ea} A={a} I={i} P={after.next.toNat}"⟩
    | none => ⟨.warn, (Diagnostic.unknownOperation entry.instruction.code entry.location).text⟩
  ofFetch ++ [ofDispatch]

/-- The messages of a step. -/
def stepMessages (m : Machine) : List Message :=
  if m.registers.halted then []
  else entryMessages m.upcoming m.atEnd m.step.registers

/-- The messages of a run after those in `before`. -/
def runMessagesAfter (budget : Nat) (before : Array Message) (m : Machine) : Array Message :=
  match budget with
  | 0 => before
  | budget + 1 =>
    if m.registers.halted then before
    else
      let entry := m.upcoming
      let pastEnd := m.atEnd
      let m := m.step
      let messages := before ++ entryMessages entry pastEnd m.registers
      if m.registers.halted then messages else runMessagesAfter budget messages m

/-- The messages of a run. -/
def runMessages (m : Machine) (budget : Nat) : List Message :=
  (runMessagesAfter budget #[] m).toList

end Machine

end DirectionCentral

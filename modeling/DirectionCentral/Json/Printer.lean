import DirectionCentral.Json.Value

/-!
# Printed JSON

Two layouts of one value: compact, without blanks, and indented, two spaces a level with a space
after each colon. Strings escape quotes, backslashes and control characters and nothing else;
control characters without a short escape are written with four lower-case hexadecimal digits.
-/

namespace DirectionCentral.Json

/-- A character inside a printed string. -/
def escape (c : Char) : List Char :=
  if c = '"' then ['\\', '"']
  else if c = '\\' then ['\\', '\\']
  else if c.toNat < 0x20 then
    if c = '\n' then ['\\', 'n']
    else if c = '\r' then ['\\', 'r']
    else if c = '\t' then ['\\', 't']
    else if c.toNat = 0x08 then ['\\', 'b']
    else if c.toNat = 0x0C then ['\\', 'f']
    else '\\' :: 'u' :: Text.padStart 4 '0' (Nat.toDigits 16 c.toNat)
  else [c]

/-- A printed string; the empty string stands in for one that denotes no text. -/
def quoted (text : Option String) : List Char :=
  '"' :: ((text.getD "").toList.flatMap escape ++ ['"'])

/-- A printed value that holds no other. -/
def scalar : Json → List Char
  | .null => "null".toList
  | .bool true => "true".toList
  | .bool false => "false".toList
  | .number numeral => numeral.render
  | .string text => quoted text
  | .array _ => ['[', ']']
  | .object _ => ['{', '}']

/-- Texts put together with a separator between neighbours. -/
def separated (separator : List Char) : List (List Char) → List Char
  | [] => []
  | first :: rest => first ++ rest.flatMap (separator ++ ·)

/-- The value without any blank. -/
def compact : Json → List Char
  | .array items => '[' :: (separated [','] (items.map compact) ++ [']'])
  | .object members =>
    '{' :: (separated [','] (members.map fun m => quoted m.1 ++ ':' :: compact m.2) ++ ['}'])
  | value => scalar value
termination_by value => sizeOf value
decreasing_by
  · decreasing_trivial
  · have := List.sizeOf_lt_of_mem ‹_ ∈ members›
    cases m
    simp_all
    omega

/-- A new line indented to the given depth. -/
def newline (depth : Nat) : List Char := '\n' :: List.replicate (2 * depth) ' '

/-- Lines of their own inside brackets, under the given depth. -/
def block (depth : Nat) (opening closing : Char) (lines : List (List Char)) : List Char :=
  opening :: (newline (depth + 1) ++ separated (',' :: newline (depth + 1)) lines ++
    newline depth ++ [closing])

/-- The value with one item or member a line, indented under the given depth. Empty brackets stay
together. -/
def indented (depth : Nat) : Json → List Char
  | .array items =>
    if items.isEmpty then ['[', ']']
    else block depth '[' ']' (items.map fun item => indented (depth + 1) item)
  | .object members =>
    if members.isEmpty then ['{', '}']
    else block depth '{' '}'
      (members.map fun m => quoted m.1 ++ ':' :: ' ' :: indented (depth + 1) m.2)
  | value => scalar value
termination_by value => sizeOf value
decreasing_by
  · have := List.sizeOf_lt_of_mem ‹_ ∈ items›
    simp_all
    omega
  · have := List.sizeOf_lt_of_mem ‹_ ∈ members›
    cases m
    simp_all
    omega

/-- The compact text of a value. -/
def compactText (value : Json) : String := String.ofList value.compact

/-- The indented text of a value. -/
def indentedText (value : Json) : String := String.ofList (value.indented 0)

end DirectionCentral.Json

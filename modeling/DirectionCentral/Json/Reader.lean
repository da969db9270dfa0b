import DirectionCentral.Json.Token

/-!
# Read JSON

A value from its tokens, by a pass with a stack of the arrays and objects that are still open, so
that no depth of nesting is too deep. The text must hold one value and nothing after it; a comma
stands between neighbours only.
-/

namespace DirectionCentral.Json

/-- An array or object that is still open, with what it holds so far in reverse order. -/
inductive Frame where
  /-- An array. -/
  | array (items : List Json)
  /-- An object, and the name whose value is being read. -/
  | object (members : List (Option String × Json)) (name : Option String)

/-- What may come next. -/
inductive Expected where
  /-- A value. -/
  | value
  /-- The first item of an array, or its end. -/
  | firstItem
  /-- The first name of an object, or its end. -/
  | firstName
  /-- A name, after a comma. -/
  | name (members : List (Option String × Json))
  /-- The colon after a name. -/
  | colon (members : List (Option String × Json)) (name : Option String)
  /-- What follows a finished value. -/
  | after (value : Json)

/-- Read a token where a value must begin. -/
def beginValue? (stack : List Frame) : Token → Option (Expected × List Frame)
  | .openArray => some (.firstItem, stack)
  | .openObject => some (.firstName, stack)
  | .string text => some (.after (.string text), stack)
  | .literal value => some (.after value, stack)
  | _ => none

/-- Read a token after a finished value. -/
def continue? (value : Json) : List Frame → Token → Option (Expected × List Frame)
  | .array items :: stack, .comma => some (.value, .array (value :: items) :: stack)
  | .array items :: stack, .closeArray =>
    some (.after (.array (value :: items).reverse), stack)
  | .object members name :: stack, .comma => some (.name ((name, value) :: members), stack)
  | .object members name :: stack, .closeObject =>
    some (.after (.object ((name, value) :: members).reverse), stack)
  | _, _ => none

/-- Read one token: what may come next, and what is then open. -/
def advance? (expected : Expected) (stack : List Frame) (token : Token) :
    Option (Expected × List Frame) :=
  match expected with
  | .value => beginValue? stack token
  | .firstItem =>
    match token with
    | .closeArray => some (.after (.array []), stack)
    | _ => beginValue? (.array [] :: stack) token
  | .firstName =>
    match token with
    | .closeObject => some (.after (.object []), stack)
    | .string name => some (.colon [] name, stack)
    | _ => none
  | .name members =>
    match token with
    | .string name => some (.colon members name, stack)
    | _ => none
  | .colon members name =>
    match token with
    | .colon => some (.value, .object members name :: stack)
    | _ => none
  | .after value => continue? value stack token

/-- The value that the rest of the tokens completes. -/
def ofTokensFrom? (expected : Expected) (stack : List Frame) : List Token → Option Json
  | [] =>
    match expected, stack with
    | .after value, [] => some value
    | _, _ => none
  | token :: rest =>
    match advance? expected stack token with
    | some (expected, stack) => ofTokensFrom? expected stack rest
    | none => none

/-- The value that tokens write, if they write one and nothing else. -/
def ofTokens? (tokens : List Token) : Option Json := ofTokensFrom? .value [] tokens

/-- The value that a text writes. -/
def ofChars? (text : List Char) : Option Json := (tokens? text).bind ofTokens?

/-- The value that a text writes. -/
def parse? (text : String) : Option Json := ofChars? text.toList

end DirectionCentral.Json

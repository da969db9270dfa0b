import DirectionCentral.Json.Value

/-!
# JSON tokens

The text of a JSON value as a list of tokens. One pass over the characters carries what has been
read of the token at hand (`Reading`); it refuses a text at the first character that no token
admits. Blanks of JSON are space, tab, newline and carriage return, and no others.
-/

namespace DirectionCentral.Json

/-- A token of JSON. -/
inductive Token where
  /-- The bracket that opens an array. -/
  | openArray
  /-- The bracket that closes an array. -/
  | closeArray
  /-- The brace that opens an object. -/
  | openObject
  /-- The brace that closes an object. -/
  | closeObject
  /-- The comma between neighbours. -/
  | comma
  /-- The colon between a name and its value. -/
  | colon
  /-- A string; `none` if it denotes no text. -/
  | string (text : Option String)
  /-- A number, a truth value or `null`. -/
  | literal (value : Json)

/-- One piece of a string in reading: a character, or the code of a hexadecimal escape. -/
inductive Piece where
  /-- A character that stands for itself or was escaped by a letter. -/
  | char (c : Char)
  /-- The UTF-16 code unit of an escape with four digits. -/
  | unit (code : Nat)

/-- The characters that pieces denote: two escapes that follow each other as a surrogate pair are
one character, and a surrogate by itself denotes nothing. -/
def Piece.text? : List Piece → Option (List Char)
  | [] => some []
  | .char c :: rest => (text? rest).map (c :: ·)
  | .unit high :: rest =>
    if 0xD800 ≤ high ∧ high < 0xDC00 then
      match rest with
      | .unit low :: rest =>
        if 0xDC00 ≤ low ∧ low < 0xE000 then
          (text? rest).map (Char.ofNat (0x10000 + (high - 0xD800) * 0x400 + (low - 0xDC00)) :: ·)
        else none
      | _ => none
    else if 0xDC00 ≤ high ∧ high < 0xE000 then none
    else (text? rest).map (Char.ofNat high :: ·)

/-- What has been read of the token at hand; lists are in reverse order. -/
inductive Reading where
  /-- Nothing: a token or a blank may begin. -/
  | between
  /-- The inside of a string. -/
  | string (pieces : List Piece)
  /-- A string and a backslash in it. -/
  | escape (pieces : List Piece)
  /-- A string and an escape in it with `count` digits still to come after the value so far. -/
  | hexadecimal (pieces : List Piece) (count code : Nat)
  /-- A number or a word. -/
  | word (chars : List Char)

/-- Whether a character may stand in a number, `true`, `false` or `null`. -/
def isWordChar (c : Char) : Bool := c.isAlphanum || c == '-' || c == '+' || c == '.'

/-- Whether JSON takes a character for blank. -/
def isSpace (c : Char) : Bool := c == ' ' || c == '\n' || c == '\t' || c == '\r'

/-- The value that a finished word writes. -/
def word? (chars : List Char) : Option Json :=
  if chars = "null".toList then some .null
  else if chars = "true".toList then some (.bool true)
  else if chars = "false".toList then some (.bool false)
  else (Numeral.ofChars? chars).map .number

/-- The punctuation that a character is. -/
def punctuation? (c : Char) : Option Token :=
  if c = '[' then some .openArray
  else if c = ']' then some .closeArray
  else if c = '{' then some .openObject
  else if c = '}' then some .closeObject
  else if c = ',' then some .comma
  else if c = ':' then some .colon
  else none

/-- The character that a one-letter escape stands for. -/
def unescape? (c : Char) : Option Char :=
  if c = '"' ∨ c = '\\' ∨ c = '/' then some c
  else if c = 'b' then some '\x08'
  else if c = 'f' then some '\x0c'
  else if c = 'n' then some '\n'
  else if c = 'r' then some '\r'
  else if c = 't' then some '\t'
  else none

/-- Read a character where a token or a blank may begin. -/
def begin? (found : List Token) (c : Char) : Option (Reading × List Token) :=
  if isSpace c then some (.between, found)
  else if c = '"' then some (.string [], found)
  else if isWordChar c then some (.word [c], found)
  else (punctuation? c).map fun token => (.between, token :: found)

/-- Read one character: what has then been read of the token at hand, and the tokens before it in
reverse order. -/
def read? (reading : Reading) (found : List Token) (c : Char) :
    Option (Reading × List Token) :=
  match reading with
  | .between => begin? found c
  | .string pieces =>
    if c = '"' then
      some (.between, .string ((Piece.text? pieces.reverse).map String.ofList) :: found)
    else if c = '\\' then some (.escape pieces, found)
    else if c.toNat < 0x20 then none
    else some (.string (.char c :: pieces), found)
  | .escape pieces =>
    if c = 'u' then some (.hexadecimal pieces 4 0, found)
    else (unescape? c).map fun plain => (.string (.char plain :: pieces), found)
  | .hexadecimal pieces count code =>
    (Text.hexDigit? c).map fun digit =>
      let code := 16 * code + digit
      if count ≤ 1 then (.string (.unit code :: pieces), found)
      else (.hexadecimal pieces (count - 1) code, found)
  | .word chars =>
    if isWordChar c then some (.word (c :: chars), found)
    else
      match word? chars.reverse with
      | some value => begin? (.literal value :: found) c
      | none => none

/-- The tokens of a text that ends here. -/
def finish? (reading : Reading) (found : List Token) : Option (List Token) :=
  match reading with
  | .between => some found.reverse
  | .word chars => (word? chars.reverse).map fun value => (Token.literal value :: found).reverse
  | _ => none

/-- The tokens of the rest of a text. -/
def tokensFrom? (reading : Reading) (found : List Token) : List Char → Option (List Token)
  | [] => finish? reading found
  | c :: rest =>
    match read? reading found c with
    | some (reading, found) => tokensFrom? reading found rest
    | none => none

/-- The tokens of a text. -/
def tokens? (text : List Char) : Option (List Token) := tokensFrom? .between [] text

end DirectionCentral.Json

import DirectionCentral.Json.Numeral

/-!
# JSON values

A JSON text as a tree. Members of an object keep their order and may repeat a name. A string
written with an unpaired surrogate escape is well-formed JSON but denotes no text, so the text of a
string, and of a name, is optional.
-/

namespace DirectionCentral

/-- A JSON value. -/
inductive Json where
  /-- The value `null`. -/
  | null
  /-- A truth value. -/
  | bool (value : Bool)
  /-- A number as it is written. -/
  | number (numeral : Numeral)
  /-- A string; `none` if an unpaired surrogate keeps it from denoting a text. -/
  | string (text : Option String)
  /-- A list of values. -/
  | array (items : List Json)
  /-- Named values in order. -/
  | object (members : List (Option String × Json))

namespace Json

/-- The value of a text. -/
def ofString (text : String) : Json := .string (some text)

/-- The value of an integer. -/
def ofInt (value : Int) : Json := .number (.ofInt value)

/-- The value of a natural number. -/
def ofNat (value : Nat) : Json := .number (.ofInt value)

/-- The value of an optional one; `null` for none. -/
def ofOption {α : Type} (encode : α → Json) : Option α → Json
  | none => .null
  | some value => encode value

/-- The value of a list. -/
def ofList {α : Type} (encode : α → Json) (values : List α) : Json := .array (values.map encode)

/-- An object with the given members. -/
def record (members : List (String × Json)) : Json :=
  .object (members.map fun (name, value) => (some name, value))

/-- The text of a string. -/
def string? : Json → Option String
  | .string text => text
  | _ => none

/-- The value of a truth value. -/
def bool? : Json → Option Bool
  | .bool value => some value
  | _ => none

/-- The items of an array. -/
def items? : Json → Option (List Json)
  | .array items => some items
  | _ => none

/-- The integer that a number stands for. -/
def int? : Json → Option Int
  | .number numeral => numeral.integer?
  | _ => none

/-- The natural number that a number stands for, if it is below `bound`. -/
def natBelow? (bound : Nat) (value : Json) : Option Nat :=
  match value.int? with
  | some (.ofNat n) => if n < bound then some n else none
  | _ => none

/-- An unsigned byte. -/
def uint8? (value : Json) : Option UInt8 := (value.natBelow? UInt8.size).map UInt8.ofNat

/-- An unsigned 16-bit integer. -/
def uint16? (value : Json) : Option UInt16 := (value.natBelow? UInt16.size).map UInt16.ofNat

/-- An unsigned 32-bit integer. -/
def uint32? (value : Json) : Option UInt32 := (value.natBelow? UInt32.size).map UInt32.ofNat

/-- An unsigned 64-bit integer. -/
def uint64? (value : Json) : Option UInt64 := (value.natBelow? UInt64.size).map UInt64.ofNat

/-- A signed 32-bit integer. -/
def int32? (value : Json) : Option Int32 :=
  value.int?.bind fun n =>
    if -0x80000000 ≤ n ∧ n ≤ 0x7FFFFFFF then some (Int32.ofInt n) else none

/-- A signed 64-bit integer. -/
def int64? (value : Json) : Option Int64 :=
  value.int?.bind fun n =>
    if -0x8000000000000000 ≤ n ∧ n ≤ 0x7FFFFFFFFFFFFFFF then some (Int64.ofInt n) else none

/-- A list whose items are read by `decode`. -/
def list? {α : Type} (decode : Json → Option α) (value : Json) : Option (List α) :=
  value.items?.bind (·.mapM decode)

/-- The member of an object with the given name. -/
def member? (name : String) : Json → Option Json
  | .object members => members.lookup (some name)
  | _ => none

end Json

end DirectionCentral

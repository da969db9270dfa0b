import DirectionCentral.Json.Value

/-!
# Records in JSON

A record with named fields is written as an object with its fields in order. It is read from an
object, whose other members are ignored, or from an array of the field values in order. No field may
be given twice, and every name in the object must denote a text.
-/

namespace DirectionCentral.Json

/-- Whether the members give each of the names at most once, and only under names that denote a
text. -/
def namesOnce (names : List String) (members : List (Option String × Json)) : Bool :=
  members.all (·.1.isSome) &&
    names.all fun name => members.countP (fun member => member.1 == some name) ≤ 1

/-- The values of the named fields in order; `none` in the place of one that is missing. An array
must hold exactly the fields. -/
def fields? (names : List String) : Json → Option (List (Option Json))
  | .array items => if items.length = names.length then some (items.map some) else none
  | .object members =>
    if namesOnce names members then some (names.map fun name => members.lookup (some name))
    else none
  | _ => none

/-- The values of the named fields in order, where an array may also end early. -/
def optionalFields? (names : List String) : Json → Option (List (Option Json))
  | .array items =>
    if items.length ≤ names.length then
      some (items.map some ++ List.replicate (names.length - items.length) none)
    else none
  | value => fields? names value

end DirectionCentral.Json

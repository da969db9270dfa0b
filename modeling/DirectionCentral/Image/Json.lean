import DirectionCentral.Image
import DirectionCentral.Json.Printer
import DirectionCentral.Json.Reader
import DirectionCentral.Json.Record

/-!
# Image documents

The JSON document of an image: an object with the list of its segments, each an object with its
start and its words. A saved document is indented. A document without any word is well-formed but is
not loaded.
-/

namespace DirectionCentral

namespace Segment

/-- The fields of a segment in a document. -/
def fieldNames : List String := ["start", "words"]

/-- The JSON value of a segment. -/
def toJson (s : Segment) : Json :=
  .record [("start", .ofNat s.start.toNat), ("words", .ofList (fun w => .ofNat w.toNat) s.words)]

/-- The segment that a JSON value describes. -/
def ofJson? (value : Json) : Option Segment :=
  match value.fields? fieldNames with
  | some [some start, some words] => do
    let start ← start.uint64?
    let words ← words.list? Json.uint32?
    some ⟨start, words⟩
  | _ => none

end Segment

namespace Image

/-- The fields of an image in a document. -/
def fieldNames : List String := ["segments"]

/-- The JSON value of an image. -/
def toJson (image : Image) : Json := .record [("segments", .ofList Segment.toJson image.segments)]

/-- The image that a JSON value describes. -/
def ofJson? (value : Json) : Option Image :=
  match value.fields? fieldNames with
  | some [some segments] => do
    let segments ← segments.list? Segment.ofJson?
    some ⟨segments⟩
  | _ => none

/-- The document of an image. -/
def toDocument (image : Image) : String := image.toJson.indentedText

/-- The image that a document describes. -/
def ofDocument? (text : String) : Option Image := (Json.parse? text).bind ofJson?

/-- Why a document is not loaded. -/
inductive DocumentError where
  /-- The document does not describe an image. -/
  | malformed
  /-- The image has no words. -/
  | empty
deriving DecidableEq

/-- The error in words. -/
def DocumentError.message : DocumentError → String
  | malformed => "malformed image: the text is not that of an image"
  | empty => "image contains no words"

/-- The image that a document describes, if it has at least one word. -/
def loadDocument (text : String) : Except DocumentError Image :=
  match ofDocument? text with
  | none => .error .malformed
  | some image => if image.isEmpty then .error .empty else .ok image

end Image

end DirectionCentral

import DirectionCentral.Word

/-!
# Program images

An image says which words go where: a list of segments, each a run of words from an address on.
Where segments overlap the later one counts.
-/

namespace DirectionCentral

/-- A run of words. -/
structure Segment where
  /-- The address of the first word. -/
  start : UInt64
  /-- The words in the order of their addresses. -/
  words : List Word
deriving DecidableEq

/-- A program to be loaded. -/
structure Image where
  /-- The segments in the order in which they are loaded. -/
  segments : List Segment := []
deriving DecidableEq

namespace Segment

/-- The word that a segment puts at an address, if any. -/
def wordAt? (s : Segment) (address : UInt64) : Option Word :=
  if s.start ≤ address then s.words[address.toNat - s.start.toNat]? else none

end Segment

namespace Image

/-- The image with a single segment. -/
def ofWords (start : UInt64) (words : List Word) : Image := ⟨[⟨start, words⟩]⟩

/-- The number of words of all segments. -/
def size (image : Image) : Nat := (image.segments.flatMap (·.words)).length

/-- Whether an image has no words. -/
def isEmpty (image : Image) : Bool := image.size == 0

/-- The word that an image puts at an address, if any: that of the last segment that has one. -/
def wordAt? (image : Image) (address : UInt64) : Option Word :=
  image.segments.reverse.findSome? (·.wordAt? address)

end Image

end DirectionCentral

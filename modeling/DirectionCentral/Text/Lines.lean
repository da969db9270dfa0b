/-!
# Lines

A newline ends a line; text after the last newline is a line of its own. A carriage return before a
newline stays in its line: it is blank, and readers of lines trim blanks.
-/

namespace DirectionCentral.Text

/-- Put one more character in front of a text that is already split into lines. -/
def consLine (c : Char) : List (List Char) → List (List Char)
  | lines =>
    if c = '\n' then [] :: lines
    else
      match lines with
      | [] => [[c]]
      | line :: rest => (c :: line) :: rest

/-- The lines of a text, without their newlines. -/
def lines (text : List Char) : List (List Char) := text.foldr consLine []

/-- Lines put together, each ended by a newline. -/
def unlines (lines : List (List Char)) : List Char := lines.flatMap (· ++ ['\n'])

/-- The part of a text before the first character that satisfies `stop`, and the part after it,
if there is one. -/
def splitAtFirst (stop : Char → Bool) (text : List Char) : List Char × Option (List Char) :=
  match text.dropWhile (!stop ·) with
  | [] => (text, none)
  | _ :: rest => (text.takeWhile (!stop ·), some rest)

/-- The part of a text before the last character that satisfies `stop`, and the part after it,
if there is one. -/
def splitAtLast (stop : Char → Bool) (text : List Char) : Option (List Char × List Char) :=
  match splitAtFirst stop text.reverse with
  | (_, none) => none
  | (last, some front) => some (front.reverse, last.reverse)

/-- A newline ends the line before it. -/
theorem lines_newline (text : List Char) : lines ('\n' :: text) = [] :: lines text := by
  simp [lines, consLine]

end DirectionCentral.Text

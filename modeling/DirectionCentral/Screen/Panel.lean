/-!
# Panels

A picture of character cells, each with a style. A panel is a box with a title in its upper border
and lines of text inside, cut off where the box ends. Panels are put together side by side and one
above the other.
-/

namespace DirectionCentral.Screen

/-- The colours of text. -/
inductive Colour where
  /-- What the terminal takes without asking. -/
  | standard
  | yellow
  | red
  | cyan
  | white
  | green
  | magenta
  | gray
  | blue
  | darkGray
deriving DecidableEq

/-- How a character is shown. -/
structure Style where
  /-- Its colour. -/
  colour : Colour := .standard
  /-- Whether it is bold. -/
  bold : Bool := false
deriving DecidableEq

/-- A character cell. -/
structure Glyph where
  /-- The character. -/
  char : Char
  /-- How it is shown. -/
  style : Style
deriving DecidableEq

/-- Cells side by side. -/
abbrev Row := List Glyph

/-- A text in one style. -/
def styled (style : Style) (text : String) : Row := text.toList.map fun c => ⟨c, style⟩

/-- A row cut off or filled up to a width. -/
def fit (width : Nat) (fill : Glyph) (row : Row) : Row :=
  row.take width ++ List.replicate (width - row.length) fill

/-- A line of text inside a panel. -/
structure Line where
  /-- The text. -/
  text : Row
  /-- The style of the cells after the text. -/
  rest : Style

/-- A line in one style, to the end of the row. -/
def Line.uniform (style : Style) (text : String) : Line := ⟨styled style text, style⟩

/-- A box with a title and lines of text. -/
structure Panel where
  /-- The title. -/
  title : String
  /-- The style of the border and the title. -/
  border : Style
  /-- The style of rows without text. -/
  blank : Style := {}
  /-- The lines from the top. -/
  lines : List Line

/-- The row of a line inside a panel of the given inner width. -/
def Panel.innerRow (p : Panel) (width : Nat) (line? : Option Line) : Row :=
  let side : Glyph := ⟨'│', p.border⟩
  let inner :=
    match line? with
    | some line => fit width ⟨' ', line.rest⟩ line.text
    | none => fit width ⟨' ', p.blank⟩ []
  side :: (inner ++ [side])

/-- The picture of a panel in a width and a height of at least two, cut off at the width. -/
def Panel.draw (p : Panel) (width height : Nat) : List Row :=
  let edge (left right : Char) (title : String) : Row :=
    ⟨left, p.border⟩ ::
      (fit (width - 2) ⟨'─', p.border⟩ (styled p.border title) ++ [⟨right, p.border⟩])
  let rows :=
    edge '┌' '┐' p.title ::
      ((List.range (height - 2)).map fun k => p.innerRow (width - 2) p.lines[k]?) ++
      [edge '└' '┘' ""]
  rows.map (·.take width)

/-- Two pictures of one height side by side. -/
def beside (left right : List Row) : List Row := List.zipWith (· ++ ·) left right

end DirectionCentral.Screen

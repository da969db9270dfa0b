/-!
# Paths

A path is a text of names between slashes. Two paths are taken for the same if their components are:
repeated and closing slashes do not count, nor does the name `.`, except at the beginning. This
compares texts and not files: `./a` and `a` differ, though they name one file.
-/

namespace DirectionCentral.Path

/-- The names between the slashes of a path, some of which may be empty. -/
def pieces (path : String) : List (List Char) := path.toList.splitOn '/'

/-- Whether a path begins at the root. -/
def isAbsolute (path : String) : Bool := path.toList.head? == some '/'

/-- The names of a path that count. -/
def names (path : String) : List (List Char) :=
  let counts (name : List Char) : Bool := name != [] && name != ['.']
  match pieces path with
  | ['.'] :: rest => ['.'] :: rest.filter counts
  | all => all.filter counts

/-- Whether two paths have the same components. -/
def same (left right : String) : Bool :=
  isAbsolute left == isAbsolute right && names left == names right

/-- A reversed path without what does not count at its end: slashes, and `.` after a slash. -/
def dropClosing : List Char → List Char
  | '/' :: rest => dropClosing rest
  | '.' :: '/' :: rest => dropClosing rest
  | reversed => reversed

/-- The part of a file name before its last point; all of it if there is no point but at the
beginning. -/
def stem (name : List Char) : List Char :=
  match name.reverse.dropWhile (· != '.') with
  | [] => name
  | _ :: before => if before.isEmpty then name else before.reverse

/-- The path with another extension in the place of the one it has, if it has one. The old extension
is cut off the end of the text first; what then does not end in the name of a file stays as it is.
So `..` is what becomes of `..json`: without its extension that names a directory. -/
def withExtension (extension path : String) : String :=
  let reversed := dropClosing path.toList.reverse
  let name := (reversed.takeWhile (· != '/')).reverse
  let directory := (reversed.dropWhile (· != '/')).reverse
  if name = [] ∨ name = ['.'] ∨ name = ['.', '.'] then path
  else if stem name = ['.'] ∧ reversed = path.toList.reverse then
    String.ofList (directory ++ ['.', '.'])
  else String.ofList (directory ++ stem name ++ '.' :: extension.toList)

end DirectionCentral.Path

import DirectionCentral.CommandLine.Path

/-!
# Files

The files that a program sees from its working directory. The directories above it and the root hold
nothing but what every system has: the standard directories in the root, and the null device. A
directory exists if it is one of these or a file lies under it. The names `.` and `..` and repeated
slashes are understood as usual, and names and paths are limited in length.
-/

namespace DirectionCentral

/-- Why a file is not read or written. -/
inductive FileError where
  /-- There is no such file or directory. -/
  | notFound
  /-- A name that something is sought under is not a directory's. -/
  | notADirectory
  /-- The path names a directory. -/
  | isADirectory
  /-- A name, or the path as a whole, is longer than the system takes. -/
  | nameTooLong
  /-- The content is not text. -/
  | notText
  /-- Another reason, in words. -/
  | other (text : String)
deriving DecidableEq

/-- The error in words. -/
def FileError.message : FileError → String
  | notFound => "No such file or directory (os error 2)"
  | notADirectory => "Not a directory (os error 20)"
  | isADirectory => "Is a directory (os error 21)"
  | nameTooLong => "File name too long (os error 36)"
  | notText => "stream did not contain valid UTF-8"
  | other text => text

/-- The text of a file with the given content. -/
def textOfBytes (bytes : ByteArray) : Except FileError String :=
  match String.fromUTF8? bytes with
  | some text => .ok text
  | none => .error .notText

/-- A directory that names are followed from. -/
inductive Base where
  /-- The directory so many levels above the working directory. -/
  | above (levels : Nat)
  /-- The root. -/
  | root
deriving DecidableEq

/-- A place for a file or directory: the names that lead to it from a base. -/
structure Place where
  /-- Where the names begin. -/
  base : Base := .above 0
  /-- The names on the way, none of which is `.` or `..`. -/
  names : List (List Char) := []
deriving DecidableEq

namespace Place

/-- The place of a name in a directory. -/
def child (place : Place) (name : List Char) : Place := { place with names := place.names ++ [name] }

/-- The directory that a place is in. The root is in itself. -/
def parent (place : Place) : Place :=
  if place.names.isEmpty then
    match place.base with
    | .above levels => { base := .above (levels + 1) }
    | .root => place
  else { place with names := place.names.dropLast }

/-- Whether a place lies in a directory or below it. -/
def isUnder (place directory : Place) : Bool :=
  place.base == directory.base && directory.names.isPrefixOf place.names

/-- The text of a path to a place from its base. -/
def text (place : Place) : String := String.intercalate "/" (place.names.map String.ofList)

/-- The standard directories of a root. -/
def standardDirectories : List Place :=
  ["bin", "boot", "dev", "etc", "lib", "media", "mnt", "opt", "run", "sbin", "srv", "tmp", "usr",
    "var"].map fun name => { base := .root, names := [name.toList] }

/-- The null device, which is empty and takes anything. -/
def nullDevice : Place := { base := .root, names := ["dev".toList, "null".toList] }

end Place

/-- Files with their contents. -/
structure Files where
  /-- The places and contents of the files. -/
  entries : List (Place × ByteArray) := []

namespace Files

/-- The greatest number of bytes in a name. -/
def longestName : Nat := 255

/-- The greatest number of bytes in a path. -/
def longestPath : Nat := 4095

/-- Whether a name has more bytes than the system takes. -/
def isTooLong (name : List Char) : Bool := longestName < (String.ofList name).utf8ByteSize

/-- The content at a place, if a file is there. -/
def content? (files : Files) (place : Place) : Option ByteArray :=
  if place = .nullDevice then some .empty else files.entries.lookup place

/-- Whether a directory is at a place. -/
def hasDirectory (files : Files) (place : Place) : Bool :=
  place.names.isEmpty || Place.standardDirectories.contains place ||
    files.entries.any fun (file, _) => file.isUnder place && file != place

/-- Follow names from a directory to a place where something may be or not be. Returns the place and
whether it must be a directory, because the path goes on with a slash or ends in dots. -/
def walk (files : Files) (place : Place) : List (List Char) → Except FileError (Place × Bool)
  | [] => .ok (place, true)
  | name :: rest =>
    if name = [] ∨ name = ['.'] then walk files place rest
    else if name = ['.', '.'] then walk files place.parent rest
    else if rest.all (·.isEmpty) then .ok (place.child name, !rest.isEmpty)
    else if isTooLong name then .error .nameTooLong
    else if files.hasDirectory (place.child name) then walk files (place.child name) rest
    else if (files.content? (place.child name)).isSome then .error .notADirectory
    else .error .notFound

/-- The place that a path leads to. -/
def resolve (files : Files) (path : String) : Except FileError (Place × Bool) :=
  if path.isEmpty then .error .notFound
  else if longestPath < path.utf8ByteSize then .error .nameTooLong
  else
    files.walk { base := if Path.isAbsolute path then .root else .above 0 } (Path.pieces path)

/-- The content of the file that a path names. -/
def read (files : Files) (path : String) : Except FileError ByteArray :=
  (files.resolve path).bind fun (place, asDirectory) =>
    if place.names.any isTooLong then .error .nameTooLong
    else if files.hasDirectory place then .error .isADirectory
    else
      match files.content? place with
      | some bytes => if asDirectory then .error .notADirectory else .ok bytes
      | none => .error .notFound

/-- The text of the file that a path names. -/
def readText (files : Files) (path : String) : Except FileError String :=
  (files.read path).bind textOfBytes

/-- The files after one at a place has been given a content. The null device keeps nothing. -/
def put (files : Files) (place : Place) (bytes : ByteArray) : Files :=
  if place = .nullDevice then files
  else { entries := (place, bytes) :: files.entries.filter fun (other, _) => other != place }

/-- The files after the one that a path names has been given a text; its directory must exist. A
path that ends like a directory's is refused before its last name is looked at. -/
def write (files : Files) (path text : String) : Except FileError Files :=
  (files.resolve path).bind fun (place, asDirectory) =>
    if asDirectory then .error .isADirectory
    else if place.names.any isTooLong then .error .nameTooLong
    else if files.hasDirectory place then .error .isADirectory
    else .ok (files.put place text.toUTF8)

/-- The files after one in the working directory, whose path is a list of names, has been given a
content. -/
def add (files : Files) (path : String) (bytes : ByteArray) : Files :=
  files.put { names := Path.names path } bytes

/-- The files under the working directory that are new or have another content than in `before`,
under their paths. -/
def changes (files before : Files) : List (String × ByteArray) :=
  (files.entries.filter fun (place, bytes) =>
      place.base == .above 0 &&
        match before.content? place with
        | some old => old.toList != bytes.toList
        | none => true).map fun (place, bytes) => (place.text, bytes)

end Files

end DirectionCentral

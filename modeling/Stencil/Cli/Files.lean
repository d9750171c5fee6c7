/-!
# Trees of files

The files that a command works on: a tree that is searched by relative or absolute paths. A path is
followed name by name, and every name but the last one has to lead to a directory. Main statements:
what has been written is read back from the same place (`entryAt_setFile`), and a file that holds a
text is read as that text (`readText_of_entryAt`).
-/

namespace Stencil.Cli

/-! ## Trees -/

/-- Why a file cannot be read or written. -/
inductive FileError where
  | notFound
  /-- A name on the way leads to a file. -/
  | notDirectory
  /-- The path leads to a directory. -/
  | isDirectory
  /-- The bytes of the file are no UTF-8 text. -/
  | notText
  deriving DecidableEq, Repr

/-- The error in words. -/
def FileError.message : FileError → String
  | .notFound => "No such file or directory (os error 2)"
  | .notDirectory => "Not a directory (os error 20)"
  | .isDirectory => "Is a directory (os error 21)"
  | .notText => "stream did not contain valid UTF-8"

/-- A place in a tree: the names on the way to it from the working directory, or from the root
directory if the first one is a slash. -/
abbrev Place := List String

/-- What is at a place. -/
inductive Entry where
  | file (content : ByteArray)
  | directory

/-- A tree of files. A place on the way to another one is a directory. -/
structure Files where
  entries : List (Place × Entry) := []

namespace Files

/-- Whether a place is a directory by itself or because it is on the way to another place. -/
def isOnTheWay (files : Files) (place : Place) : Bool :=
  place = [] || place = ["/"] || files.entries.any fun e => place.isPrefixOf e.1

/-- What is at a place. -/
def entryAt (files : Files) (place : Place) : Option Entry :=
  match files.entries.lookup place with
  | some e => some e
  | none => if files.isOnTheWay place then some .directory else none

/-- The tree with something else at a place. -/
def set (files : Files) (place : Place) (e : Entry) : Files :=
  ⟨(place, e) :: files.entries.filter fun other => other.1 ≠ place⟩

/-- What has been written is read back from the same place. -/
theorem entryAt_setFile (files : Files) (place : Place) (e : Entry) :
    (files.set place e).entryAt place = some e := by
  simp [entryAt, set]

/-! ## Paths -/

/-- The place above a place. -/
def above (place : Place) : Place :=
  if place.all (· = "..") then place ++ [".."]
  else if place = ["/"] then place
  else place.dropLast

/-- The place that some names lead to from a place. -/
def follow (files : Files) (here : Place) : List String → Except FileError Place
  | [] => .ok here
  | name :: names =>
    match files.entryAt here with
    | none => .error .notFound
    | some (.file _) => .error .notDirectory
    | some .directory =>
      if name = "" ∨ name = "." then follow files here names
      else if name = ".." then follow files (above here) names
      else follow files (here ++ [name]) names

/-- Where a path starts. -/
def origin (path : String) : Place :=
  if path.startsWith "/" then ["/"] else []

/-- The place that a path leads to. -/
def locate (files : Files) (path : String) : Except FileError Place :=
  if path = "" then .error .notFound
  else files.follow (origin path) (path.splitOn "/")

/-- The place that a path leads to in a tree where every name on the way is a directory. -/
def placeOf (path : String) : Place :=
  (path.splitOn "/").foldl
    (fun here name =>
      if name = "" ∨ name = "." then here
      else if name = ".." then above here
      else here ++ [name])
    (origin path)

/-! ## Reading and writing -/

/-- Whether a path leads to something. -/
def contains (files : Files) (path : String) : Bool :=
  match files.locate path with
  | .error _ => false
  | .ok place => (files.entryAt place).isSome

/-- The bytes of a file. -/
def readBytes (files : Files) (path : String) : Except FileError ByteArray := do
  match files.entryAt (← files.locate path) with
  | none => .error .notFound
  | some .directory => .error .isDirectory
  | some (.file content) => .ok content

/-- The text of a file. -/
def readText (files : Files) (path : String) : Except FileError String := do
  match String.fromUTF8? (← files.readBytes path) with
  | none => .error .notText
  | some text => .ok text

/-- The tree with a text in a file, which may be a new one. -/
def writeText (files : Files) (path text : String) : Except FileError Files := do
  let place ← files.locate path
  match files.entryAt place with
  | some .directory => .error .isDirectory
  | _ => .ok (files.set place (.file text.toUTF8))

/-- A text is read back from its bytes. -/
theorem fromUTF8?_toUTF8 (text : String) : String.fromUTF8? text.toUTF8 = some text :=
  dif_pos text.isValidUTF8

/-- A file that holds a text is read as that text. -/
theorem readText_of_entryAt {files : Files} {path text : String} {place : Place}
    (hplace : files.locate path = .ok place)
    (hentry : files.entryAt place = some (.file text.toUTF8)) :
    files.readText path = .ok text := by
  have hbytes : files.readBytes path = .ok text.toUTF8 := by
    simp only [readBytes, hplace, bind, Except.bind, hentry]
  simp only [readText, hbytes, bind, Except.bind, fromUTF8?_toUTF8]

/-- Where there is nothing, nothing is read. -/
theorem readText_of_entryAt_eq_none {files : Files} {path : String} {place : Place}
    (hplace : files.locate path = .ok place) (hentry : files.entryAt place = none) :
    files.readText path = .error .notFound := by
  simp only [readText, readBytes, hplace, bind, Except.bind, hentry]

end Files

end Stencil.Cli

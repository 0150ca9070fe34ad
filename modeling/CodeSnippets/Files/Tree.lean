/-
  A tree of files, and what paths in it lead to.

  A place is the list of the names from the root down.  A path is a text that is
  walked from the root or from the working directory, part by part:

  * every part that is left behind must be a directory, also in front of a slash at
    the end;
  * an empty part and `.` stay where they are, and `..` goes up;
  * any other part must be a name in the directory, of at most 255 bytes.

  `read`, `write`, `makeDirectories`, `holds` and `canonical` are the operations on
  the files under paths.  An operation that fails changes nothing, except that
  `makeDirectories` keeps the directories that it made first.
-/
import CodeSnippets.Files.Error
import CodeSnippets.Text.Utf8

namespace CodeSnippets

/-- What is found at a place. -/
inductive FileNode where
  | file (content : ByteArray)
  | directory

/-- The names from the root down. -/
abbrev Place := List Text

/-- A tree of files with a working directory. -/
structure FileTree where
  node : Place → Option FileNode
  here : Place

namespace FileTree

/-- The tree that holds its root alone. -/
def empty : FileTree := ⟨fun p => if p = [] then some .directory else none, []⟩

/-- The tree with another node at a place. -/
def put (t : FileTree) (place : Place) (n : FileNode) : FileTree :=
  { t with node := fun p => if p = place then some n else t.node p }

/-! ## Paths -/

/-- How many bytes a name has at most. -/
def maxNameBytes : Nat := 255

/-- How many bytes a path has at most. -/
def maxPathBytes : Nat := 4095

/-- A place that has to be a directory. -/
def directoryAt (t : FileTree) (place : Place) : Except FileError Place :=
  match t.node place with
  | some .directory => .ok place
  | some (.file _) => .error .notADirectory
  | none => .error .notFound

/-- The place of a name in a directory, whether it is there or not. -/
def inside (place : Place) (name : Text) : Except FileError Place :=
  if maxNameBytes < name.toUtf8.size then .error .nameTooLong else .ok (place ++ [name])

/-- A part of a path that names no entry of a directory. -/
def isDots (part : Text) : Bool := part == ['.'] || part == ['.', '.']

/-- The place that a part of a path leads to from another. -/
def enter (t : FileTree) (place : Place) (part : Text) : Except FileError Place := do
  let place ← t.directoryAt place
  if part.isEmpty || part = ['.'] then return place
  else if part = ['.', '.'] then return place.dropLast
  else
    let place ← inside place part
    if (t.node place).isSome then return place else throw .notFound

/-- The parts of a path, if a path can be like that. -/
def partsOf (path : Text) : Except FileError (List Text) :=
  if path.contains '\x00' then .error .nulInName
  else if path.isEmpty then .error .notFound
  else if maxPathBytes < path.toUtf8.size then .error .nameTooLong
  else .ok (path.splitOn '/')

/-- Where a path begins. -/
def start (t : FileTree) (path : Text) : Place := if path.head? = some '/' then [] else t.here

/-- The place that a path leads to, where there is something. -/
def canonical (t : FileTree) (path : Text) : Except FileError Place := do
  (← partsOf path).foldlM t.enter (t.start path)

/-! ## Files -/

/-- Whether a path leads to something. -/
def holds (t : FileTree) (path : Text) : Bool := (t.canonical path).isOk

/-- The content of a file. -/
def read (t : FileTree) (path : Text) : Except FileError ByteArray := do
  match t.node (← t.canonical path) with
  | some (.file content) => return content
  | some .directory => throw .isADirectory
  | none => throw .notFound

/-- Puts a file into a directory, in place of the file that may be there. -/
def putFile (t : FileTree) (place : Place) (content : ByteArray) : Except FileError FileTree :=
  match t.node place with
  | some .directory => .error .isADirectory
  | _ => .ok (t.put place (.file content))

/-- Writes a file.  The last part of the path is its name, which has no slash
    behind it. -/
def write (t : FileTree) (path : Text) (content : ByteArray) : Except FileError FileTree := do
  let parts ← partsOf path
  let named := Text.dropEndWhile (· == '/') path
  match (named.splitOn '/').reverse with
  | [] => throw .isADirectory
  | name :: parents =>
    let directory ← t.directoryAt (← parents.reverse.foldlM t.enter (t.start path))
    if parts.length != parents.length + 1 || name.isEmpty || isDots name then throw .isADirectory
    else t.putFile (← inside directory name) content

/-- Goes to a part of a path and makes the directory if it is missing. -/
def enterOrMake (t : FileTree) (place : Place) (part : Text) :
    Except FileError (FileTree × Place) := do
  match t.enter place part with
  | .ok place => return (t, place)
  | .error .notFound =>
    let place ← inside place part
    return (t.put place .directory, place)
  | .error e => throw e

/-- Makes all directories of a path that are missing. -/
def makeDirectories (t : FileTree) (path : Text) : Except FileError Unit × FileTree :=
  match partsOf path with
  | .error e => (.error e, t)
  | .ok parts => go t (t.start path) parts
where
  /-- Goes on from a place. -/
  go (t : FileTree) (place : Place) : List Text → Except FileError Unit × FileTree
    | [] =>
      match t.node place with
      | some .directory => (.ok (), t)
      | _ => (.error .alreadyExists, t)
    | part :: rest =>
      match t.enterOrMake place part with
      | .error e => (.error e, t)
      | .ok (t, place) => go t place rest

end FileTree

/-- A place as a path from the root. -/
def Place.path (p : Place) : Text := if p = [] then ['/'] else p.flatMap ('/' :: ·)

end CodeSnippets

/-
  The surroundings in which the application runs.

  `Host` has the operations that the application asks of them: files, the standard
  input and environment variables.  `Machine` is a state of such surroundings, and
  the operations on it are those of its tree of files.

  `readText`, `inputText` and `writeText` are these operations for files that hold
  text; bytes that are no text are an error.
-/
import CodeSnippets.Files.Tree

namespace CodeSnippets

/-- Surroundings in which the application runs. -/
class Host (m : Type → Type) where
  /-- the content of the file under a path -/
  read : Text → m (Except FileError ByteArray)
  /-- puts a content into the file under a path -/
  write : Text → ByteArray → m (Except FileError Unit)
  /-- makes the directories of a path that are missing -/
  makeDirectories : Text → m (Except FileError Unit)
  /-- whether a path leads to something -/
  holds : Text → m Bool
  /-- the absolute path of what a path leads to -/
  canonical : Text → m (Except FileError Text)
  /-- the whole standard input -/
  input : m (Except FileError ByteArray)
  /-- the value of an environment variable -/
  environment : Text → m (Option Text)

/-! ## Text in files -/

/-- The text that the content of a file is. -/
def decodeContent (content : ByteArray) : Except FileError Text :=
  match Text.ofUtf8? content with
  | some t => .ok t
  | none => .error .notUtf8

namespace Host

variable {m : Type → Type} [Monad m] [Host m]

/-- The text in the file under a path. -/
def readText (path : Text) : m (Except FileError Text) := do
  return (← Host.read path).bind decodeContent

/-- The text on the standard input. -/
def inputText : m (Except FileError Text) := do
  return (← Host.input).bind decodeContent

/-- Puts a text into the file under a path. -/
def writeText (path t : Text) : m (Except FileError Unit) := Host.write path t.toUtf8

end Host

/-! ## A state of the surroundings -/

/-- A machine with files, a standard input and environment variables. -/
structure Machine where
  files : FileTree
  input : ByteArray
  environment : List (Text × Text)

namespace Machine

/-- Writes a file, unless that fails. -/
def write (path : Text) (content : ByteArray) (w : Machine) : Except FileError Unit × Machine :=
  match w.files.write path content with
  | .ok files => (.ok (), { w with files })
  | .error e => (.error e, w)

/-- Makes directories. -/
def makeDirectories (path : Text) (w : Machine) : Except FileError Unit × Machine :=
  let (result, files) := w.files.makeDirectories path
  (result, { w with files })

instance : Host (StateM Machine) where
  read path := fun w => (w.files.read path, w)
  write := write
  makeDirectories := makeDirectories
  holds path := fun w => (w.files.holds path, w)
  canonical path := fun w => ((w.files.canonical path).map Place.path, w)
  input := fun w => (.ok w.input, w)
  environment name := fun w => ((w.environment.find? fun v => v.1 == name).map Prod.snd, w)

end Machine

end CodeSnippets

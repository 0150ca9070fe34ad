/-
  Paths as texts.

  * `joinPath`: a path seen from a directory;
  * `parentPath`: the path without its last part.
-/
import CodeSnippets.Text.Basic

namespace CodeSnippets

/-- Whether a path begins at the root. -/
def isAbsolutePath (path : Text) : Bool := path.head? == some '/'

/-- A path seen from a directory; an absolute one is the same from everywhere. -/
def joinPath (directory path : Text) : Text :=
  if isAbsolutePath path || directory.isEmpty then path
  else if directory.getLast? = some '/' then directory ++ path
  else directory ++ '/' :: path

/-- A path without its last part and the slash in front of it; empty for a single
    name. -/
def parentPath (path : Text) : Text :=
  let directory := Text.dropEndWhile (· != '/') (Text.dropEndWhile (· == '/') path)
  let bare := Text.dropEndWhile (· == '/') directory
  if bare.isEmpty then directory.take 1 else bare

end CodeSnippets

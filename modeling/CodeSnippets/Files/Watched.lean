/-
  The file to watch for changes.
-/
import CodeSnippets.Error
import CodeSnippets.Files.Host

namespace CodeSnippets

/-- The absolute path of the file to watch.  It has to be there, and the root, which
    has no name, is none. -/
def watchedPath {m : Type → Type} [Monad m] [Host m] (path : Text) :
    m (Except AppError Text) := do
  match ← Host.canonical path with
  | .error e => return .error (.io e)
  | .ok path =>
    if path = ['/'] then return .error (.watch (path ++ " is not a file".toList))
    else return .ok path

end CodeSnippets

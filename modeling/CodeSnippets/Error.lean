/-
  The errors of the application, each with the part in which it arises.
-/
import CodeSnippets.Highlight.Vocabulary
import CodeSnippets.Settings.Error
import CodeSnippets.Snippets.Error

namespace CodeSnippets

/-- Why the application cannot do what it is asked for. -/
inductive AppError where
  /-- there is no snippet to delete -/
  | nothingLoaded
  | store (e : StoreError)
  | settings (e : SettingsError)
  | vocabulary (e : VocabularyError)
  /-- a file cannot be watched -/
  | watch (message : Text)
  | io (e : FileError)
  deriving DecidableEq, Repr

namespace AppError

/-- The message of an error. -/
def message : AppError → Text
  | nothingLoaded => "No snippet is loaded".toList
  | store e => "Store error: ".toList ++ e.message
  | settings e => "Config error: ".toList ++ e.message
  | vocabulary e => "Vocabulary error: ".toList ++ e.message
  | watch message => "Watch error: ".toList ++ message
  | io e => "IO error: ".toList ++ e.message

/-- The messages of the errors behind an error. -/
def causes : AppError → List Text
  | store e => [e.message]
  | settings e => e.message :: e.causes
  | vocabulary e => [e.message]
  | io e => [e.message]
  | nothingLoaded | watch _ => []

end AppError

end CodeSnippets

/-
  Failures of the program, and how they are reported.

  A failure has a message and the messages of the errors behind it, the nearest
  first.  An action that may give an error becomes one that fails (`orFail`).
-/
import CodeSnippets.Error

namespace CodeSnippets

/-- Why the program fails. -/
structure Failure where
  message : Text
  causes : List Text
  deriving DecidableEq, Repr

namespace Failure

/-- The failure that is an error of files. -/
def ofFileError (e : FileError) : Failure := ⟨e.message, []⟩

/-- The failure that is an error of the application. -/
def ofAppError (e : AppError) : Failure := ⟨e.message, e.causes⟩

/-- A failure with an error behind it. -/
def behind (message : Text) (cause : Failure) : Failure := ⟨message, cause.message :: cause.causes⟩

/-- The causes below each other, with numbers from `n` on. -/
def numbered (n : Nat) : List Text → Text
  | [] => []
  | t :: rest => "\n    ".toList ++ Text.ofNat n ++ ": ".toList ++ t ++ numbered (n + 1) rest

/-- The report of a failure; a single cause has no number. -/
def report (f : Failure) : Text :=
  "Error: ".toList ++ f.message ++
    match f.causes with
    | [] => []
    | [cause] => "\n\nCaused by:\n    ".toList ++ cause
    | causes => "\n\nCaused by:".toList ++ numbered 0 causes

end Failure

/-- An action that fails where its result is an error. -/
def orFail {m : Type → Type} [Monad m] {ε α : Type} (action : m (Except ε α))
    (failure : ε → Failure) : ExceptT Failure m α :=
  .mk do return (← action).mapError failure

/-- The failure of an attempt, with the error of files behind it. -/
def failedTo (attempt : String) (name : Text) (e : FileError) : Failure :=
  .behind ("Failed to ".toList ++ attempt.toList ++ ' ' :: name) (.ofFileError e)

end CodeSnippets

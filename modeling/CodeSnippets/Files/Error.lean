/-
  Why a file cannot be read or written, in the words of the operating system.
-/
import CodeSnippets.Text.Basic

namespace CodeSnippets

/-- Why an operation on files fails. -/
inductive FileError where
  | notFound
  | alreadyExists
  | notADirectory
  | isADirectory
  | nameTooLong
  /-- a name with the character `U+0000` in it -/
  | nulInName
  /-- a text was expected, and the bytes are none -/
  | notUtf8
  /-- any other reason -/
  | other (message : Text)
  deriving DecidableEq, Repr

/-- The message of an error. -/
def FileError.message : FileError → Text
  | .notFound => "No such file or directory (os error 2)".toList
  | .alreadyExists => "File exists (os error 17)".toList
  | .notADirectory => "Not a directory (os error 20)".toList
  | .isADirectory => "Is a directory (os error 21)".toList
  | .nameTooLong => "File name too long (os error 36)".toList
  | .nulInName => "file name contained an unexpected NUL byte".toList
  | .notUtf8 => "stream did not contain valid UTF-8".toList
  | .other message => message

end CodeSnippets

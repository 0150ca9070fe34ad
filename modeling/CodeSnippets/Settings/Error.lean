/-
  Why settings cannot be loaded or saved.
-/
import CodeSnippets.Files.Error

namespace CodeSnippets

/-- What is wrong with the text of settings. -/
inductive SettingsFault where
  /-- it is no TOML document -/
  | syntaxError
  /-- a value is not of the type that its key asks for -/
  | typeError
  deriving DecidableEq, Repr

/-- A fault in words. -/
def SettingsFault.message : SettingsFault → Text
  | .syntaxError => "invalid TOML document".toList
  | .typeError => "invalid type or value for a setting".toList

/-- Why settings cannot be loaded or saved. -/
inductive SettingsError where
  /-- there is no place for settings -/
  | noDirectory
  | io (e : FileError)
  | parse (fault : SettingsFault)
  /-- a number is too large to be written -/
  | serialize
  deriving DecidableEq, Repr

namespace SettingsError

/-- The message of an error. -/
def message : SettingsError → Text
  | noDirectory => "Config directory not found".toList
  | io e => "IO error: ".toList ++ e.message
  | parse fault => "Parse error: ".toList ++ fault.message
  | serialize => "Serialize error: out-of-range value".toList

/-- The messages of the errors behind an error. -/
def causes : SettingsError → List Text
  | io e => [e.message]
  | parse fault => [fault.message]
  | noDirectory | serialize => []

end SettingsError

end CodeSnippets

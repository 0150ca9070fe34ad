/-
  Settings in files.

  * `Settings.loadFrom` and `Settings.saveTo` go to a file that is named;
  * `Settings.load` and `Settings.save` go to the file at its usual place, which is
    below the directory for settings that the environment names;
  * `Settings.load` gives the defaults where there is no file, or none with settings
    in it.
-/
import CodeSnippets.Files.Host
import CodeSnippets.Files.Path
import CodeSnippets.Settings.Document

namespace CodeSnippets.Settings

variable {m : Type → Type} [Monad m] [Host m]

/-! ## Named files -/

/-- Loads settings. -/
def loadFrom (path : Text) : m (Except SettingsError Settings) := do
  match ← Host.readText path with
  | .error e => return .error (.io e)
  | .ok t => return (parse t).mapError .parse

/-- Saves settings, and makes the directories that lead to the file. -/
def saveTo (s : Settings) (path : Text) : m (Except SettingsError Unit) := do
  let parent := parentPath path
  let made ← if parent.isEmpty then pure (.ok ()) else Host.makeDirectories parent
  match made with
  | .error e => return .error (.io e)
  | .ok () =>
    match s.text? with
    | none => return .error .serialize
    | some t => return (← Host.writeText path t).mapError .io

/-! ## The usual place -/

/-- The directory for settings: the one that the environment names by an absolute
    path, or else one in the home directory. -/
def directory? (named home : Option Text) : Option Text :=
  match named.filter isAbsolutePath with
  | some path => some path
  | none => (home.filter fun path => !path.isEmpty).map (joinPath · ".config".toList)

/-- The file at its usual place. -/
def defaultPath? : m (Option Text) := do
  let named ← Host.environment "XDG_CONFIG_HOME".toList
  let home ← Host.environment "HOME".toList
  return (directory? named home).map (joinPath · "snipmark/config.toml".toList)

/-- Loads the settings at their usual place. -/
def load : m Settings := do
  match ← defaultPath? with
  | none => return default
  | some path =>
    if ← Host.holds path then
      match ← loadFrom path with
      | .ok s => return s
      | .error _ => return default
    else return default

/-- Saves settings at their usual place. -/
def save (s : Settings) : m (Except SettingsError Unit) := do
  match ← defaultPath? with
  | none => return .error .noDirectory
  | some path => s.saveTo path

end CodeSnippets.Settings

/-
  Watching a file.

  The text of the file is highlighted at once, and again whenever the file has changed and
  then stayed as it is for the quiet period.  Every result becomes a page, which is written
  over the last one.  A file that cannot be read is passed over; a page that cannot be
  written ends it all.

  * `Watching.start`: a file that is about to be watched;
  * `Watching.step`: what is done when something happens;
  * `Watching.follow`: what is done when one thing happens after the other.
-/
import CodeSnippets.Command.Failure
import CodeSnippets.Debounce.Timeline
import CodeSnippets.Files.Watched
import CodeSnippets.Highlight.Format
import CodeSnippets.Settings.Basic

namespace CodeSnippets

/-- A file that is being watched. -/
structure Watching where
  /-- the absolute path of the file -/
  file : Text
  /-- the file for the page -/
  output : Text
  title : Text
  /-- the texts of the file that are to be highlighted, and the results -/
  timeline : Timeline

/-- What may happen while a file is watched. -/
inductive WatchEvent where
  /-- the file is reported to have changed -/
  | changed
  /-- time goes by, some milliseconds, or less if there is a result before -/
  | wait (ms : Nat)
  deriving DecidableEq, Repr

namespace Watching

variable {m : Type → Type} [Monad m] [Host m]

/-- Begins to watch a file that can be read; its text is to be highlighted at once. -/
def start (s : Settings) (v : Vocabulary) (file output : Text) : ExceptT Failure m Watching := do
  let path ← orFail (watchedPath file) .ofAppError
  let source ← orFail (Host.readText file) .ofFileError
  let timeline := Timeline.new v s.highlight.debounceMs
  return ⟨path, output, s.render.title, timeline.submit source true⟩

/-- The text of the file, if there is one, is to be highlighted after the quiet period. -/
def reread (w : Watching) : m Watching := do
  match ← Host.readText w.file with
  | .ok source => return { w with timeline := w.timeline.submit source false }
  | .error _ => return w

/-- Writes the page of a result, if there is one. -/
def present (w : Watching) : Option Rendering → ExceptT Failure m Unit
  | some r => orFail (Host.writeText w.output (r.result.page w.title)) .ofFileError
  | none => return ()

/-- What is done when something happens. -/
def step (w : Watching) : WatchEvent → ExceptT Failure m Watching
  | .changed => ExceptT.lift w.reread
  | .wait ms => do
    let (result, timeline) := w.timeline.next ms
    w.present result
    return { w with timeline }

/-- What is done when one thing happens after the other. -/
def follow (w : Watching) (events : List WatchEvent) : ExceptT Failure m Watching :=
  events.foldlM step w

end Watching

end CodeSnippets

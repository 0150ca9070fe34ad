/-
  Running the command line.

  The settings come first, then the vocabulary that they make, then the source, and
  the output is written last.  Only a command that watches a file writes more than once.

  * `Command.run`: what a command does in its surroundings, which say how a file is
    watched;
  * `runProgramWith`: the whole program;
  * `runProgramUntil`: the program, where some things happen while a file is watched, and
    then it is interrupted.
-/
import CodeSnippets.Command.Arguments
import CodeSnippets.Command.Watch
import CodeSnippets.Settings.Storage

namespace CodeSnippets

/-! ## Outcomes -/

/-- How the program ends, with the text on its standard output. -/
inductive Outcome where
  | done (output : Text)
  | failed (f : Failure)
  /-- the arguments are wrong -/
  | misused

/-- The exit code. -/
def Outcome.code : Outcome → Nat
  | .done _ => 0
  | .failed _ => 1
  | .misused => 2

/-- The text on the standard output. -/
def Outcome.output : Outcome → Text
  | .done output => output
  | .failed _ | .misused => []

/-! ## Commands -/

variable {m : Type → Type} [Monad m] [Host m]

/-- The source in a file or on the standard input. -/
def readSource (file : Option Text) : ExceptT Failure m Text :=
  match file with
  | some path => orFail (Host.readText path) (failedTo "read" path)
  | none => orFail Host.inputText (failedTo "read" "stdin".toList)

/-- Writes a text to a file, or with a line feed to the standard output; what goes
    there is given back. -/
def writeResult (output : Option Text) (t : Text) : ExceptT Failure m Text :=
  match output with
  | none => return t ++ ['\n']
  | some path => do
    orFail (Host.writeText path t) (failedTo "write" path)
    return []

/-- The settings in the file that is named, or at their usual place. -/
def chosenSettings (config : Option Text) : ExceptT Failure m Settings :=
  match config with
  | some path => orFail (Settings.loadFrom path) fun e =>
    .behind ("Failed to load config from ".toList ++ path) ⟨e.message, e.causes⟩
  | none => ExceptT.lift Settings.load

/-- The vocabulary that settings make. -/
def chosenVocabulary (s : Settings) : ExceptT Failure m Vocabulary :=
  orFail (pure s.vocabulary) fun e => .behind "Invalid vocabulary in config".toList ⟨e.message, []⟩

/-- What a command does with some settings; `watch` watches a file until that comes to an
    end. -/
def Command.run (watch : Watching → ExceptT Failure m Unit) (s : Settings) (v : Vocabulary) :
    Command → ExceptT Failure m Outcome
  | .highlight file format output => do
    let source ← readSource file
    let result := format.write s.render.title (CodeSnippets.highlight v source)
    return .done (← writeResult output result)
  | .stats file => do
    let source ← readSource file
    return .done ((CodeSnippets.highlight v source).statistics.display ++ ['\n'])
  | .watch file output => do
    watch (← Watching.start s v file output)
    return .done []

/-! ## The program -/

/-- The name and version of the program. -/
def versionLine : Text := "snipmark 0.1.0\n".toList

/-- What the program can do. -/
def helpText : Text := linesOf [
  "Usage: snipmark [-c PATH] [-v]... COMMAND",
  "",
  "Commands:",
  "  highlight [FILE] [-f FORMAT] [-o OUT]  Highlight a file (or stdin)",
  "  stats [FILE]                           Print line, character, keyword and function-call counts",
  "  watch FILE -o OUT                      Re-render a page whenever a file changes",
  "  help                                   Print this text",
  "",
  "Options:",
  "  -c, --config PATH    Config file to use instead of the default location",
  "  -v, --verbose        Verbose logging",
  "  -f, --format FORMAT  Output format: markup, page or json",
  "  -o, --output OUT     Output file; stdout when omitted",
  "  -h, --help           Print this text",
  "  -V, --version        Print the version"]

/-- Does what arguments ask for. -/
def Arguments.run (watch : Watching → ExceptT Failure m Unit) (a : Arguments) :
    ExceptT Failure m Outcome := do
  let s ← chosenSettings a.config
  let v ← chosenVocabulary s
  a.command.run watch s v

/-- The program with some arguments. -/
def runProgramWith (watch : Watching → ExceptT Failure m Unit) (arguments : List Text) :
    m Outcome := do
  match Arguments.read arguments with
  | .error .misuse => return .misused
  | .error .help => return .done helpText
  | .error .version => return .done versionLine
  | .ok a =>
    match ← (a.run watch).run with
    | .ok outcome => return outcome
    | .error f => return .failed f

/-- The program with some arguments; while it watches a file some things happen, and then it
    is interrupted. -/
def runProgramUntil (events : List WatchEvent) (arguments : List Text) : m Outcome :=
  runProgramWith (fun w => do let _ ← w.follow events) arguments

/-- The program with some arguments, interrupted as soon as it has nothing to do but to watch
    a file. -/
def runProgram (arguments : List Text) : m Outcome := runProgramUntil [.wait 0] arguments

end CodeSnippets

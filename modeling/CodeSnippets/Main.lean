/-
  The program on a real machine.

  The surroundings are those of the process: its files, its standard input and its
  environment.  A file that is watched is looked at again and again, and what happens to it
  is reported step by step, at the time of the clock.
-/
import CodeSnippets.Command.Run

namespace CodeSnippets

/-- The reason for an error of the operating system. -/
def FileError.ofSystem (e : IO.Error) : FileError :=
  match e with
  | .noFileOrDirectory .. => .notFound
  | .alreadyExists .. => .alreadyExists
  | .inappropriateType _ code details | .invalidArgument _ code details =>
    if code = 20 then .notADirectory
    else if code = 21 then .isADirectory
    else if code = 36 then .nameTooLong
    else .other (details.toList ++ " (os error ".toList ++ Text.ofNat code.toNat ++ [')'])
  | e => .other e.toString.toList

/-- The result of an action that the operating system may refuse. -/
def attempt {α : Type} (action : IO α) : IO (Except FileError α) := do
  match ← action.toBaseIO with
  | .ok a => return .ok a
  | .error e => return .error (.ofSystem e)

/-- All bytes that are left in a stream, behind some. -/
partial def readRest (stream : IO.FS.Stream) (front : ByteArray) : IO ByteArray := do
  let bytes ← stream.read 65536
  if bytes.isEmpty then return front
  readRest stream (front ++ bytes)

instance : Host IO where
  read path := attempt (IO.FS.readBinFile (String.ofList path))
  write path content := attempt (IO.FS.writeBinFile (String.ofList path) content)
  makeDirectories path := attempt (IO.FS.createDirAll (String.ofList path))
  holds path := do return (← attempt (IO.FS.realPath (String.ofList path))).isOk
  canonical path := attempt do return (← IO.FS.realPath (String.ofList path)).toString.toList
  input := attempt do readRest (← IO.getStdin) .empty
  environment name := do return (← IO.getEnv (String.ofList name)).map String.toList

/-- Lets time go by for a file that is watched, until it is as late as on the clock. -/
partial def catchUp (began : Nat) (w : Watching) : ExceptT Failure IO Watching := do
  let now := (← IO.monoMsNow) - began
  let w ← w.step (.wait (now - w.timeline.now))
  if now ≤ w.timeline.now then return w else catchUp began w

/-- Looks again and again whether a file has another content than the known one. -/
partial def watchFile (began : Nat) (known : ByteArray) (w : Watching) :
    ExceptT Failure IO Unit := do
  let w ← catchUp began w
  IO.sleep 50
  match ← Host.read (m := IO) w.file with
  | .error _ => watchFile began known w
  | .ok content =>
    if content == known then watchFile began known w
    else watchFile began content (← (← catchUp began w).step .changed)

/-- Watches a file until its page cannot be written. -/
def watchFromNow (w : Watching) : ExceptT Failure IO Unit := do
  let known := (← Host.read (m := IO) w.file).toOption.getD .empty
  watchFile (← IO.monoMsNow) known w

/-- Ends the program as its outcome says. -/
def finishProgram (outcome : Outcome) : IO UInt32 := do
  (← IO.getStdout).putStr (String.ofList outcome.output)
  match outcome with
  | .failed f => (← IO.getStderr).putStrLn (String.ofList f.report)
  | .misused => (← IO.getStderr).putStr (String.ofList helpText)
  | .done _ => pure ()
  return outcome.code.toUInt32

end CodeSnippets

/-- Runs the command line. -/
def main (arguments : List String) : IO UInt32 := do
  let outcome ← CodeSnippets.runProgramWith CodeSnippets.watchFromNow (arguments.map String.toList)
  CodeSnippets.finishProgram outcome

/-
  The arguments of the command line.

  Arguments are read one after the other (`Reading.step`), and reading stops at the
  first that is out of place or asks for help.

  * A flag or an option has a long name behind two dashes, or a letter behind one;
    letters may be run together.
  * The value of an option stands in the same argument, with or without an equals
    sign, or is the next one, which then must not look like an option itself.
  * Everything behind `--` is an operand.
  * Names and places of files are never empty.
  * What sets one value may come once only; the file with settings may be named in
    front of the command and behind it, and the latter counts.
-/
import CodeSnippets.Highlight.Format

namespace CodeSnippets

/-! ## Commands -/

/-- What the program is to do.  A file that is not named is the standard input or
    output. -/
inductive Command where
  | highlight (file : Option Text) (format : Format) (output : Option Text)
  | stats (file : Option Text)
  | watch (file output : Text)
  deriving DecidableEq, Repr

/-- A command with what holds for all commands. -/
structure Arguments where
  command : Command
  /-- the file with settings -/
  config : Option Text
  /-- how much is logged -/
  verbosity : Nat
  deriving DecidableEq, Repr

/-- Why reading arguments stops. -/
inductive Stop where
  /-- an argument is wrong or missing -/
  | misuse
  | help
  | version
  deriving DecidableEq, Repr

/-! ## Names -/

/-- The first operand. -/
inductive Verb where
  | highlight
  | stats
  | watch
  | help
  deriving DecidableEq, Repr

/-- The verb with a name. -/
def Verb.ofName? (name : Text) : Option Verb :=
  if name = "highlight".toList then some .highlight
  else if name = "stats".toList then some .stats
  else if name = "watch".toList then some .watch
  else if name = "help".toList then some .help
  else none

/-- A flag stands alone. -/
inductive Flag where
  | verbose
  | help
  | version
  deriving DecidableEq, Repr

/-- An option has a value. -/
inductive ValueOption where
  | config
  | format
  | output
  deriving DecidableEq, Repr

/-- Whether a flag is known behind a verb, or in front of any. -/
def Flag.fits : Flag → Option Verb → Bool
  | .version, verb => verb.isNone
  | _, _ => true

/-- Whether an option is known behind a verb, or in front of any. -/
def ValueOption.fits : ValueOption → Option Verb → Bool
  | .config, _ => true
  | .format, verb => verb == some .highlight
  | .output, verb => verb == some .highlight || verb == some .watch

/-- The flag or option with a long name. -/
def switchOfName? (name : Text) : Option (Flag ⊕ ValueOption) :=
  if name = "verbose".toList then some (.inl .verbose)
  else if name = "help".toList then some (.inl .help)
  else if name = "version".toList then some (.inl .version)
  else if name = "config".toList then some (.inr .config)
  else if name = "format".toList then some (.inr .format)
  else if name = "output".toList then some (.inr .output)
  else none

/-- The flag or option with a letter. -/
def switchOfLetter? (c : Char) : Option (Flag ⊕ ValueOption) :=
  match c with
  | 'v' => some (.inl .verbose)
  | 'h' => some (.inl .help)
  | 'V' => some (.inl .version)
  | 'c' => some (.inr .config)
  | 'f' => some (.inr .format)
  | 'o' => some (.inr .output)
  | _ => none

/-! ## Reading -/

/-- What has been read so far. -/
structure Reading where
  verb : Option Verb
  /-- the file with settings that was named in front of the verb -/
  outerConfig : Option Text
  config : Option Text
  format : Option Format
  output : Option Text
  file : Option Text
  verbosity : Nat
  /-- the option of which the value comes next -/
  awaiting : Option ValueOption
  /-- whether only operands are left -/
  operandsOnly : Bool

namespace Reading

/-- Nothing has been read. -/
def start : Reading := ⟨none, none, none, none, none, none, 0, none, false⟩

/-- A value that is set for the first time. -/
def once {α : Type} (old : Option α) (new : Option α) : Except Stop (Option α) :=
  if old.isSome || new.isNone then .error .misuse else .ok new

/-- A text that is not empty. -/
def filled? (t : Text) : Option Text := if t.isEmpty then none else some t

/-- Sets a flag. -/
def setFlag (r : Reading) (f : Flag) : Except Stop Reading :=
  if f.fits r.verb then
    match f with
    | .verbose => .ok { r with verbosity := r.verbosity + 1 }
    | .help => .error .help
    | .version => .error .version
  else .error .misuse

/-- Gives an option its value. -/
def setOption (r : Reading) (o : ValueOption) (value : Text) : Except Stop Reading :=
  match o with
  | .config => (once r.config (filled? value)).map fun config => { r with config }
  | .format => (once r.format (Format.ofName? value)).map fun format => { r with format }
  | .output => (once r.output (filled? value)).map fun output => { r with output }

/-- An option without a value in its own argument. -/
def await (r : Reading) (o : ValueOption) : Reading := { r with awaiting := some o }

/-- An argument with a long name. -/
def long (r : Reading) (body : Text) : Except Stop Reading :=
  let (name, value?) := match Text.splitAtFirst '=' body with
    | some (name, value) => (name, some value)
    | none => (body, none)
  match switchOfName? name, value? with
  | some (.inl f), none => r.setFlag f
  | some (.inr o), value? =>
    if o.fits r.verb then
      match value? with
      | some value => r.setOption o value
      | none => .ok (r.await o)
    else .error .misuse
  | _, _ => .error .misuse

/-- Letters behind a dash; behind the letter of an option its value follows, perhaps
    with an equals sign in front. -/
def letters (r : Reading) : Text → Except Stop Reading
  | [] => .ok r
  | c :: rest =>
    match switchOfLetter? c with
    | none => .error .misuse
    | some (.inl f) => do (← r.setFlag f).letters rest
    | some (.inr o) =>
      if o.fits r.verb then
        match rest with
        | [] => .ok (r.await o)
        | '=' :: value => r.setOption o value
        | value => r.setOption o value
      else .error .misuse

/-- An operand: the verb first, and then at most one file.  Behind the verb `help`
    comes the name of another verb. -/
def operand (r : Reading) (t : Text) : Except Stop Reading :=
  match r.verb with
  | none =>
    match if r.operandsOnly then none else Verb.ofName? t with
    | none => .error .misuse
    | some verb => .ok { r with verb := some verb, outerConfig := r.config, config := none }
  | some .help =>
    if (Verb.ofName? t).isSome then
      (once r.file (filled? t)).map fun file => { r with file }
    else .error .misuse
  | some _ => (once r.file (filled? t)).map fun file => { r with file }

/-- Whether an argument is no operand. -/
def looksLikeOption (t : Text) : Bool := t.head? == some '-' && t != ['-']

/-- The next argument. -/
def step (r : Reading) (t : Text) : Except Stop Reading :=
  if r.operandsOnly then r.operand t
  else
    match r.awaiting with
    | some o =>
      if looksLikeOption t then .error .misuse else { r with awaiting := none }.setOption o t
    | none =>
      match t with
      | ['-', '-'] => .ok { r with operandsOnly := true }
      | '-' :: '-' :: body => r.long body
      | ['-'] => r.operand t
      | '-' :: body => r.letters body
      | _ => r.operand t

/-- What the arguments say in the end. -/
def finish (r : Reading) : Except Stop Arguments := do
  if r.awaiting.isSome then throw .misuse
  let command ← match r.verb, r.file, r.output with
    | some .highlight, file, output => pure (.highlight file (r.format.getD .markup) output)
    | some .stats, file, _ => pure (.stats file)
    | some .watch, some file, some output => pure (.watch file output)
    | some .watch, _, _ => throw .misuse
    | some .help, _, _ => throw .help
    | none, _, _ => throw .misuse
  return ⟨command, r.config <|> r.outerConfig, r.verbosity⟩

end Reading

/-- Reads the arguments of the command line. -/
def Arguments.read (arguments : List Text) : Except Stop Arguments := do
  (← arguments.foldlM Reading.step Reading.start).finish

end CodeSnippets

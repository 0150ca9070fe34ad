/-
  Writing a TOML document.

  A string takes the first of its forms that shows it as it is: in double quotes, in
  single quotes, in tripled double and in tripled single quotes.  If none does, it
  is written in double quotes with escapes, tripled if it has several lines.

  * `string`, `strings`, `integer?`: values; an array of more than one item has a
    line for each;
  * `table`: a header with the lines below it;
  * `document`: tables with empty lines between them.
-/
import CodeSnippets.Toml.StringReader
import CodeSnippets.Toml.Number

namespace CodeSnippets.Toml.Printer

/-! ## Strings -/

/-- A character that only an escape can stand for. -/
def needsEscape (c : Char) : Bool := !isLineChar c && c != '\n'

/-- The length of the longest run of a character, if a run of `run` is in front. -/
def longestRun (q : Char) (run : Nat) : Text → Nat
  | [] => run
  | c :: rest => if c = q then longestRun q (run + 1) rest else max run (longestRun q 0 rest)

/-- What an escape for a control character or a backslash begins and ends with. -/
def escaped (c : Char) : Text :=
  if c = '\x08' then ['\\', 'b']
  else if c = '\t' then ['\\', 't']
  else if c = '\n' then ['\\', 'n']
  else if c = '\x0c' then ['\\', 'f']
  else if c = '\r' then ['\\', 'r']
  else if c = '\\' then ['\\', '\\']
  else ['\\', 'u'] ++ (Text.hexDigits 4 c.toNat).map Char.toUpper

/-- A character inside double quotes; a tripled string keeps its line feeds. -/
def basicChar (keepLines : Bool) (c : Char) : Text :=
  if (c = '\n' && keepLines) || isBasicChar c && c != '\t' then [c] else escaped c

/-- The characters inside double quotes, of which at most `allowed` stand next to
    each other without an escape, if a run of `run` is in front. -/
def basicChars (keepLines : Bool) (allowed : Nat) : (run : Nat) → Text → Text
  | _, [] => []
  | run, c :: rest =>
    if c = '"' then
      if run < allowed then '"' :: basicChars keepLines allowed (run + 1) rest
      else '\\' :: '"' :: basicChars keepLines allowed 0 rest
    else basicChar keepLines c ++ basicChars keepLines allowed 0 rest

/-- A string in double quotes. -/
def basic (t : Text) : Text := '"' :: basicChars false 0 0 t ++ ['"']

/-- A string in single quotes. -/
def literal (t : Text) : Text := '\'' :: t ++ ['\'']

/-- Some characters in tripled quotes; the first line of several begins below the
    quotes. -/
def tripled (q : Char) (several : Bool) (content : Text) : Text :=
  [q, q, q] ++ (if several then ['\n'] else []) ++ content ++ [q, q, q]

/-- A string in tripled double quotes. -/
def multilineBasic (t : Text) : Text := tripled '"' (t.contains '\n') (basicChars true 2 0 t)

/-- A string in tripled single quotes. -/
def multilineLiteral (t : Text) : Text := tripled '\'' (t.contains '\n') t

/-- A string in the first form that shows it as it is. -/
def string (t : Text) : Text :=
  let plain := !t.any needsEscape
  let several := t.contains '\n'
  let straight := !t.contains '\\'
  if plain && straight && !t.contains '"' && !several then basic t
  else if plain && !t.contains '\'' && !several then literal t
  else if plain && straight && longestRun '"' 0 t ≤ 2 then multilineBasic t
  else if plain && longestRun '\'' 0 t ≤ 2 then multilineLiteral t
  else if several then multilineBasic t
  else basic t

/-! ## Other values -/

/-- A number, if it is an integer of a document. -/
def integer? (n : Nat) : Option Text := if fitsInteger n then some (Text.ofNat n) else none

/-- An array of strings. -/
def strings : List Text → Text
  | [] => ['[', ']']
  | [t] => '[' :: string t ++ [']']
  | ts => '[' :: ts.flatMap (fun t => "\n    ".toList ++ string t ++ [',']) ++ ['\n', ']']

/-! ## Documents -/

/-- A key that needs no quotes, with the text of its value. -/
def entry (key value : Text) : Text := key ++ " = ".toList ++ value ++ ['\n']

/-- A table with the entries below its header. -/
def table (name : Text) (entries : List Text) : Text := '[' :: name ++ [']', '\n'] ++ entries.flatten

/-- Tables with an empty line between each two. -/
def document (tables : List Text) : Text := Text.join ['\n'] tables

end CodeSnippets.Toml.Printer

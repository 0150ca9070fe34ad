/-
  Strings as they stand in a TOML document.

  There are four forms: between single quotes every character stands for itself,
  between double quotes a backslash begins an escape, and either quote may be
  tripled, which lets the string go over several lines.

  * A line break inside a string is read as a line feed, and one directly behind
    three opening quotes is dropped.
  * A backslash at the end of a line drops all white space up to the next other
    character.
  * One or two quotes may stand anywhere inside a tripled string; of a longer run
    of quotes the last three close it (`closingQuotes`).
-/
import CodeSnippets.Toml.Layout

namespace CodeSnippets.Toml

/-! ## Escapes -/

/-- A character that a double-quoted string holds as it is. -/
def isBasicChar (c : Char) : Bool := isLineChar c && c != '"' && c != '\\'

/-- A character that a single-quoted string holds as it is. -/
def isLiteralChar (c : Char) : Bool := isLineChar c && c != '\''

/-- The character with a code of exactly `n` hexadecimal digits. -/
def codePoint (n : Nat) : Reader Char := do
  let code := valueIn 16 (← Reader.exactly n fun c => (hexValue? c).isSome)
  if code.isValidChar then return Char.ofNat code else Reader.fail

/-- The character that a letter behind a backslash stands for. -/
def escapeLetter? (c : Char) : Option Char :=
  match c with
  | 'b' => some '\x08'
  | 't' => some '\t'
  | 'n' => some '\n'
  | 'f' => some '\x0c'
  | 'r' => some '\r'
  | '"' => some '"'
  | '\\' => some '\\'
  | _ => none

/-- A backslash with what it escapes. -/
def escapeSequence : Reader Char := do
  Reader.char '\\'
  let c ← Reader.charIf fun _ => true
  if c = 'u' then codePoint 4
  else if c = 'U' then codePoint 8
  else match escapeLetter? c with
    | some d => return d
    | none => Reader.fail

/-! ## Strings on one line -/

/-- A string between double quotes. -/
def basicString : Reader Text := do
  Reader.char '"'
  let content ← Reader.repeatedly (Reader.charIf isBasicChar <|> escapeSequence)
  Reader.char '"'
  return content

/-- A string between single quotes. -/
def literalString : Reader Text := do
  Reader.char '\''
  let content ← Reader.takeWhile isLiteralChar
  Reader.char '\''
  return content

/-! ## Strings over several lines -/

/-- One or two quotes inside a tripled string. -/
def quotesWithin (q : Char) : Reader Text := fun t =>
  let run := t.takeWhile (· == q)
  let rest := t.dropWhile (· == q)
  if !run.isEmpty && run.length < 3 && !rest.isEmpty then some (run, rest) else none

/-- The three quotes that close a string, and the quotes in front of them that
    still belong to it, of which there are at most two. -/
def closingQuotes (q : Char) : Reader Text := fun t =>
  let run := (t.takeWhile (· == q)).length
  if run < 3 then none
  else
    let inner := min (run - 3) 2
    some (List.replicate inner q, t.drop (inner + 3))

/-- A line break, which reads as a line feed. -/
def lineFeed : Reader Text := do
  newline
  return ['\n']

/-- A backslash at the end of a line with the white space behind it, which reads as
    nothing. -/
def foldedLine : Reader Text := do
  Reader.char '\\'
  blanks
  newline
  let _ ← Reader.repeatedly ((do let _ ← Reader.charIf isSpaceOrTab) <|> newline)
  return []

/-- A text of one character. -/
def single (r : Reader Char) : Reader Text := do return [← r]

/-- A string between tripled quotes, made of parts. -/
def tripled (q : Char) (part : Reader Text) : Reader Text := do
  Reader.literal [q, q, q]
  let _ ← Reader.optionally newline
  let parts ← Reader.repeatedly (part <|> quotesWithin q)
  let last ← closingQuotes q
  return parts.flatten ++ last

/-- A string between tripled double quotes. -/
def multilineBasicString : Reader Text :=
  tripled '"' (single (Reader.charIf isBasicChar) <|> foldedLine <|> single escapeSequence <|>
    lineFeed)

/-- A string between tripled single quotes. -/
def multilineLiteralString : Reader Text :=
  tripled '\'' (single (Reader.charIf isLiteralChar) <|> lineFeed)

/-- A string in any of its forms. -/
def anyString : Reader Text :=
  multilineBasicString <|> basicString <|> multilineLiteralString <|> literalString

end CodeSnippets.Toml

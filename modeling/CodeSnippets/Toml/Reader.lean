/-
  Reading a TOML document.

  * `key`: a dotted key, of fewer than `depthLimit` parts;
  * `value`: a value; arrays and braced tables stand at most `depthLimit - 1` deep
    in each other;
  * `line`: a line, if it says something;
  * `read?`: the entries of a whole document.

  A document is first read line by line and then assembled, so a text is refused
  if a line cannot be read or if two lines contradict each other.
-/
import CodeSnippets.Toml.Moment
import CodeSnippets.Toml.Number
import CodeSnippets.Toml.StringReader
import CodeSnippets.Toml.Value

namespace CodeSnippets.Toml

/-- How many parts a key never has, and how deep values never stand. -/
def depthLimit : Nat := 80

/-! ## Keys -/

/-- A character of a key without quotes. -/
def isBareKeyChar (c : Char) : Bool := isAsciiLetter c || isAsciiDigit c || c == '_' || c == '-'

/-- A key without quotes. -/
def bareKey : Reader Text := do
  let first ← Reader.charIf isBareKeyChar
  return first :: (← Reader.takeWhile isBareKeyChar)

/-- A part of a key. -/
def keyPart : Reader Text := bareKey <|> basicString <|> literalString

/-- A key, as a path and its last part. -/
def key : Reader (List Text × Text) := do
  let parts ← Reader.separated (Reader.char '.') do
    blanks
    let part ← keyPart
    blanks
    return part
  match parts.getLast? with
  | none => Reader.fail
  | some last => if parts.length < depthLimit then return (parts.dropLast, last) else Reader.fail

/-! ## Values -/

/-- A value that holds no other. -/
def scalar : Reader Value :=
  (do return .string (← anyString)) <|>
  (do return .moment (← Reader.spelled moment)) <|>
  (do return .float (← Reader.spelled float)) <|>
  (do return .integer (← integer)) <|>
  (do Reader.literal "true".toList; return .boolean true) <|>
  (do Reader.literal "false".toList; return .boolean false)

/-- A key with its value. -/
def keyValue (value : Reader Value) : Reader (List Text × Text × Value) := do
  let (path, name) ← key
  Reader.char '='
  blanks
  return (path, name, ← value)

/-- An array, with items read by a reader. -/
def array (item : Reader Value) : Reader Value := do
  Reader.char '['
  let items ← Reader.separated (Reader.char ',') do
    gap
    let v ← item
    gap
    return v
  if !items.isEmpty then
    let _ ← Reader.optionally (Reader.char ',')
  gap
  Reader.char ']'
  return .array items

/-- A table between braces, with values read by a reader. -/
def bracedTable (value : Reader Value) : Reader Value := do
  Reader.char '\x7b'
  let entries ← Reader.separated (Reader.char ',') do
    let entry ← keyValue value
    blanks
    return entry
  blanks
  Reader.char '\x7d'
  match braced entries with
  | none => Reader.fail
  | some v => return v

/-- A value that holds others to a depth. -/
def valueTo : (depth : Nat) → Reader Value
  | 0 => scalar
  | depth + 1 => array (valueTo depth) <|> bracedTable (valueTo depth) <|> scalar

/-- A value. -/
def value : Reader Value := valueTo (depthLimit - 1)

/-! ## Documents -/

/-- A header in single or double brackets. -/
def header : Reader Line :=
  (do Reader.literal ['[', '[']
      let (path, name) ← key
      Reader.literal [']', ']']
      return .element path name) <|>
  (do Reader.char '['
      let (path, name) ← key
      Reader.char ']'
      return .table path name)

/-- What a line says; a line may be empty or hold a comment alone. -/
def line : Reader (Option Line) := do
  blanks
  let content ← Reader.optionally <|
    header <|> (do let (path, name, v) ← keyValue value; return .entry path name v)
  lineEnd
  return content

/-- The lines of a document, behind a byte order mark perhaps. -/
def documentLines : Reader (List Line) := do
  let _ ← Reader.optionally (Reader.char '\uFEFF')
  let lines ← Reader.repeatedly line
  Reader.atEnd
  return lines.filterMap id

/-- The entries of the document that a text is. -/
def read? (t : Text) : Option Entries := do
  let (lines, _) ← documentLines t
  assemble lines

end CodeSnippets.Toml

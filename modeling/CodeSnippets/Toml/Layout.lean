/-
  What stands between the parts of a TOML document.

  * `blanks`: spaces and tabs;
  * `newline`: a line feed, alone or behind a carriage return;
  * `comment`: a `#` and the rest of its line;
  * `gap`: all of these, as between the items of an array;
  * `lineEnd`: what may follow the last part of a line.
-/
import CodeSnippets.Text.Reader

namespace CodeSnippets.Toml

/-- A space or a tab. -/
def isSpaceOrTab (c : Char) : Bool := c == ' ' || c == '\t'

/-- A character that may stand anywhere on a line: all but the control characters,
    of which only the tab is let through. -/
def isLineChar (c : Char) : Bool := c == '\t' || (0x20 ≤ c.toNat && c.toNat ≠ 0x7F)

/-- Spaces and tabs. -/
def blanks : Reader Unit := do
  let _ ← Reader.takeWhile isSpaceOrTab

/-- The end of a line. -/
def newline : Reader Unit := Reader.char '\n' <|> Reader.literal ['\r', '\n']

/-- A comment, up to the end of its line. -/
def comment : Reader Unit := do
  Reader.char '#'
  let _ ← Reader.takeWhile isLineChar

/-- Blanks and lines that hold nothing else but a comment. -/
def gap : Reader Unit := do
  let _ ← Reader.repeatedly do
    blanks
    let _ ← Reader.optionally comment
    newline
  blanks

/-- Blanks, a comment perhaps, and the end of the line or of the document. -/
def lineEnd : Reader Unit := do
  blanks
  let _ ← Reader.optionally comment
  newline <|> Reader.atEnd

end CodeSnippets.Toml

/-
  Texts shown between double quotes, as error messages cite them.

  A quote, a backslash and the characters with a short escape are written with a
  backslash; any other character that does not show as itself is written by its
  code point in hexadecimal; all else stands for itself, the single quote
  included.
-/
import CodeSnippets.Text.Basic
import CodeSnippets.Text.Visible

namespace CodeSnippets

/-- The spelling of one character inside a quoted text. -/
def quotedChar (c : Char) : Text :=
  if c = '\x00' then ['\\', '0']
  else if c = '\t' then ['\\', 't']
  else if c = '\r' then ['\\', 'r']
  else if c = '\n' then ['\\', 'n']
  else if c = '"' then ['\\', '"']
  else if c = '\\' then ['\\', '\\']
  else if visible.contains c.toNat then [c]
  else ['\\', 'u', '\x7b'] ++ Text.hexDigits 1 c.toNat ++ ['\x7d']

/-- The text between double quotes, with escapes. -/
def Text.quoted (t : Text) : Text := '"' :: t.flatMap quotedChar ++ ['"']

end CodeSnippets

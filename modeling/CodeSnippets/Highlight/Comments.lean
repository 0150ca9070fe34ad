/-
  Where comments stand.

  * `lineComment`: from `//` to the end of the line, the line break excluded;
  * `blockComment`: from `/*` through the nearest `*/` behind it, over any number
    of lines.  The closing `*/` begins behind the opening `/*`, so `/*/` is not
    closed, and a comment that is never closed does not match.
-/
import CodeSnippets.Highlight.Matching

namespace CodeSnippets

/-- A line feed or a carriage return. -/
def isLineBreak (c : Char) : Bool := c == '\n' || c == '\r'

/-- A comment to the end of the line. -/
def lineComment : Matcher := fun _ c rest =>
  match c, rest with
  | '/', '/' :: body => some (1 + (body.takeWhile fun d => !isLineBreak d).length)
  | _, _ => none

/-- The number of characters through the first `*/`; none if there is none. -/
def throughBlockEnd : Text → Option Nat
  | [] => none
  | '*' :: '/' :: _ => some 2
  | _ :: rest => (throughBlockEnd rest).map (· + 1)

/-- A comment between `/*` and `*/`. -/
def blockComment : Matcher := fun _ c rest =>
  match c, rest with
  | '/', '*' :: body => (throughBlockEnd body).map (1 + ·)
  | _, _ => none

end CodeSnippets

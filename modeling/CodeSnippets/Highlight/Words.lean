/-
  Where words stand.

  A word may not touch an identifier character on either side, nor follow an `&`:
  what stands behind an `&` is the name of an entity.

  * `wholeWord w`: the word `w`;
  * `functionCall`: an ASCII identifier with a `(` behind it, of which white
    space may be between; only the identifier matches.
-/
import CodeSnippets.Highlight.Matching

namespace CodeSnippets

/-- Whether a word can begin behind a character, or at the start of a text. -/
def allowsWordAfter (before : Option Char) : Bool :=
  before.all fun c => !isIdentifierPart c && c != '&'

/-- Whether a word can end before a text. -/
def allowsWordBefore (rest : Text) : Bool := !rest.head?.any isIdentifierPart

/-- The word `w`, as a whole word. -/
def wholeWord (w : Text) : Matcher := fun before c rest =>
  if w.isPrefixOf (c :: rest) && allowsWordAfter before
      && allowsWordBefore ((c :: rest).drop w.length) then some (w.length - 1)
  else none

/-- An identifier in front of a parenthesis. -/
def functionCall : Matcher := fun before c rest =>
  if isIdentifierStart c && allowsWordAfter before
      && (Text.trimStart (rest.dropWhile isAsciiIdentifierPart)).head? == some '(' then
    some (rest.takeWhile isAsciiIdentifierPart).length
  else none

end CodeSnippets

/-
  Where literals stand.

  * `stringLiteral`: from a quote through the next quote of the same kind.  A
    backslash takes the character behind it along, so an escaped quote does not
    close the literal; before a line feed a backslash escapes nothing, and the
    literal does not match.  A literal may span lines.  The curly quote `“` opens
    and closes a literal like the straight ones;
  * `number`: decimal digits with an optional fraction, between word boundaries.
    Where the boundary behind the fraction is missing, the whole part may still
    match alone: `1.5px` holds the number `1`.
-/
import CodeSnippets.Highlight.Matching

namespace CodeSnippets

/-! ## Strings -/

/-- The number of characters through the quote that closes a literal. -/
def throughQuote (quote : Char) : Text → Option Nat
  | [] => none
  | '\\' :: [] => none
  | '\\' :: c :: rest => if c = '\n' then none else (throughQuote quote rest).map (· + 2)
  | c :: rest => if c = quote then some 1 else (throughQuote quote rest).map (· + 1)

/-- A character that opens a string literal. -/
def isQuote (c : Char) : Bool := c == '"' || c == '\'' || c == '“'

/-- A string literal with its quotes. -/
def stringLiteral : Matcher := fun _ c rest =>
  if isQuote c then throughQuote c rest else none

/-! ## Numbers -/

/-- Whether there is a word boundary between a word character and what follows. -/
def endsWord (rest : Text) : Bool := !rest.head?.any isWordCharacter

/-- The number of characters of a fraction: a point and at least one digit. -/
def fractionLength : Text → Nat
  | '.' :: rest =>
    let digits := rest.takeWhile isAsciiDigit
    if digits.isEmpty then 0 else digits.length + 1
  | _ => 0

/-- A decimal number. -/
def number : Matcher := fun before c rest =>
  if isAsciiDigit c && !before.any isWordCharacter then
    let whole := (rest.takeWhile isAsciiDigit).length
    let behind := rest.dropWhile isAsciiDigit
    let fraction := fractionLength behind
    if endsWord (behind.drop fraction) then some (whole + fraction)
    else if endsWord behind then some whole
    else none
  else none

end CodeSnippets

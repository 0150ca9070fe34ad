/-
  Classes of characters, each the membership in a Unicode property.

  * `isWhitespace`: the property `White_Space`, the only blank that trimming and
    spacing know;
  * `isAlphanumeric`: letters and numerals of every kind; together with `_` and
    `$` they are the identifier characters (`isIdentifierPart`), the characters
    that a whole word may not touch;
  * `isIdentifierStart`, `isAsciiIdentifierPart`: the characters that spell the
    identifiers of a vocabulary and of function calls, ASCII only;
  * `isWordCharacter`: letters, marks, decimal digits and connectors, between
    which a number has no boundary.  It differs from `isIdentifierPart`: `$` and
    `²` are identifier characters only, a combining accent is a word character
    only.
-/
import CodeSnippets.Text.Alphabetic
import CodeSnippets.Text.Mark
import CodeSnippets.Text.Numeral

namespace CodeSnippets

/-- The code points with the property `White_Space`. -/
def whitespace : CodeRanges :=
  [(0x9, 0xD), (0x20, 0x20), (0x85, 0x85), (0xA0, 0xA0), (0x1680, 0x1680), (0x2000, 0x200A),
   (0x2028, 0x2029), (0x202F, 0x202F), (0x205F, 0x205F), (0x3000, 0x3000)]

/-- White space of any kind. -/
def isWhitespace (c : Char) : Bool := whitespace.contains c.toNat

/-- A letter, or a numeral of any kind. -/
def isAlphanumeric (c : Char) : Bool :=
  alphabetic.contains c.toNat || decimalDigit.contains c.toNat || otherNumeral.contains c.toNat

/-- A character that continues a word. -/
def isIdentifierPart (c : Char) : Bool := isAlphanumeric c || c == '_' || c == '$'

/-- A letter of the ASCII alphabet. -/
def isAsciiLetter (c : Char) : Bool := ('a' ≤ c && c ≤ 'z') || ('A' ≤ c && c ≤ 'Z')

/-- One of the ten ASCII digits. -/
def isAsciiDigit (c : Char) : Bool := '0' ≤ c && c ≤ '9'

/-- A character that begins an identifier. -/
def isIdentifierStart (c : Char) : Bool := isAsciiLetter c || c == '_' || c == '$'

/-- A character that continues an ASCII identifier. -/
def isAsciiIdentifierPart (c : Char) : Bool := isIdentifierStart c || isAsciiDigit c

/-- A character with no word boundary between it and another one of its kind. -/
def isWordCharacter (c : Char) : Bool :=
  alphabetic.contains c.toNat || nonletterMark.contains c.toNat ||
    decimalDigit.contains c.toNat || connector.contains c.toNat || joinControl.contains c.toNat

/-- An ASCII identifier: a start character, then characters that continue it. -/
def isIdentifier : List Char → Bool
  | [] => false
  | c :: rest => isIdentifierStart c && rest.all isAsciiIdentifierPart

end CodeSnippets

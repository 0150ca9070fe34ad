/-
  Text as a list of characters, in which every rule of the library is stated.

  * `Text.trim`, `Text.trimStart`: without the white space at the edges;
  * `Text.splitAtFirst`: cut at the first of a character, which goes lost;
  * `Text.splitOn`: the pieces between all occurrences of a character;
  * `Text.join`: texts with a separator between each two;
  * `Text.ofNat`: a natural number in decimal;
  * `Text.hexDigits`: a natural number in lower-case hexadecimal, with leading
    zeros up to a width;
  * `hexValue?`: the value of a hexadecimal digit, in either case;
  * `valueIn`: the number that digits spell in a base.
-/
import CodeSnippets.Text.Character

namespace CodeSnippets

/-- A text is the list of its characters. -/
abbrev Text := List Char

namespace Text

/-- The text without the white space at its start. -/
def trimStart (t : Text) : Text := t.dropWhile isWhitespace

/-- The text without the characters of a class at its end. -/
def dropEndWhile (p : Char → Bool) (t : Text) : Text := (t.reverse.dropWhile p).reverse

/-- The text without the white space at either end. -/
def trim (t : Text) : Text := dropEndWhile isWhitespace t.trimStart

/-- The texts before and after the first `c`; none if `c` does not occur. -/
def splitAtFirst (c : Char) : Text → Option (Text × Text)
  | [] => none
  | d :: rest =>
    if d = c then some ([], rest) else (splitAtFirst c rest).map fun (l, r) => (d :: l, r)

/-- The pieces of a text between the occurrences of `c`. -/
def splitOn (c : Char) : Text → List Text
  | [] => [[]]
  | d :: rest =>
    if d = c then [] :: splitOn c rest
    else match splitOn c rest with
      | [] => [[d]]
      | piece :: more => (d :: piece) :: more

/-- Texts with a separator between each two. -/
def join (separator : Text) : List Text → Text
  | [] => []
  | [t] => t
  | t :: rest => t ++ separator ++ join separator rest

/-- A natural number in decimal. -/
def ofNat (n : Nat) : Text := Nat.toDigits 10 n

/-- A natural number in lower-case hexadecimal, at least `width` digits long. -/
def hexDigits (width n : Nat) : Text :=
  let digits := Nat.toDigits 16 n
  List.replicate (width - digits.length) '0' ++ digits

end Text

/-- The value of a hexadecimal digit, in either case. -/
def hexValue? (c : Char) : Option Nat :=
  if isAsciiDigit c then some (c.toNat - '0'.toNat)
  else if 'a' ≤ c && c ≤ 'f' then some (c.toNat - 'a'.toNat + 10)
  else if 'A' ≤ c && c ≤ 'F' then some (c.toNat - 'A'.toNat + 10)
  else none

/-- The number that digits spell in a base of at most 16; other characters count
    as zeros. -/
def valueIn (base : Nat) (digits : Text) : Nat :=
  digits.foldl (fun n c => base * n + (hexValue? c).getD 0) 0

end CodeSnippets

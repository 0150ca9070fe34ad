/-
  Where brackets and operators stand.

  * `bracket`: one of the six brackets;
  * `spacedOperator`: the escaped spelling of an operator together with all white
    space on either side of it.
-/
import CodeSnippets.Highlight.Matching
import CodeSnippets.Highlight.Vocabulary

namespace CodeSnippets

/-- A round, square or curly bracket. -/
def isBracket (c : Char) : Bool :=
  c == '(' || c == ')' || c == '[' || c == ']' || c == '\x7b' || c == '\x7d'

/-- A single bracket. -/
def bracket : Matcher := fun _ c _ => if isBracket c then some 0 else none

/-- An operator with the white space around it. -/
def spacedOperator (o : Operator) : Matcher := fun _ c rest =>
  let lead := ((c :: rest).takeWhile isWhitespace).length
  let behindLead := (c :: rest).dropWhile isWhitespace
  if o.escaped.isPrefixOf behindLead then
    let trail := ((behindLead.drop o.escaped.length).takeWhile isWhitespace).length
    some (lead + o.escaped.length + trail - 1)
  else none

end CodeSnippets

/-
  Highlighting of a source.

  A blank source (white space and byte order marks only) has empty markup and
  zero statistics; any other source is escaped, classified by all passes and
  rendered, and counted as it was before escaping.
-/
import CodeSnippets.Highlight.Markup

namespace CodeSnippets

/-- White space or a byte order mark. -/
def isBlankChar (c : Char) : Bool := isWhitespace c || c == '\uFEFF'

/-- Whether there is nothing in a source to highlight. -/
def isBlank (source : Text) : Bool := source.all isBlankChar

/-- A highlighted source. -/
structure Highlighted where
  markup : Text
  statistics : Statistics
  deriving DecidableEq, Repr

/-- The result for a blank source. -/
def Highlighted.blank : Highlighted := ⟨[], .zero⟩

/-- The source highlighted with the words and operators of a vocabulary. -/
def highlight (v : Vocabulary) (source : Text) : Highlighted :=
  if isBlank source then .blank
  else
    let done := runPasses v (escape source)
    ⟨done.stream.render, .collect source done.tally⟩

end CodeSnippets

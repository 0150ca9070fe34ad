/-
  What is counted of a source.

  * `InputSize`: lines and characters of any text; the empty text has one line;
  * `Statistics`: the size of a highlighted source with the numbers of keywords
    and of function names found in it.
-/
import CodeSnippets.Highlight.Pass

namespace CodeSnippets

/-- The numbers of lines and characters of a text. -/
structure InputSize where
  lines : Nat
  chars : Nat
  deriving DecidableEq, Repr

/-- The size of a text: every line feed begins a line. -/
def InputSize.ofText (t : Text) : InputSize := ⟨t.count '\n' + 1, t.length⟩

/-- A size for display. -/
def InputSize.display (s : InputSize) : Text :=
  Text.ofNat s.lines ++ " lines · ".toList ++ Text.ofNat s.chars ++ " chars".toList

/-- The statistics of a highlighted source. -/
structure Statistics where
  lines : Nat
  chars : Nat
  keywords : Nat
  functions : Nat
  deriving DecidableEq, Repr

namespace Statistics

/-- Nothing counted: the statistics of a blank source. -/
def zero : Statistics := ⟨0, 0, 0, 0⟩

/-- The size of a source and what was found in it. -/
def collect (source : Text) (tally : Tally) : Statistics :=
  let size := InputSize.ofText source
  ⟨size.lines, size.chars, tally.keywords, tally.functions⟩

/-- Statistics for display. -/
def display (s : Statistics) : Text :=
  Text.ofNat s.lines ++ " lines · ".toList ++ Text.ofNat s.chars ++ " chars · ".toList ++
    Text.ofNat s.keywords ++ " keywords · ".toList ++ Text.ofNat s.functions ++
    " functions".toList

end Statistics

end CodeSnippets

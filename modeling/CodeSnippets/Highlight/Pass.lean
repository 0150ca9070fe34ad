/-
  The passes that classify a text.

  Every pass cuts the plain segments of a stream up and leaves the classified
  ones alone, so an earlier pass takes precedence over a later one.  A pass is a
  list of rules, which run one after the other: one for most passes, one for each
  word or operator of the vocabulary for the others.

  * `Rule.pieces`: what a rule makes of a plain text: the characters outside its
    matches stay plain, and each match is replaced;
  * `Tally`: how many keywords and function names the rules have found;
  * `Pass.apply`: a pass on a stream; `runPasses`: all passes, in order, on a text.
-/
import CodeSnippets.Highlight.Comments
import CodeSnippets.Highlight.Literals
import CodeSnippets.Highlight.Segment
import CodeSnippets.Highlight.Symbols
import CodeSnippets.Highlight.Words

namespace CodeSnippets

/-! ## Rules -/

/-- Where a rule applies and what it puts in the place of a match. -/
structure Rule where
  matcher : Matcher
  replace : Text → List Segment

namespace Rule

/-- The rule that gives every match a kind. -/
def wrap (m : Matcher) (k : Kind) : Rule := ⟨m, fun t => [⟨k, t⟩]⟩

/-- The rule for an operator: whatever white space is around it becomes a single
    space on either side. -/
def spaced (o : Operator) : Rule :=
  ⟨spacedOperator o, fun _ => [.plain [' '], ⟨.operator, o.escaped⟩, .plain [' ']]⟩

/-- What a rule makes of a part of a text. -/
def ofCut (r : Rule) : Cut → List Segment
  | .kept c => [.plain [c]]
  | .matched t => r.replace t

/-- What a rule makes of a plain text. -/
def pieces (r : Rule) (t : Text) : List Segment := (r.matcher.cuts t).flatMap r.ofCut

end Rule

/-! ## Tallies -/

/-- The numbers of keywords and of function names found. -/
structure Tally where
  keywords : Nat
  functions : Nat
  deriving DecidableEq, Repr

namespace Tally

/-- Nothing found. -/
def zero : Tally := ⟨0, 0⟩

/-- The tally of some pieces. -/
def ofPieces (l : List Segment) : Tally where
  keywords := l.countP fun s => s.kind == .keyword
  functions := l.countP fun s => s.kind == .functionName

/-- The sum of two tallies. -/
def add (a b : Tally) : Tally := ⟨a.keywords + b.keywords, a.functions + b.functions⟩

end Tally

/-- A stream and what has been found in it so far. -/
structure Progress where
  stream : SegmentStream
  tally : Tally

/-- A rule on the plain segments of a stream. -/
def Rule.run (r : Rule) (g : Progress) : Progress where
  stream := g.stream.replacePlain r.pieces
  tally := g.tally.add (.ofPieces (g.stream.plainTexts.flatMap r.pieces))

/-! ## Passes -/

/-- The kinds of pass. -/
inductive Pass where
  | lineComments
  | blockComments
  | strings
  | numbers
  | platformGlobals
  | keywords
  | functionCalls
  | brackets
  | operators
  deriving DecidableEq, Repr

namespace Pass

/-- The passes in the order in which they run. -/
def order : List Pass :=
  [.lineComments, .blockComments, .strings, .numbers, .platformGlobals, .keywords,
   .functionCalls, .brackets, .operators]

/-- The name of a pass. -/
def name : Pass → Text
  | .lineComments => "line-comments".toList
  | .blockComments => "block-comments".toList
  | .strings => "strings".toList
  | .numbers => "numbers".toList
  | .platformGlobals => "platform-globals".toList
  | .keywords => "keywords".toList
  | .functionCalls => "function-calls".toList
  | .brackets => "brackets".toList
  | .operators => "operators".toList

/-- The pass with a name. -/
def ofName? (t : Text) : Option Pass := order.find? fun p => p.name == t

/-- The rules of a pass, in the order in which they run. -/
def rules (v : Vocabulary) : Pass → List Rule
  | .lineComments => [.wrap lineComment .comment]
  | .blockComments => [.wrap blockComment .comment]
  | .strings => [.wrap stringLiteral .string]
  | .numbers => [.wrap number .number]
  | .platformGlobals => v.globals.map fun w => .wrap (wholeWord w.spelling) .platformGlobal
  | .keywords => v.keywords.map fun w => .wrap (wholeWord w.spelling) .keyword
  | .functionCalls => [.wrap functionCall .functionName]
  | .brackets => [.wrap bracket .bracket]
  | .operators => v.operators.map .spaced

/-- A pass on a stream. -/
def apply (v : Vocabulary) (p : Pass) (g : Progress) : Progress :=
  (p.rules v).foldl (fun g r => r.run g) g

end Pass

/-- Some passes on a stream, in the order given. -/
def applyPasses (v : Vocabulary) (ps : List Pass) (g : Progress) : Progress :=
  ps.foldl (fun g p => p.apply v g) g

/-- All passes on a text that has been escaped. -/
def runPasses (v : Vocabulary) (escaped : Text) : Progress :=
  applyPasses v Pass.order ⟨.ofPlain escaped, .zero⟩

end CodeSnippets

/-
  Markup of a stream of segments, and pages around it.

  * `render`: plain text as it is, a classified segment in a `span` whose class
    names its kind;
  * `renderPage`: a page of its own around markup, with a style for every class.
-/
import CodeSnippets.Highlight.Escape
import CodeSnippets.Highlight.Statistics

namespace CodeSnippets

/-- The name of the style of a kind; plain text has none. -/
def Kind.cssClass? : Kind → Option Text
  | .comment => some "comment".toList
  | .string => some "string".toList
  | .number => some "number".toList
  | .platformGlobal => some "workers-specific".toList
  | .keyword => some "keyword".toList
  | .functionName => some "function".toList
  | .bracket => some "bracket".toList
  | .operator => some "operator".toList
  | .plain => none

/-- The markup of a segment, whose text is escaped already. -/
def Segment.render (s : Segment) : Text :=
  match s.kind.cssClass? with
  | none => s.text
  | some cls => "<span class=\"".toList ++ cls ++ "\">".toList ++ s.text ++ "</span>".toList

/-- The markup of a stream. -/
def SegmentStream.render (s : SegmentStream) : Text := s.segments.flatMap Segment.render

/-- Lines of text, each with its line feed. -/
def linesOf (lines : List String) : Text := lines.flatMap fun line => line.toList ++ ['\n']

/-- The styles of the kinds. -/
def stylesheet : Text := linesOf [
  ".keyword\x7bcolor:#d73a49;font-weight:bold\x7d",
  ".function\x7bcolor:#6f42c1\x7d",
  ".string\x7bcolor:#032f62\x7d",
  ".comment\x7bcolor:#6a737d;font-style:italic\x7d",
  ".number\x7bcolor:#005cc5\x7d",
  ".workers-specific\x7bcolor:#e36209;font-weight:bold\x7d",
  ".bracket\x7bcolor:#24292e;font-weight:bold\x7d",
  ".operator\x7bcolor:#d73a49\x7d"]

/-- The style of the block that holds the markup. -/
def blockStyle : String :=
  "pre\x7bfont-family:Consolas,Monaco,\"Courier New\",monospace;font-size:14px;" ++
    "white-space:pre-wrap;word-wrap:break-word\x7d"

/-- A page that shows markup under a title, with statistics at its foot. -/
def renderPage (markup : Text) (statistics : Statistics) (title : Text) : Text :=
  linesOf ["<!DOCTYPE html>", "<html>", "<head>", "<meta charset=\"UTF-8\">"] ++
    "<title>".toList ++ escape title ++ linesOf ["</title>", "<style>", blockStyle] ++
    stylesheet ++ linesOf ["</style>", "</head>", "<body>"] ++
    "<pre id=\"highlightedOutput\">".toList ++ markup ++ linesOf ["</pre>"] ++
    "<footer>".toList ++ statistics.display ++ linesOf ["</footer>", "</body>", "</html>"]

end CodeSnippets

/-
  The formats in which a highlighted source is written.

  * `markup`: the markup alone;
  * `page`: a page of its own, with a title;
  * `json`: the markup and the statistics as a JSON object.
-/
import CodeSnippets.Highlight.Highlighter
import CodeSnippets.Web.Json

namespace CodeSnippets

/-- How a highlighted source is written. -/
inductive Format where
  | markup
  | page
  | json
  deriving DecidableEq, Repr

/-- The format with a name. -/
def Format.ofName? (name : Text) : Option Format :=
  if name = "markup".toList then some .markup
  else if name = "page".toList then some .page
  else if name = "json".toList then some .json
  else none

namespace Highlighted

/-- A highlighted source as a JSON value. -/
def json (h : Highlighted) : JsonValue :=
  .object [
    ("markup".toList, .string h.markup),
    ("stats".toList, .object [
      ("lines".toList, .number h.statistics.lines),
      ("chars".toList, .number h.statistics.chars),
      ("keywordCount".toList, .number h.statistics.keywords),
      ("functionCount".toList, .number h.statistics.functions)])]

/-- A highlighted source as a page. -/
def page (h : Highlighted) (title : Text) : Text := renderPage h.markup h.statistics title

end Highlighted

/-- A highlighted source in a format. -/
def Format.write (format : Format) (title : Text) (h : Highlighted) : Text :=
  match format with
  | .markup => h.markup
  | .page => h.page title
  | .json => h.json.pretty

end CodeSnippets

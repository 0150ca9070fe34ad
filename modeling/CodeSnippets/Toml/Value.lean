/-
  TOML documents as nested tables.

  A table remembers how it came about, since that decides what may still be put
  into it:

  * `header`: written as `[a]`, complete with the lines below its header;
  * `implied`: named on the way to a deeper header, which `[a]` may still open;
  * `dotted`: named on the way in a dotted key, which more dotted keys may fill;
  * `braced`: written between braces, closed.

  `define` puts a value under a dotted key, `openTable` and `openElement` make
  room for the lines below `[a]` and `[[a]]`, and `assemble` does so for all lines
  of a document.  None of them ever replaces a value.
-/
import CodeSnippets.Text.Basic

namespace CodeSnippets.Toml

/-- How a table came about. -/
inductive Origin where
  | header
  | implied
  | dotted
  | braced
  deriving DecidableEq, Repr

/-- A value of a document.  Of floats and of dates and times, only the spelling is
    kept. -/
inductive Value where
  | string (t : Text)
  | integer (n : Int)
  | float (spelling : Text)
  | boolean (b : Bool)
  | moment (spelling : Text)
  | array (items : List Value)
  | table (origin : Origin) (entries : List (Text × Value))
  /-- the tables under headers in double brackets -/
  | elements (tables : List (List (Text × Value)))

/-- Keys with their values, in the order in which they were written. -/
abbrev Entries := List (Text × Value)

namespace Entries

/-- The value of a key. -/
def find? (es : Entries) (key : Text) : Option Value :=
  (List.find? (fun e => e.1 == key) es).map Prod.snd

/-- The entries with another value for a key that is among them. -/
def replace (es : Entries) (key : Text) (v : Value) : Entries :=
  List.map (fun e => if e.1 = key then (key, v) else e) es

end Entries

/-- A change of a table, which fails where the document contradicts itself. -/
abbrev Change := Origin → Entries → Option (Origin × Entries)

/-- A change of the table at a path, seen from the table where the path begins.
    Tables that are missing on the way are made; the way goes through the last
    element of an array of tables, and never through a braced table.  A dotted key
    does not go through a table with a header of its own either. -/
def changeAt (byDots : Bool) : (path : List Text) → Change → Change
  | [], change => change
  | key :: path, change => fun origin es =>
    match es.find? key with
    | none => do
      let made := if byDots then Origin.dotted else Origin.implied
      let (o, sub) ← changeAt byDots path change made []
      return (origin, es ++ [(key, .table o sub)])
    | some (.table o sub) =>
      if o = .braced || (byDots && o = .header) then none
      else do
        let (o, sub) ← changeAt byDots path change o sub
        return (origin, es.replace key (.table o sub))
    | some (.elements tables) =>
      match tables.getLast? with
      | none => none
      | some last => do
        let (_, last) ← changeAt byDots path change .header last
        return (origin, es.replace key (.elements (tables.dropLast ++ [last])))
    | some _ => none

/-- A new value under a dotted key; the table that it goes into is the one at
    hand, or one that only dotted keys have made. -/
def define (path : List Text) (key : Text) (v : Value) : Change :=
  changeAt true path fun origin es =>
    if !path.isEmpty && origin ≠ .dotted then none
    else if (es.find? key).isSome then none
    else some (origin, es ++ [(key, v)])

/-- Room for the lines below `[path.key]`. -/
def openTable (path : List Text) (key : Text) : Change :=
  changeAt false path fun origin es =>
    match es.find? key with
    | none => some (origin, es ++ [(key, .table .header [])])
    | some (.table .implied sub) => some (origin, es.replace key (.table .header sub))
    | some _ => none

/-- Room for the lines below `[[path.key]]`. -/
def openElement (path : List Text) (key : Text) : Change :=
  changeAt false path fun origin es =>
    match es.find? key with
    | none => some (origin, es ++ [(key, .elements [[]])])
    | some (.elements tables) => some (origin, es.replace key (.elements (tables ++ [[]])))
    | some _ => none

/-- A line of a document that says something; a key is a path and its last part. -/
inductive Line where
  | table (path : List Text) (key : Text)
  | element (path : List Text) (key : Text)
  | entry (path : List Text) (key : Text) (v : Value)

/-- The entries of a document with a line more, and the path of the table that the
    next lines go into. -/
def addLine (state : List Text × Entries) (line : Line) : Option (List Text × Entries) :=
  let (here, es) := state
  match line with
  | .table path key => (openTable path key .header es).map fun r => (path ++ [key], r.2)
  | .element path key => (openElement path key .header es).map fun r => (path ++ [key], r.2)
  | .entry path key v => (changeAt false here (define path key v) .header es).map fun r => (here, r.2)

/-- The entries of a document with some lines. -/
def assemble (lines : List Line) : Option Entries :=
  (lines.foldlM addLine ([], [])).map Prod.snd

/-- The table between braces with some entries. -/
def braced (entries : List (List Text × Text × Value)) : Option Value :=
  (entries.foldlM (fun es (path, key, v) => (define path key v .braced es).map Prod.snd) []).map
    (.table .braced)

end CodeSnippets.Toml

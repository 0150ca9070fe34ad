/-
  JSON values and their text.

  * `JsonValue.compact`: without any space;
  * `JsonValue.pretty`: one item a line, indented by two spaces a level.

  Inside a string, the quote, the backslash and the control characters are
  escaped, by a letter if there is one and else by their code; all other
  characters stand for themselves.
-/
import CodeSnippets.Text.Basic

namespace CodeSnippets

/-- A JSON value; the only numbers are natural ones. -/
inductive JsonValue where
  | bool (b : Bool)
  | number (n : Nat)
  | string (t : Text)
  | array (items : List JsonValue)
  | object (members : List (Text × JsonValue))

/-- The spelling of a character inside a JSON string. -/
def escapeJsonChar (c : Char) : Text :=
  if c = '"' then ['\\', '"']
  else if c = '\\' then ['\\', '\\']
  else if c = '\x08' then ['\\', 'b']
  else if c = '\x09' then ['\\', 't']
  else if c = '\x0a' then ['\\', 'n']
  else if c = '\x0c' then ['\\', 'f']
  else if c = '\x0d' then ['\\', 'r']
  else if c.toNat < 0x20 then ['\\', 'u'] ++ Text.hexDigits 4 c.toNat
  else [c]

/-- A text as a JSON string, with its quotes. -/
def jsonString (t : Text) : Text := '"' :: t.flatMap escapeJsonChar ++ ['"']

namespace JsonValue

mutual

/-- The text of a value without any space. -/
def compact : JsonValue → Text
  | .bool b => (if b then "true" else "false").toList
  | .number n => Text.ofNat n
  | .string t => jsonString t
  | .array items => '[' :: Text.join [','] (compactItems items) ++ [']']
  | .object members => '\x7b' :: Text.join [','] (compactMembers members) ++ ['\x7d']

/-- The texts of the items of an array. -/
def compactItems : List JsonValue → List Text
  | [] => []
  | v :: rest => v.compact :: compactItems rest

/-- The texts of the members of an object. -/
def compactMembers : List (Text × JsonValue) → List Text
  | [] => []
  | (key, v) :: rest => (jsonString key ++ ':' :: v.compact) :: compactMembers rest

end

/-- Items on lines of their own at a level, between brackets; brackets around
    nothing touch. -/
def block (level : Nat) (opening closing : Char) (items : List Text) : Text :=
  let line := fun n => '\n' :: List.replicate (2 * n) ' '
  if items.isEmpty then [opening, closing]
  else opening :: line (level + 1) ++ Text.join (',' :: line (level + 1)) items ++
    line level ++ [closing]

mutual

/-- The text of a value at a level, with one item a line. -/
def prettyAt (level : Nat) : JsonValue → Text
  | .bool b => (if b then "true" else "false").toList
  | .number n => Text.ofNat n
  | .string t => jsonString t
  | .array items => block level '[' ']' (prettyItems (level + 1) items)
  | .object members => block level '\x7b' '\x7d' (prettyMembers (level + 1) members)

/-- The texts of the items of an array at a level. -/
def prettyItems (level : Nat) : List JsonValue → List Text
  | [] => []
  | v :: rest => v.prettyAt level :: prettyItems level rest

/-- The texts of the members of an object at a level. -/
def prettyMembers (level : Nat) : List (Text × JsonValue) → List Text
  | [] => []
  | (key, v) :: rest => (jsonString key ++ ": ".toList ++ v.prettyAt level) :: prettyMembers level rest

end

/-- The text of a value with one item a line. -/
def pretty (v : JsonValue) : Text := v.prettyAt 0

end JsonValue

end CodeSnippets

/-
  Readers of text.

  A reader takes a part off the start of a text and gives what it has read with
  the rest; where it does not fit, it gives nothing, and another reader may try
  the same place.

  * `charIf`, `takeWhile`, `literal`: the smallest readers;
  * `optionally`, `repeatedly`: a reader as often as it fits, at most once or
    without a bound.  `repeatedly` stops where the reader takes nothing, so it
    always ends;
  * `separated`: a reader as often as it fits, with a separator between each two;
  * `spelled`: the text that a reader takes off.
-/
import CodeSnippets.Text.Basic

namespace CodeSnippets

/-- Takes a part off the start of a text. -/
abbrev Reader := StateT Text Option

namespace Reader

/-- Takes nothing and never fits. -/
def fail {α : Type} : Reader α := fun _ => none

/-- A character of a class. -/
def charIf (p : Char → Bool) : Reader Char := fun t =>
  match t with
  | [] => none
  | c :: rest => if p c then some (c, rest) else none

/-- The given character. -/
def char (c : Char) : Reader Unit := fun t =>
  match t with
  | [] => none
  | d :: rest => if d = c then some ((), rest) else none

/-- All characters of a class. -/
def takeWhile (p : Char → Bool) : Reader Text := fun t => some (t.takeWhile p, t.dropWhile p)

/-- The given text. -/
def literal (l : Text) : Reader Unit := fun t =>
  if l.isPrefixOf t then some ((), t.drop l.length) else none

/-- The end of the text. -/
def atEnd : Reader Unit := fun t => if t.isEmpty then some ((), t) else none

/-- A reader if it fits. -/
def optionally {α : Type} (r : Reader α) : Reader (Option α) := fun t =>
  match r t with
  | some (a, rest) => some (some a, rest)
  | none => some (none, t)

/-- A reader as often as it fits and takes something. -/
def repeatedly {α : Type} (r : Reader α) : Reader (List α) := fun t =>
  match r t with
  | none => some ([], t)
  | some (a, rest) =>
    if rest.length < t.length then (repeatedly r rest).map fun (as, rest) => (a :: as, rest)
    else some ([], t)
termination_by t => t.length

/-- A reader as often as it fits, with another between each two.  A separator
    behind the last stays in the text. -/
def separated {α β : Type} (separator : Reader β) (r : Reader α) : Reader (List α) := do
  match ← optionally r with
  | none => return []
  | some first => return first :: (← repeatedly (do let _ ← separator; r))

/-- What a reader takes off. -/
def spelled {α : Type} (r : Reader α) : Reader Text := fun t =>
  (r t).map fun (_, rest) => (t.take (t.length - rest.length), rest)

/-- Exactly `n` characters of a class. -/
def exactly (n : Nat) (p : Char → Bool) : Reader Text := fun t =>
  let part := t.take n
  if part.length = n && part.all p then some (part, t.drop n) else none

end Reader

end CodeSnippets

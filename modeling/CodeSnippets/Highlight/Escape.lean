/-
  Escaping of text for markup.

  Text is escaped once, before it is cut into segments; from then on an `&` only
  occurs as the first character of one of the three entities written here.
-/
import CodeSnippets.Text.Basic

namespace CodeSnippets

/-- The entity of a character with a meaning in markup; any other character
    stands for itself. -/
def escapeChar (c : Char) : Text :=
  if c = '&' then ['&', 'a', 'm', 'p', ';']
  else if c = '<' then ['&', 'l', 't', ';']
  else if c = '>' then ['&', 'g', 't', ';']
  else [c]

/-- The text with `&`, `<` and `>` replaced by their entities. -/
def escape (t : Text) : Text := t.flatMap escapeChar

@[simp] theorem escape_nil : escape [] = [] := rfl

@[simp] theorem escape_cons (c : Char) (t : Text) : escape (c :: t) = escapeChar c ++ escape t := by
  simp [escape]

@[simp] theorem escape_append (s t : Text) : escape (s ++ t) = escape s ++ escape t := by
  simp [escape]

theorem escapeChar_ne_nil (c : Char) : escapeChar c ≠ [] := by
  unfold escapeChar
  split
  · simp
  · split
    · simp
    · split <;> simp

theorem escape_eq_nil {t : Text} : escape t = [] ↔ t = [] := by
  cases t with
  | nil => simp
  | cons c t => simp [escapeChar_ne_nil]

end CodeSnippets

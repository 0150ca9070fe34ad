/-
  The ids of snippets.

  * `SnippetId.ofText?`: the id that a request names: its text without the white
    space at either end, none if nothing is left;
  * `SnippetId.ofDraw`: the id made of a random number: the first digits of a
    random UUID without its dashes, at least one and at most all 32;
  * ids are ordered by their characters (`lt_of_not_lt_of_ne`: of two different
    ids one is below the other).
-/
import CodeSnippets.Text.Basic

namespace CodeSnippets

/-- The id of a snippet. -/
structure SnippetId where
  text : Text
  deriving DecidableEq, Repr

namespace SnippetId

instance : LT SnippetId := ⟨fun a b => a.text < b.text⟩

instance (a b : SnippetId) : Decidable (a < b) := inferInstanceAs (Decidable (a.text < b.text))

theorem lt_irrefl (a : SnippetId) : ¬ a < a := List.lt_irrefl a.text

theorem lt_trans {a b c : SnippetId} (hab : a < b) (hbc : b < c) : a < c :=
  List.lt_trans hab hbc

theorem lt_of_not_lt_of_ne {a b : SnippetId} (h : ¬ a < b) (hne : a ≠ b) : b < a := by
  refine Decidable.byContradiction fun hba => hne ?_
  have : a.text = b.text := Std.Trichotomous.trichotomous (r := (· < ·)) a.text b.text h hba
  cases a
  cases b
  exact congrArg SnippetId.mk this

/-- The id that a text names. -/
def ofText? (t : Text) : Option SnippetId :=
  let t := Text.trim t
  if t.isEmpty then none else some ⟨t⟩

/-- The 32 digits of a random UUID: those of a number of 128 bits, with the
    version in digit 12 and the variant in digit 16. -/
def randomDigits (n : Nat) : Text :=
  let digits := Text.hexDigits 32 (n % Nat.pow 16 32)
  (digits.set 12 '4').modify 16 fun d => Nat.digitChar (8 + (hexValue? d).getD 0 % 4)

/-- The id of a given length made of a random number. -/
def ofDraw (length n : Nat) : SnippetId := ⟨(randomDigits n).take (min (max length 1) 32)⟩

end SnippetId

end CodeSnippets

/-
  Matching from left to right.

  A matcher looks at one place of a text: the character before it, the character
  at it and the text behind that.  Where it matches, it tells how many characters
  after the first belong to the match, so a match is never empty.

  * `Matcher.cuts` cuts a text into the matches and the characters between them;
    a match is taken at the leftmost place, and the search goes on behind it;
  * `Matcher.occurrences` lists the matches with the number of characters before
    each;
  * `text_cuts`: no character is lost, doubled or moved.
-/
import CodeSnippets.Text.Basic

namespace CodeSnippets

/-- How many characters after `c` a match at `c` takes, between the character
    before it, if there is one, and the text behind it. -/
abbrev Matcher := (before : Option Char) → (c : Char) → (rest : Text) → Option Nat

/-- A part of a text: a character outside all matches, or a match. -/
inductive Cut where
  | kept (c : Char)
  | matched (t : Text)
  deriving DecidableEq, Repr

/-- The text of a part. -/
def Cut.text : Cut → Text
  | .kept c => [c]
  | .matched t => t

namespace Matcher

/-- The parts of `t`, behind the parts `done`, which are in reverse order. -/
def cutsFrom (m : Matcher) (before : Option Char) (t : Text) (done : List Cut) : List Cut :=
  match t with
  | [] => done.reverse
  | c :: rest =>
    match m before c rest with
    | none => cutsFrom m (some c) rest (.kept c :: done)
    | some n =>
      cutsFrom m (some ((rest.take n).getLastD c)) (rest.drop n)
        (.matched (c :: rest.take n) :: done)
termination_by t.length
decreasing_by
  · simp
  · simp only [List.length_drop, List.length_cons]
    omega

/-- The parts of a text, from its start. -/
def cuts (m : Matcher) (t : Text) : List Cut := m.cutsFrom none t []

theorem cutsFrom_eq_append (m : Matcher) (before : Option Char) (t : Text) (done : List Cut) :
    m.cutsFrom before t done = done.reverse ++ m.cutsFrom before t [] := by
  induction h : t.length using Nat.strongRecOn generalizing t before done with
  | _ n ih =>
    subst h
    cases t with
    | nil => simp [cutsFrom]
    | cons c rest =>
      rw [cutsFrom, cutsFrom]
      cases hm : m before c rest with
      | none =>
        simp only
        rw [ih rest.length (by simp) _ rest (.kept c :: done) rfl,
          ih rest.length (by simp) _ rest [.kept c] rfl]
        simp
      | some k =>
        simp only
        have hlt : (rest.drop k).length < (c :: rest).length := by
          simp only [List.length_drop, List.length_cons]
          omega
        rw [ih _ hlt _ _ (.matched (c :: rest.take k) :: done) rfl,
          ih _ hlt _ _ [.matched (c :: rest.take k)] rfl]
        simp

@[simp] theorem cutsFrom_nil (m : Matcher) (before : Option Char) :
    m.cutsFrom before [] [] = [] := by
  simp [cutsFrom]

theorem cutsFrom_cons_of_none {m : Matcher} {before : Option Char} {c : Char} {rest : Text}
    (h : m before c rest = none) :
    m.cutsFrom before (c :: rest) [] = .kept c :: m.cutsFrom (some c) rest [] := by
  rw [cutsFrom, h]
  simp only
  rw [cutsFrom_eq_append]
  rfl

theorem cutsFrom_cons_of_some {m : Matcher} {before : Option Char} {c : Char} {rest : Text}
    {n : Nat} (h : m before c rest = some n) :
    m.cutsFrom before (c :: rest) [] = .matched (c :: rest.take n) ::
      m.cutsFrom (some ((rest.take n).getLastD c)) (rest.drop n) [] := by
  rw [cutsFrom, h]
  simp only
  rw [cutsFrom_eq_append]
  rfl

theorem text_cutsFrom (m : Matcher) (before : Option Char) (t : Text) :
    (m.cutsFrom before t []).flatMap Cut.text = t := by
  induction h : t.length using Nat.strongRecOn generalizing t before with
  | _ n ih =>
    subst h
    cases t with
    | nil => simp
    | cons c rest =>
      cases hm : m before c rest with
      | none =>
        rw [cutsFrom_cons_of_none hm]
        simp [Cut.text, ih rest.length (by simp) _ rest rfl]
      | some k =>
        have hlt : (rest.drop k).length < (c :: rest).length := by
          simp only [List.length_drop, List.length_cons]
          omega
        rw [cutsFrom_cons_of_some hm]
        simp [Cut.text, ih _ hlt _ _ rfl]

theorem text_cuts (m : Matcher) (t : Text) : (m.cuts t).flatMap Cut.text = t :=
  m.text_cutsFrom none t

/-- The matches among some parts, each with the number of characters before it. -/
def occurrencesFrom (start : Nat) : List Cut → List (Nat × Text)
  | [] => []
  | .kept _ :: more => occurrencesFrom (start + 1) more
  | .matched t :: more => (start, t) :: occurrencesFrom (start + t.length) more

/-- The matches in a text, each with the number of characters before it. -/
def occurrences (m : Matcher) (t : Text) : List (Nat × Text) := occurrencesFrom 0 (m.cuts t)

end Matcher

end CodeSnippets

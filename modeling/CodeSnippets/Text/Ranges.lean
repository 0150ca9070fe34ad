/-
  Sets of characters given as ascending ranges of code points.

  * `CodeRanges.contains` walks the ranges in order and stops at the first range
    above the code point it looks for, so a common character is found early;
  * `mem_of_contains`: whatever it finds does lie in a range of the list.
-/

namespace CodeSnippets

/-- Ranges of code points in ascending order, each by its first and last member. -/
abbrev CodeRanges := List (Nat × Nat)

/-- Whether a code point lies in one of the ranges. -/
def CodeRanges.contains : CodeRanges → Nat → Bool
  | [], _ => false
  | (first, last) :: rest, n =>
    if n < first then false else if n ≤ last then true else CodeRanges.contains rest n

theorem CodeRanges.mem_of_contains {rs : CodeRanges} {n : Nat} (h : rs.contains n = true) :
    ∃ r ∈ rs, r.1 ≤ n ∧ n ≤ r.2 := by
  induction rs with
  | nil => simp [contains] at h
  | cons r rest ih =>
    obtain ⟨first, last⟩ := r
    simp only [contains] at h
    split at h
    · simp at h
    · split at h
      · exact ⟨(first, last), by simp, by dsimp; omega, by dsimp; omega⟩
      · obtain ⟨r, hr, hn⟩ := ih h
        exact ⟨r, by simp [hr], hn⟩

end CodeSnippets

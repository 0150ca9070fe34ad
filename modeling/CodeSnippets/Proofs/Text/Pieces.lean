/-
  The pieces of a text between the occurrences of a character.

  * `Text.splitAtFirst_append`: the first piece and the rest;
  * `Text.splitOn_append_cons`: pieces on both sides of an occurrence;
  * `Text.splitOn_join`: parts without the character are the pieces of their join;
  * `Text.exists_dropEndWhile`: a text without the last characters of a class, and these
    characters.
-/
import CodeSnippets.Proofs.Text.LeadingRuns
import Mathlib.Tactic.SplitIfs

namespace CodeSnippets.Text

/-! ## Pieces -/

theorem splitAtFirst_append {c : Char} {l : Text} (h : c ∉ l) (r : Text) :
    splitAtFirst c (l ++ c :: r) = some (l, r) := by
  induction l with
  | nil => simp [splitAtFirst]
  | cons d l ih =>
    obtain ⟨hd, hl⟩ := not_or.1 (mt List.mem_cons.2 h)
    rw [List.cons_append, splitAtFirst, if_neg (Ne.symm hd), ih hl]
    rfl

theorem splitOn_of_not_mem {c : Char} {t : Text} (h : c ∉ t) : splitOn c t = [t] := by
  induction t with
  | nil => rfl
  | cons d t ih =>
    obtain ⟨hd, ht⟩ := not_or.1 (mt List.mem_cons.2 h)
    rw [splitOn, if_neg (Ne.symm hd), ih ht]

theorem splitOn_ne_nil (c : Char) (t : Text) : splitOn c t ≠ [] := by
  cases t with
  | nil => exact List.cons_ne_nil _ _
  | cons d t =>
    rw [splitOn]
    split_ifs
    · exact List.cons_ne_nil _ _
    · split <;> exact List.cons_ne_nil _ _

theorem splitOn_append_cons (c : Char) (s t : Text) :
    splitOn c (s ++ c :: t) = splitOn c s ++ splitOn c t := by
  induction s with
  | nil => simp [splitOn]
  | cons d s ih =>
    rw [List.cons_append, splitOn, splitOn, ih]
    split_ifs with h
    · rfl
    · obtain ⟨piece, more, hs⟩ := List.exists_cons_of_ne_nil (splitOn_ne_nil c s)
      rw [hs]
      rfl

theorem splitOn_replicate (c : Char) (k : Nat) :
    splitOn c (List.replicate k c) = List.replicate (k + 1) [] := by
  induction k with
  | zero => rfl
  | succ k ih => rw [List.replicate_succ, splitOn, if_pos rfl, ih, ← List.replicate_succ]

theorem splitOn_append_replicate (c : Char) (s : Text) (k : Nat) :
    splitOn c (s ++ List.replicate k c) = splitOn c s ++ List.replicate k [] := by
  cases k with
  | zero => simp
  | succ k => rw [List.replicate_succ, splitOn_append_cons, splitOn_replicate]

theorem splitOn_append {c : Char} {l : Text} (h : c ∉ l) (r : Text) :
    splitOn c (l ++ c :: r) = l :: splitOn c r := by
  rw [splitOn_append_cons, splitOn_of_not_mem h]
  rfl

/-- Parts without a character, with that character between each two, are its pieces. -/
theorem splitOn_join {c : Char} {part : Text} {parts : List Text}
    (h : ∀ p ∈ part :: parts, c ∉ p) : splitOn c (join [c] (part :: parts)) = part :: parts := by
  induction parts generalizing part with
  | nil => exact splitOn_of_not_mem (h part List.mem_cons_self)
  | cons next parts ih =>
    obtain ⟨hpart, hrest⟩ := List.forall_mem_cons.1 h
    rw [join, List.append_assoc, List.singleton_append, splitOn_append hpart, ih hrest]
    · simp

/-! ## Without the last characters of a class -/

/-- A text is what is left when the last characters of a class are dropped, with these
    characters behind it. -/
theorem exists_dropEndWhile (p : Char → Bool) (t : Text) :
    ∃ s, t = dropEndWhile p t ++ s ∧ ∀ c ∈ s, p c = true := by
  refine ⟨(t.reverse.takeWhile p).reverse, ?_, ?_⟩
  · rw [dropEndWhile, ← List.reverse_append, List.takeWhile_append_dropWhile, List.reverse_reverse]
  · intro c hc
    exact List.mem_takeWhile_imp (List.mem_reverse.1 hc)

theorem exists_dropEndWhile_beq (c : Char) (t : Text) :
    ∃ k, t = dropEndWhile (· == c) t ++ List.replicate k c := by
  obtain ⟨s, ht, hs⟩ := exists_dropEndWhile (· == c) t
  refine ⟨s.length, ?_⟩
  rwa [← List.eq_replicate_iff.2 ⟨rfl, fun d hd => beq_iff_eq.1 (hs d hd)⟩]

theorem dropEndWhile_of_getLast? {p : Char → Bool} {s : Text} (hs : ∀ c ∈ s.getLast?, p c = false) :
    dropEndWhile p s = s := by
  rw [← List.head?_reverse] at hs
  rw [dropEndWhile]
  cases h : s.reverse with
  | nil => simpa using h.symm
  | cons c t =>
    rw [h] at hs
    rw [List.dropWhile_cons, hs c rfl, if_neg Bool.false_ne_true, ← h, List.reverse_reverse]

theorem getLast?_dropEndWhile {p : Char → Bool} {t : Text} {c : Char}
    (h : c ∈ (dropEndWhile p t).getLast?) : p c = false := by
  rw [dropEndWhile, List.getLast?_reverse] at h
  exact head?_dropWhile_neg h

end CodeSnippets.Text

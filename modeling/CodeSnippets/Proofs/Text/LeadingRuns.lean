/-
  The characters of a class that stand at the start of a text.

  * `takeWhile_append_eq_left`, `dropWhile_append_eq_right`: where the class ends with the
    first of two texts;
  * `takeWhile_append_of_head?`, `dropWhile_append_of_head?`: where it does not go on into
    the second;
  * `splitBy_class_append`, `splitBy_class_cons`: a text cut into its maximal runs of the class
    and the characters outside it;
  * `Text.trim_of_no_space`: a text without white space is trimmed already.
-/
import CodeSnippets.Text.Basic
import Mathlib.Data.List.SplitBy
import Mathlib.Data.List.TakeWhile

namespace CodeSnippets

theorem take_length_takeWhile (p : Char → Bool) (t : Text) :
    t.take (t.takeWhile p).length = t.takeWhile p :=
  (List.prefix_iff_eq_take.1 (List.takeWhile_prefix p)).symm

theorem drop_length_takeWhile (p : Char → Bool) (t : Text) :
    t.drop (t.takeWhile p).length = t.dropWhile p := by
  have h := List.take_append_drop (t.takeWhile p).length t
  rw [take_length_takeWhile] at h
  exact List.append_cancel_left (h.trans List.takeWhile_append_dropWhile.symm)

theorem takeWhile_append_eq_left {p : Char → Bool} {r t : Text} (hr : ∀ c ∈ r, p c = true)
    (ht : ∀ c ∈ t.head?, p c = false) : (r ++ t).takeWhile p = r := by
  rw [List.takeWhile_append_of_pos hr]
  cases t with
  | nil => simp
  | cons d t => simp [ht d rfl]

theorem dropWhile_append_eq_right {p : Char → Bool} {r t : Text} (hr : ∀ c ∈ r, p c = true)
    (ht : ∀ c ∈ t.head?, p c = false) : (r ++ t).dropWhile p = t := by
  rw [List.dropWhile_append_of_pos hr]
  cases t with
  | nil => simp
  | cons d t => simp [ht d rfl]

theorem takeWhile_append_of_head? {p : Char → Bool} {s t : Text}
    (ht : ∀ d ∈ t.head?, p d = false) : (s ++ t).takeWhile p = s.takeWhile p := by
  induction s with
  | nil => exact takeWhile_append_eq_left (by simp) ht
  | cons c s ih => rw [List.cons_append, List.takeWhile_cons, List.takeWhile_cons, ih]

theorem dropWhile_append_of_head? {p : Char → Bool} {s t : Text}
    (ht : ∀ d ∈ t.head?, p d = false) : (s ++ t).dropWhile p = s.dropWhile p ++ t := by
  induction s with
  | nil => exact dropWhile_append_eq_right (r := []) (by simp) ht
  | cons c s ih =>
    rw [List.cons_append, List.dropWhile_cons, List.dropWhile_cons, ih]
    split <;> rfl

theorem head?_dropWhile_neg {p : Char → Bool} {t : Text} {c : Char}
    (h : c ∈ (t.dropWhile p).head?) : p c = false := by
  have := List.head?_dropWhile_not p t
  rw [Option.mem_def.1 h] at this
  simpa using this

/-! ## Runs and what is between them -/

/-- A run in front of a text that does not go on with it. -/
theorem splitBy_class_append {p : Char → Bool} {r t : Text} (hne : r ≠ [])
    (hr : ∀ c ∈ r, p c = true) (ht : ∀ c ∈ t.head?, p c = false) :
    (r ++ t).splitBy (fun c d => p c && p d) = r :: t.splitBy fun c d => p c && p d := by
  have hone : r.splitBy (fun c d => p c && p d) = [r] := by
    refine List.splitBy_of_isChain hne (List.Pairwise.isChain ?_)
    refine List.pairwise_of_forall_mem_list fun x hx y hy => ?_
    rw [hr x hx, hr y hy]
    rfl
  have hcut : ∀ x ∈ r.getLast?, ∀ y ∈ t.head?, (p x && p y) = false := by
    intro x _ y hy
    rw [ht y hy, Bool.and_false]
  rw [List.splitBy_append hcut, hone, List.singleton_append]

/-- A character in no run. -/
theorem splitBy_class_cons {p : Char → Bool} {c : Char} (hc : p c = false) (t : Text) :
    (c :: t).splitBy (fun c d => p c && p d) = [c] :: t.splitBy fun c d => p c && p d := by
  have hcut : ∀ x ∈ [c].getLast?, ∀ y ∈ t.head?, (p x && p y) = false := by
    intro x hx y _
    obtain rfl : c = x := by simpa using hx
    rw [hc, Bool.false_and]
  exact List.splitBy_append (l := [c]) hcut

/-! ## Texts without white space at the edges -/

theorem dropWhile_of_all_not {p : Char → Bool} {t : Text} (h : ∀ c ∈ t, p c = false) :
    t.dropWhile p = t := by
  cases t with
  | nil => rfl
  | cons c t => simp [h c List.mem_cons_self]

theorem Text.trim_of_no_space {t : Text} (h : ∀ c ∈ t, isWhitespace c = false) :
    Text.trim t = t := by
  rw [Text.trim, Text.trimStart, dropWhile_of_all_not h, Text.dropEndWhile,
    dropWhile_of_all_not fun c hc => h c (List.mem_reverse.1 hc), List.reverse_reverse]

end CodeSnippets

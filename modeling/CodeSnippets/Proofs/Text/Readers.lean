/-
  What readers in a row take off a text.

  * `bind_of_some`, `orElse_of_some` and their like: one reader behind another, or in
    place of another;
  * `repeatedly_items`: items that a reader gives back are read one after the other,
    each in front of a text that may follow it.
-/
import CodeSnippets.Text.Reader

namespace CodeSnippets.Reader

variable {α β : Type} {r s : Reader α} {a : α} {t rest : Text}

/-! ## One reader and another -/

theorem bind_of_some {f : α → Reader β} (h : r t = some (a, rest)) : (r >>= f) t = f a rest := by
  simp [bind, StateT.bind, h]

theorem bind_of_none {f : α → Reader β} (h : r t = none) : (r >>= f) t = none := by
  simp [bind, StateT.bind, h]

theorem orElse_of_some {x : α × Text} (h : r t = some x) : (r <|> s) t = some x := by
  simp [HOrElse.hOrElse, OrElse.orElse, Alternative.orElse, StateT.orElse, h]

theorem orElse_of_none (h : r t = none) : (r <|> s) t = s t := by
  simp [HOrElse.hOrElse, OrElse.orElse, Alternative.orElse, StateT.orElse, h]

theorem optionally_of_some (h : r t = some (a, rest)) : optionally r t = some (some a, rest) := by
  rw [optionally, h]

theorem optionally_of_none (h : r t = none) : optionally r t = some (none, t) := by
  rw [optionally, h]

/-! ## Characters -/

theorem char_cons (c : Char) (t : Text) : char c (c :: t) = some ((), t) := by simp [char]

theorem char_of_ne {c d : Char} (h : d ≠ c) (t : Text) : char c (d :: t) = none := by
  simp [char, h]

theorem charIf_cons {p : Char → Bool} {c : Char} (h : p c = true) (t : Text) :
    charIf p (c :: t) = some (c, t) :=
  if_pos h

theorem charIf_of_not {p : Char → Bool} {c : Char} (h : p c = false) (t : Text) :
    charIf p (c :: t) = none := by simp [charIf, h]

theorem literal_append (l t : Text) : literal l (l ++ t) = some ((), t) := by simp [literal]

theorem literal_of_not_isPrefix {l t : Text} (h : ¬ l <+: t) : literal l t = none := by
  rw [literal, if_neg]
  rwa [List.isPrefixOf_iff_prefix]

/-! ## As often as it fits -/

theorem repeatedly_of_none (h : r t = none) : repeatedly r t = some ([], t) := by
  rw [repeatedly, h]

/-- A reader that fits and takes nothing is not asked again. -/
theorem repeatedly_of_idle (h : r t = some (a, t)) : repeatedly r t = some ([], t) := by
  rw [repeatedly, h]
  exact if_neg (Nat.lt_irrefl _)

theorem repeatedly_of_some (h : r t = some (a, rest)) (hlt : rest.length < t.length) :
    repeatedly r t = (repeatedly r rest).map fun (as, rest) => (a :: as, rest) := by
  rw [repeatedly, h]
  exact if_pos hlt

/-- Items are read back one after the other, if each is read back in front of what may
    follow it, and the others may. -/
theorem repeatedly_items (spell : β → Text) (value : β → α) (mayFollow : Text → Prop)
    {items : List β} (hne : ∀ x ∈ items, spell x ≠ [])
    (hread : ∀ x ∈ items, ∀ s, mayFollow s → r (spell x ++ s) = some (value x, s))
    (hspell : ∀ x ∈ items, ∀ s, mayFollow (spell x ++ s)) (hrest : mayFollow rest)
    (hend : repeatedly r rest = some ([], rest)) :
    repeatedly r (items.flatMap spell ++ rest) = some (items.map value, rest) := by
  induction items with
  | nil => exact hend
  | cons x items ih =>
    have hfollow : mayFollow (items.flatMap spell ++ rest) := by
      cases items with
      | nil => exact hrest
      | cons y items =>
        rw [List.flatMap_cons, List.append_assoc]
        exact hspell y (by simp) _
    have hmore := ih (fun y hy => hne y (.tail _ hy)) (fun y hy => hread y (.tail _ hy))
      (fun y hy => hspell y (.tail _ hy))
    have hlen : 0 < (spell x).length := List.length_pos_iff.2 (hne x (.head _))
    rw [List.flatMap_cons, List.append_assoc, repeatedly_of_some (hread x (.head _) _ hfollow)
      (by simp only [List.length_append]; omega), hmore]
    rfl

/-- Items that are read back in front of any text are read back one after the other. -/
theorem repeatedly_flatMap {spell : α → Text} (hne : ∀ a, spell a ≠ [])
    (hread : ∀ a rest, r (spell a ++ rest) = some (a, rest)) (hend : r rest = none)
    (as : List α) : repeatedly r (as.flatMap spell ++ rest) = some (as, rest) := by
  have hall := repeatedly_items spell id (fun _ => True) (fun a (_ : a ∈ as) => hne a)
    (fun a _ s _ => hread a s) (fun _ _ _ => trivial) trivial (repeatedly_of_none hend)
  rwa [List.map_id] at hall

end CodeSnippets.Reader

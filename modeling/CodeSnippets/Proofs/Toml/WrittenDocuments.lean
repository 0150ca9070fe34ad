/-
  Lines of a TOML document are read back as they were written.

  * `line_header`, `line_entry`, `line_empty`: a header, a key with its value, and a line
    with nothing on it, each in front of any text;
  * `documentLines_flatMap`: a document of such lines.
-/
import CodeSnippets.Proofs.Toml.WrittenValues

namespace CodeSnippets.Toml

open Reader

/-! ## Lines -/

/-- A name that needs no quotes as a key. -/
def IsBareKey (name : Text) : Prop := name ≠ [] ∧ ∀ c ∈ name, isBareKeyChar c = true

instance (name : Text) : Decidable (IsBareKey name) :=
  decidable_of_iff (name ≠ [] ∧ name.all isBareKeyChar = true)
    (and_congr_right fun _ => List.all_eq_true)

theorem IsBareKey.exists_cons {name : Text} (h : IsBareKey name) :
    ∃ c more, name = c :: more ∧ isBareKeyChar c = true ∧ ∀ d ∈ more, isBareKeyChar d = true := by
  obtain ⟨c, more, rfl⟩ := List.exists_cons_of_ne_nil h.1
  exact ⟨c, more, rfl, h.2 c (.head _), fun d hd => h.2 d (.tail _ hd)⟩

theorem ne_of_bareKeyChar {c d : Char} (hc : isBareKeyChar c = true)
    (hd : isBareKeyChar d = false) : c ≠ d := by
  rintro rfl
  rw [hc] at hd
  cases hd

theorem isSpaceOrTab_of_bareKeyChar {c : Char} (hc : isBareKeyChar c = true) :
    isSpaceOrTab c = false := by
  simp [isSpaceOrTab, ne_of_bareKeyChar hc (d := ' ') rfl, ne_of_bareKeyChar hc (d := '\t') rfl]

theorem blanks_bareKeyChar {c : Char} (hc : isBareKeyChar c = true) (s : Text) :
    blanks (c :: s) = some ((), c :: s) := by
  refine blanks_spaces (k := 0) ?_
  rintro d ⟨⟩
  exact isSpaceOrTab_of_bareKeyChar hc

/-- A key without quotes is read up to the sign behind it, with the spaces in front of
    that sign. -/
theorem key_bare {name : Text} (hname : IsBareKey name) {k : Nat} {c : Char} (s : Text)
    (hbare : isBareKeyChar c = false) (hspace : isSpaceOrTab c = false) (hdot : c ≠ '.') :
    key (name ++ (List.replicate k ' ' ++ c :: s)) = some (([], name), c :: s) := by
  obtain ⟨d, more, rfl, hd, hall⟩ := hname.exists_cons
  have hhead : ∀ x ∈ (List.replicate k ' ' ++ c :: s).head?, isBareKeyChar x = false := by
    cases k with
    | zero =>
      rintro x ⟨⟩
      exact hbare
    | succ k =>
      rintro x ⟨⟩
      rfl
  have hpart : keyPart (d :: (more ++ (List.replicate k ' ' ++ c :: s))) =
      some (d :: more, List.replicate k ' ' ++ c :: s) := by
    have hmore : takeWhile isBareKeyChar (more ++ (List.replicate k ' ' ++ c :: s)) =
        some (more, List.replicate k ' ' ++ c :: s) := by
      rw [takeWhile, takeWhile_append_eq_left hall hhead, dropWhile_append_eq_right hall hhead]
    exact orElse_of_some ((bind_of_some (charIf_cons hd _)).trans (bind_of_some hmore))
  have hstop : blanks (List.replicate k ' ' ++ c :: s) = some ((), c :: s) := by
    refine blanks_spaces ?_
    rintro x ⟨⟩
    exact hspace
  have hparts : separated (Reader.char '.')
      (do blanks; let part ← keyPart; blanks; return part : Reader Text)
      (d :: (more ++ (List.replicate k ' ' ++ c :: s))) = some ([d :: more], c :: s) := by
    refine separated_of_some ?_ (repeatedly_of_none (bind_of_none (char_of_ne hdot s)))
    exact (bind_of_some (blanks_bareKeyChar hd _)).trans
      ((bind_of_some hpart).trans (bind_of_some hstop))
  exact bind_of_some hparts

theorem header_of_bareKeyChar {c : Char} (hc : isBareKeyChar c = true) (s : Text) :
    header (c :: s) = none := by
  have hne : c ≠ '[' := ne_of_bareKeyChar hc rfl
  have hdouble : ¬ ['[', '['] <+: c :: s := fun hp => hne (List.cons_prefix_cons.1 hp).1.symm
  exact (orElse_of_none (bind_of_none (literal_of_not_isPrefix hdouble))).trans
    (bind_of_none (char_of_ne hne s))

theorem lineEnd_newline (rest : Text) : lineEnd ('\n' :: rest) = some ((), rest) := rfl

/-- **A line with a key and a value is read back** if the value is read back at the end of
    its line. -/
theorem line_entry {name text : Text} {v : Value} (hname : IsBareKey name)
    (hstart : ∀ c ∈ text.head?, isSpaceOrTab c = false)
    (hread : ∀ rest, value (text ++ '\n' :: rest) = some (v, '\n' :: rest)) (rest : Text) :
    line (Printer.entry name text ++ rest) = some (some (.entry [] name v), rest) := by
  have hprinted : Printer.entry name text ++ rest =
      name ++ (List.replicate 1 ' ' ++ '=' :: ' ' :: (text ++ '\n' :: rest)) := by
    simp [Printer.entry]
  have hblanks : blanks (' ' :: (text ++ '\n' :: rest)) = some ((), text ++ '\n' :: rest) := by
    refine blanks_spaces (k := 1) ?_
    cases text with
    | nil =>
      rintro c ⟨⟩
      rfl
    | cons d text => exact hstart
  have hkey := key_bare hname (k := 1) (c := '=') (' ' :: (text ++ '\n' :: rest)) rfl rfl
    (by decide)
  have hentry : keyValue value
      (name ++ (List.replicate 1 ' ' ++ '=' :: ' ' :: (text ++ '\n' :: rest))) =
      some (([], name, v), '\n' :: rest) :=
    (bind_of_some hkey).trans ((bind_of_some (char_cons _ _)).trans
      ((bind_of_some hblanks).trans (bind_of_some (hread rest))))
  obtain ⟨c, more, hcons, hc, -⟩ := hname.exists_cons
  rw [hprinted]
  rw [hcons, List.cons_append] at hentry ⊢
  refine (bind_of_some (blanks_bareKeyChar hc _)).trans ?_
  refine (bind_of_some (optionally_of_some ?_)).trans (bind_of_some (lineEnd_newline rest))
  exact (orElse_of_none (header_of_bareKeyChar hc _)).trans (bind_of_some hentry)

/-- The header of a table is read back. -/
theorem line_header {name : Text} (hname : IsBareKey name) (rest : Text) :
    line ('[' :: name ++ ']' :: '\n' :: rest) = some (some (.table [] name), rest) := by
  have hkey := key_bare hname (k := 0) (c := ']') ('\n' :: rest) rfl rfl (by decide)
  have hdouble : ¬ ['[', '['] <+: '[' :: (name ++ ']' :: '\n' :: rest) := by
    obtain ⟨c, more, rfl, hc, -⟩ := hname.exists_cons
    intro hp
    exact ne_of_bareKeyChar hc rfl
      (List.cons_prefix_cons.1 (List.cons_prefix_cons.1 hp).2).1.symm
  have hheader : header ('[' :: (name ++ ']' :: '\n' :: rest)) =
      some (.table [] name, '\n' :: rest) := by
    refine (orElse_of_none (bind_of_none (literal_of_not_isPrefix hdouble))).trans ?_
    exact (bind_of_some (char_cons _ _)).trans
      ((bind_of_some hkey).trans (bind_of_some (char_cons _ _)))
  have hblanks : blanks ('[' :: (name ++ ']' :: '\n' :: rest)) =
      some ((), '[' :: (name ++ ']' :: '\n' :: rest)) := rfl
  refine (bind_of_some hblanks).trans ?_
  exact (bind_of_some (optionally_of_some (orElse_of_some hheader))).trans
    (bind_of_some (lineEnd_newline rest))

theorem line_empty (rest : Text) : line ('\n' :: rest) = some (none, rest) := by
  have hblanks : blanks ('\n' :: rest) = some ((), '\n' :: rest) := rfl
  refine (bind_of_some hblanks).trans ?_
  refine (bind_of_some (optionally_of_none ?_)).trans (bind_of_some (lineEnd_newline rest))
  exact (orElse_of_none rfl).trans (bind_of_none rfl)

/-- At the end of a document there is an empty line without a line break. -/
theorem line_nil : line [] = some (none, []) := rfl

/-! ## Documents -/

/-- **A document of lines that are read back is read back line by line.** -/
theorem documentLines_flatMap {items : List (Option Line × Text)} (hne : ∀ x ∈ items, x.2 ≠ [])
    (hread : ∀ x ∈ items, ∀ rest, line (x.2 ++ rest) = some (x.1, rest))
    (hmark : (items.flatMap Prod.snd).head? ≠ some '\uFEFF') :
    documentLines (items.flatMap Prod.snd) = some (items.filterMap Prod.fst, []) := by
  have hstart : optionally (Reader.char '\uFEFF') (items.flatMap Prod.snd) =
      some (none, items.flatMap Prod.snd) := by
    refine optionally_of_none ?_
    generalize items.flatMap Prod.snd = t at hmark ⊢
    cases t with
    | nil => rfl
    | cons c t => exact char_of_ne (fun h => hmark (congrArg some h)) t
  have hlines := repeatedly_items Prod.snd Prod.fst (fun _ => True) hne
    (fun x hx s _ => hread x hx s) (fun _ _ _ => trivial) trivial (repeatedly_of_idle line_nil)
  rw [List.append_nil] at hlines
  refine (bind_of_some hstart).trans ((bind_of_some hlines).trans ((bind_of_some rfl).trans ?_))
  rw [List.filterMap_map]
  rfl

end CodeSnippets.Toml

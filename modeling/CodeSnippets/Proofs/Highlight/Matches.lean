/-
  What a match looks like.

  A matcher takes a place in a text; the text of the match is the character there
  with as many characters behind it as the matcher says.  For every matcher, one
  lemma says what that text is and what stands around it; nothing else about the
  matcher is needed later.

  * `Matcher.cutsFrom_induction`: to prove a property of the cuts of every text, go
    over the two ways in which a cut is made;
  * `lineComment_eq_some`, …, `spacedOperator_eq_some`: the matches of each matcher.
-/
import CodeSnippets.Highlight.Pass
import CodeSnippets.Proofs.Text.LeadingRuns
import Mathlib.Data.List.Chain
import Mathlib.Tactic.Set

namespace CodeSnippets

/-! ## Cuts -/

namespace Matcher

/-- A property of the cuts of every text holds if it holds of the empty text and is
    kept by a character outside all matches and by a match. -/
theorem cutsFrom_induction {m : Matcher} {P : Option Char → Text → List Cut → Prop}
    (nil : ∀ before, P before [] [])
    (kept : ∀ before c rest, m before c rest = none →
      P (some c) rest (m.cutsFrom (some c) rest []) →
      P before (c :: rest) (.kept c :: m.cutsFrom (some c) rest []))
    (matched : ∀ before c rest n, m before c rest = some n →
      P (some ((rest.take n).getLastD c)) (rest.drop n)
        (m.cutsFrom (some ((rest.take n).getLastD c)) (rest.drop n) []) →
      P before (c :: rest) (.matched (c :: rest.take n) ::
        m.cutsFrom (some ((rest.take n).getLastD c)) (rest.drop n) []))
    (before : Option Char) (t : Text) : P before t (m.cutsFrom before t []) := by
  induction hl : t.length using Nat.strongRecOn generalizing before t with
  | _ l ih =>
    subst hl
    cases t with
    | nil => rw [cutsFrom_nil]; exact nil before
    | cons c rest =>
      rcases hm : m before c rest with _ | n
      · rw [cutsFrom_cons_of_none hm]
        exact kept before c rest hm (ih _ (by simp) _ _ rfl)
      · rw [cutsFrom_cons_of_some hm]
        refine matched before c rest n hm (ih _ ?_ _ _ rfl)
        simp only [List.length_drop, List.length_cons]
        omega

theorem text_ne_nil_of_mem_cuts {m : Matcher} {t : Text} : ∀ x ∈ m.cuts t, x.text ≠ [] :=
  cutsFrom_induction (P := fun _ _ l => ∀ x ∈ l, x.text ≠ []) (fun _ => by simp)
    (fun _ _ _ _ ih => List.forall_mem_cons.2 ⟨by simp [Cut.text], ih⟩)
    (fun _ _ _ _ _ ih => List.forall_mem_cons.2 ⟨by simp [Cut.text], ih⟩) none t

/-- What holds of every match holds of the text of every match in a text. -/
theorem of_matched_mem_cuts {m : Matcher} {P : Text → Prop}
    (h : ∀ before c rest n, m before c rest = some n → P (c :: rest.take n)) {t u : Text}
    (hu : .matched u ∈ m.cuts t) : P u := by
  revert hu
  refine cutsFrom_induction (P := fun _ _ l => Cut.matched u ∈ l → P u) ?_ ?_ ?_ none t
  · intro _ hu
    cases hu
  · intro _ c rest _ ih hu
    exact ih (by simpa using hu)
  · intro before c rest n hm ih hu
    rcases List.mem_cons.1 hu with hu | hu
    · obtain rfl : u = c :: rest.take n := by simpa using hu
      exact h before c rest n hm
    · exact ih hu

theorem cutsFrom_of_none {m : Matcher} {t : Text}
    (h : ∀ before c rest, (c :: rest) <:+ t → m before c rest = none) (before : Option Char) :
    m.cutsFrom before t [] = t.map .kept := by
  induction t generalizing before with
  | nil => simp
  | cons c rest ih =>
    rw [cutsFrom_cons_of_none (h before c rest List.suffix_rfl)]
    rw [ih fun b d r hs => h b d r (hs.trans (List.suffix_cons c rest))]
    rfl

/-- Behind a character, a stretch is kept in which no match begins behind its left
    neighbour. -/
theorem cutsFrom_of_isChain {m : Matcher} {R : Char → Char → Prop}
    (h : ∀ x c rest, R x c → m (some x) c rest = none) {x : Char} {q : Text}
    (hq : (x :: q).IsChain R) (t : Text) :
    m.cutsFrom (some x) (q ++ t) [] = q.map .kept ++ m.cutsFrom (some (q.getLastD x)) t [] := by
  induction q generalizing x with
  | nil => rfl
  | cons d q ih =>
    rw [List.isChain_cons_cons] at hq
    rw [List.cons_append, cutsFrom_cons_of_none (h x d _ hq.1), ih hq.2, List.getLastD_cons]
    rfl

/-- A matcher that does not look at the character in front. -/
def LooksAhead (m : Matcher) : Prop :=
  ∀ before before' c rest, m before c rest = m before' c rest

theorem LooksAhead.cutsFrom_eq {m : Matcher} (h : m.LooksAhead) (before before' : Option Char)
    (t : Text) : m.cutsFrom before t [] = m.cutsFrom before' t [] := by
  cases t with
  | nil => rw [cutsFrom_nil, cutsFrom_nil]
  | cons c rest =>
    rcases hm : m before c rest with _ | n
    · rw [cutsFrom_cons_of_none hm, cutsFrom_cons_of_none (h before' before c rest ▸ hm)]
    · rw [cutsFrom_cons_of_some hm, cutsFrom_cons_of_some (h before' before c rest ▸ hm)]

end Matcher

/-! ## Comments -/

/-- A line comment is `//` with all that stands before the next line break. -/
theorem lineComment_eq_some {before : Option Char} {c : Char} {rest : Text} {n : Nat}
    (h : lineComment before c rest = some n) :
    ∃ body, c = '/' ∧ rest = '/' :: body ∧
      rest.take n = '/' :: body.takeWhile (fun d => !isLineBreak d) ∧
      rest.drop n = body.dropWhile (fun d => !isLineBreak d) := by
  unfold lineComment at h
  split at h
  · rename_i body
    simp only [Option.some.injEq] at h
    subst h
    refine ⟨body, rfl, rfl, ?_, ?_⟩
    · rw [Nat.add_comm, List.take_succ_cons, take_length_takeWhile]
    · rw [Nat.add_comm, List.drop_succ_cons, drop_length_takeWhile]
  · simp at h

theorem throughBlockEnd_eq_some {t : Text} {k : Nat} (h : throughBlockEnd t = some k) :
    ∃ inner, t.take k = inner ++ ['*', '/'] := by
  fun_induction throughBlockEnd t generalizing k with
  | case1 => simp at h
  | case2 rest =>
    simp only [Option.some.injEq] at h
    subst h
    exact ⟨[], rfl⟩
  | case3 c rest _ ih =>
    obtain ⟨j, hj, rfl⟩ := Option.map_eq_some_iff.1 h
    obtain ⟨inner, hi⟩ := ih hj
    exact ⟨c :: inner, by rw [List.take_succ_cons, hi]; rfl⟩

/-- A block comment is `/*` with all through the next `*/`. -/
theorem blockComment_eq_some {before : Option Char} {c : Char} {rest : Text} {n : Nat}
    (h : blockComment before c rest = some n) :
    c = '/' ∧ ∃ inner, rest.take n = '*' :: (inner ++ ['*', '/']) := by
  unfold blockComment at h
  split at h
  · rename_i body
    obtain ⟨k, hk, rfl⟩ := Option.map_eq_some_iff.1 h
    obtain ⟨inner, hi⟩ := throughBlockEnd_eq_some hk
    exact ⟨rfl, inner, by rw [Nat.add_comm, List.take_succ_cons, hi]⟩
  · simp at h

/-! ## Literals -/

theorem throughQuote_eq_some {q : Char} {t : Text} {k : Nat} (h : throughQuote q t = some k) :
    ∃ inner, t.take k = inner ++ [q] := by
  fun_induction throughQuote q t generalizing k with
  | case1 => simp at h
  | case2 => simp at h
  | case3 => simp at h
  | case4 c rest _ ih =>
    obtain ⟨j, hj, rfl⟩ := Option.map_eq_some_iff.1 h
    obtain ⟨inner, hi⟩ := ih hj
    exact ⟨'\\' :: c :: inner, by simp [List.take_succ_cons, hi]⟩
  | case5 rest =>
    simp only [Option.some.injEq] at h
    subst h
    exact ⟨[], rfl⟩
  | case6 c rest _ _ _ ih =>
    obtain ⟨j, hj, rfl⟩ := Option.map_eq_some_iff.1 h
    obtain ⟨inner, hi⟩ := ih hj
    exact ⟨c :: inner, by rw [List.take_succ_cons, hi]; rfl⟩

/-- A string literal ends with the quote that it begins with. -/
theorem stringLiteral_eq_some {before : Option Char} {c : Char} {rest : Text} {n : Nat}
    (h : stringLiteral before c rest = some n) :
    isQuote c = true ∧ ∃ inner, rest.take n = inner ++ [c] := by
  unfold stringLiteral at h
  split at h
  · exact ⟨‹_›, throughQuote_eq_some h⟩
  · simp at h

theorem mem_take_fractionLength {t : Text} {d : Char} (h : d ∈ t.take (fractionLength t)) :
    isAsciiDigit d = true ∨ d = '.' := by
  unfold fractionLength at h
  split at h
  · rename_i rest
    simp only at h
    split at h
    · simp at h
    · rw [List.take_succ_cons, take_length_takeWhile] at h
      rcases List.mem_cons.1 h with rfl | h
      · exact .inr rfl
      · exact .inl (List.mem_takeWhile_imp h)
  · simp at h

/-- A number is a digit with digits and points behind it. -/
theorem number_eq_some {before : Option Char} {c : Char} {rest : Text} {n : Nat}
    (h : number before c rest = some n) :
    isAsciiDigit c = true ∧ ∀ d ∈ rest.take n, isAsciiDigit d = true ∨ d = '.' := by
  unfold number at h
  split at h
  · rename_i hc
    simp only [Bool.and_eq_true] at hc
    refine ⟨hc.1, fun d hd => ?_⟩
    have whole : d ∈ rest.take (rest.takeWhile isAsciiDigit).length → isAsciiDigit d = true := by
      rw [take_length_takeWhile]
      exact List.mem_takeWhile_imp
    simp only at h
    split at h
    · simp only [Option.some.injEq] at h
      subst h
      rw [List.take_add, drop_length_takeWhile] at hd
      rcases List.mem_append.1 hd with hd | hd
      · exact .inl (whole hd)
      · exact mem_take_fractionLength hd
    · split at h
      · simp only [Option.some.injEq] at h
        subst h
        exact .inl (whole hd)
      · simp at h
  · simp at h

/-! ## Words -/

/-- A whole word is the word itself, with no identifier character on either side and
    no `&` in front. -/
theorem wholeWord_eq_some {w : Text} (hw : w ≠ []) {before : Option Char} {c : Char}
    {rest : Text} {n : Nat} (h : wholeWord w before c rest = some n) :
    c :: rest.take n = w ∧ allowsWordAfter before = true ∧
      allowsWordBefore (rest.drop n) = true := by
  unfold wholeWord at h
  split at h
  · rename_i hc
    simp only [Bool.and_eq_true, List.isPrefixOf_iff_prefix] at hc
    obtain ⟨⟨hp, ha⟩, hb⟩ := hc
    simp only [Option.some.injEq] at h
    subst h
    have hl : w.length = w.length - 1 + 1 := by
      have := List.length_pos_iff.2 hw
      omega
    rw [hl, List.drop_succ_cons] at hb
    refine ⟨?_, ha, hb⟩
    rw [← List.take_succ_cons, ← hl]
    exact (List.prefix_iff_eq_take.1 hp).symm
  · simp at h

/-- A called function is an ASCII identifier with no identifier character and no `&`
    in front. -/
theorem functionCall_eq_some {before : Option Char} {c : Char} {rest : Text} {n : Nat}
    (h : functionCall before c rest = some n) :
    isIdentifierStart c = true ∧ allowsWordAfter before = true ∧
      rest.take n = rest.takeWhile isAsciiIdentifierPart := by
  unfold functionCall at h
  split at h
  · rename_i hc
    simp only [Bool.and_eq_true] at hc
    simp only [Option.some.injEq] at h
    subst h
    exact ⟨hc.1.1, hc.1.2, take_length_takeWhile _ _⟩
  · simp at h

/-! ## Symbols -/

theorem bracket_eq_some {before : Option Char} {c : Char} {rest : Text} {n : Nat}
    (h : bracket before c rest = some n) : isBracket c = true ∧ n = 0 := by
  unfold bracket at h
  split at h
  · simp only [Option.some.injEq] at h
    exact ⟨‹_›, h.symm⟩
  · simp at h

theorem Operator.escaped_ne_nil (o : Operator) : o.escaped ≠ [] := by
  have h := o.valid
  simp only [isOperatorSpelling, Bool.and_eq_true, Bool.not_eq_true', List.isEmpty_eq_false_iff] at h
  rw [Operator.escaped, Ne, escape_eq_nil]
  exact h.1

/-- An operator is matched with white space on either side, and none is left behind
    it. -/
theorem spacedOperator_eq_some {o : Operator} {before : Option Char} {c : Char} {rest : Text}
    {n : Nat} (h : spacedOperator o before c rest = some n) :
    ∃ lead trail, (∀ d ∈ lead, isWhitespace d = true) ∧ (∀ d ∈ trail, isWhitespace d = true) ∧
      c :: rest.take n = lead ++ o.escaped ++ trail ∧
      ∀ d ∈ (rest.drop n).head?, isWhitespace d = false := by
  unfold spacedOperator at h
  simp only at h
  split at h
  · rename_i hp
    simp only [Option.some.injEq] at h
    obtain ⟨more, hmore⟩ := List.isPrefixOf_iff_prefix.1 hp
    have hlead := List.takeWhile_append_dropWhile (p := isWhitespace) (l := c :: rest)
    set lead := (c :: rest).takeWhile isWhitespace
    rw [← hmore, List.drop_left] at h
    have htrail := List.takeWhile_append_dropWhile (p := isWhitespace) (l := more)
    set trail := more.takeWhile isWhitespace
    have hall : c :: rest = lead ++ o.escaped ++ trail ++ more.dropWhile isWhitespace := by
      rw [← hlead, ← hmore, List.append_assoc, List.append_assoc, htrail]
    have hlen : n + 1 = (lead ++ o.escaped ++ trail).length := by
      have := List.length_pos_iff.2 o.escaped_ne_nil
      simp only [List.length_append]
      omega
    refine ⟨lead, trail, fun d hd => List.mem_takeWhile_imp hd,
      fun d hd => List.mem_takeWhile_imp hd, ?_, ?_⟩
    · rw [← List.take_succ_cons, hlen, hall, List.take_left]
    · intro d hd
      rw [← List.drop_succ_cons (a := c), hlen, hall, List.drop_left] at hd
      exact head?_dropWhile_neg hd
  · simp at h

end CodeSnippets

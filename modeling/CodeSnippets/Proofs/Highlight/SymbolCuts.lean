/-
  Places where a text can be cut without touching a symbol.

  A bracket is a single character.  An operator holds no identifier character, but in
  escaped text it may hold the name of an entity, which consists of them; the white
  space around an operator holds none either.  So a text that is cut in front of a run of identifier
  characters or behind one has the brackets and operators of its parts, if no entity is
  cut in two.

  * `Matcher.StopsBetween`, `Matcher.cuts_append`: two texts between which no match goes
    on are cut apart from each other;
  * `Rule.IsSymbol`: what the rules for brackets and operators have in common.
-/
import CodeSnippets.Proofs.Highlight.EscapedSegments
import CodeSnippets.Proofs.Highlight.IdentifierRuns

namespace CodeSnippets

/-! ## Cuts of two texts -/

namespace Matcher

variable {m : Matcher} {s s' t : Text}

/-- The matches in `s` do not depend on whether `t` is behind it. -/
def StopsBetween (m : Matcher) (s t : Text) : Prop :=
  ∀ before c rest, (c :: rest) <:+ s →
    m before c (rest ++ t) = m before c rest ∧ ∀ n ∈ m before c rest, n ≤ rest.length

theorem StopsBetween.of_suffix (h : m.StopsBetween s t) (hs : s' <:+ s) : m.StopsBetween s' t :=
  fun before c rest hr => h before c rest (hr.trans hs)

theorem stopsBetween_of_none (h : ∀ before, ∀ c ∈ s, ∀ rest, m before c rest = none) (t : Text) :
    m.StopsBetween s t := by
  intro before c rest hsuffix
  have hc : c ∈ s := hsuffix.subset List.mem_cons_self
  rw [h before c hc, h before c hc]
  exact ⟨rfl, fun n hn => by cases hn⟩

theorem cutsFrom_append (hm : m.LooksAhead) (h : m.StopsBetween s t) (before : Option Char) :
    m.cutsFrom before (s ++ t) [] = m.cutsFrom before s [] ++ m.cutsFrom none t [] := by
  revert h
  refine cutsFrom_induction (P := fun before s l => m.StopsBetween s t →
    m.cutsFrom before (s ++ t) [] = l ++ m.cutsFrom none t []) ?_ ?_ ?_ before s
  · intro before _
    exact hm.cutsFrom_eq before none t
  · intro before c rest hnone ih h
    have hlong : m before c (rest ++ t) = none :=
      (h before c rest List.suffix_rfl).1.trans hnone
    rw [List.cons_append, cutsFrom_cons_of_none hlong, ih (h.of_suffix (List.suffix_cons c rest))]
    rfl
  · intro before c rest n hsome ih h
    obtain ⟨hsame, hwithin⟩ := h before c rest List.suffix_rfl
    have hlong : m before c (rest ++ t) = some n := hsame.trans hsome
    have hn : n ≤ rest.length := hwithin n hsome
    have hdrop : rest.drop n <:+ c :: rest :=
      (List.drop_suffix n rest).trans (List.suffix_cons c rest)
    rw [List.cons_append, cutsFrom_cons_of_some hlong, List.take_append_of_le_length hn,
      List.drop_append_of_le_length hn, ih (h.of_suffix hdrop)]
    rfl

/-- **Texts between which no match goes on are cut apart from each other.** -/
theorem cuts_append (hm : m.LooksAhead) (h : m.StopsBetween s t) :
    m.cuts (s ++ t) = m.cuts s ++ m.cuts t := cutsFrom_append hm h none

end Matcher

open Matcher

theorem Rule.pieces_append {r : Rule} {s t : Text} (hr : r.matcher.LooksAhead)
    (h : r.matcher.StopsBetween s t) : r.pieces (s ++ t) = r.pieces s ++ r.pieces t := by
  rw [pieces, cuts_append hr h, List.flatMap_append]
  rfl

/-! ## Identifier characters and escaping -/

theorem isWhitespace_of_ascii {c : Char} (h : isAsciiIdentifierPart c = true) :
    isWhitespace c = false := by
  have hrange : 33 ≤ c.toNat ∧ c.toNat ≤ 122 := by
    simp only [isAsciiIdentifierPart, isIdentifierStart, Bool.or_eq_true, beq_iff_eq] at h
    rcases h with ((h | rfl) | rfl) | h
    · simp only [isAsciiLetter, Bool.or_eq_true, Bool.and_eq_true, decide_eq_true_iff] at h
      rcases h with h | h
      · exact ⟨Nat.le_trans (by decide) h.1, h.2⟩
      · exact ⟨Nat.le_trans (by decide) h.1, Nat.le_trans h.2 (by decide)⟩
    · decide
    · decide
    · simp only [isAsciiDigit, Bool.and_eq_true, decide_eq_true_iff] at h
      exact ⟨Nat.le_trans (by decide) h.1, Nat.le_trans h.2 (by decide)⟩
  unfold isWhitespace whitespace
  rw [CodeRanges.contains, if_neg (by omega), if_neg (by omega), CodeRanges.contains,
    if_neg (by omega), if_neg (by omega), CodeRanges.contains, if_pos (by omega)]

theorem isBracket_of_ascii {c : Char} (h : isAsciiIdentifierPart c = true) :
    isBracket c = false := by
  rcases hc : isBracket c with _ | _
  · rfl
  · simp only [isBracket, Bool.or_eq_true, beq_iff_eq] at hc
    rcases hc with ((((rfl | rfl) | rfl) | rfl) | rfl) | rfl <;> revert h <;> decide

theorem eq_of_mem_head?_escapeChar {c d : Char} {t : Text} (h : d ∈ (escapeChar c ++ t).head?) :
    d = '&' ∨ d = c := by
  unfold escapeChar at h
  split_ifs at h
  · exact .inl (by simpa using h.symm)
  · exact .inl (by simpa using h.symm)
  · exact .inl (by simpa using h.symm)
  · exact .inr (by simpa using h.symm)

/-- An escaped text begins with an identifier character only if the text does. -/
theorem mem_head?_of_escape {u : Text} {c : Char} (h : c ∈ (escape u).head?)
    (hc : isIdentifierPart c = true) : c ∈ u.head? := by
  cases u with
  | nil => simp at h
  | cons d u =>
    rw [escape_cons] at h
    rcases eq_of_mem_head?_escapeChar h with rfl | rfl
    · have hamp : isIdentifierPart '&' = false := by decide
      rw [hamp] at hc
      cases hc
    · rfl

theorem dropWhile_escape {p : Char → Bool} (h₁ : p '&' = false) (h₂ : p '<' = false)
    (h₃ : p '>' = false) (u : Text) : (escape u).dropWhile p = escape (u.dropWhile p) := by
  induction u with
  | nil => rfl
  | cons c u ih =>
    rw [escape_cons]
    rcases hc : p c with _ | _
    · have hhead : ∀ d ∈ (escapeChar c ++ escape u).head?, p d = false := by
        intro d hd
        rcases eq_of_mem_head?_escapeChar hd with rfl | rfl
        · exact h₁
        · exact hc
      have hnone := dropWhile_append_eq_right (r := []) (by simp) hhead
      rw [List.nil_append] at hnone
      rw [hnone, List.dropWhile_cons, hc, if_neg Bool.false_ne_true, escape_cons]
    · have hone : escapeChar c = [c] := by
        refine escapeChar_of_ne ?_ ?_ ?_
        all_goals
          rintro rfl
          simp_all
      rw [hone, List.singleton_append, List.dropWhile_cons, hc, if_pos rfl, ih,
        List.dropWhile_cons, hc, if_pos rfl]

/-- A place in an escaped text is within an entity, or the rest of the text is escaped. -/
theorem isEscaped_of_suffix {u : Text} {c : Char} {rest : Text} (h : (c :: rest) <:+ escape u) :
    (∃ x, isWithinEntity x c = true) ∨ IsEscaped (c :: rest) := by
  obtain ⟨p, hp⟩ := h
  by_cases hwithin : ∃ x ∈ p.getLast?, isWithinEntity x c = true
  · obtain ⟨x, -, hx⟩ := hwithin
    exact .inl ⟨x, hx⟩
  · obtain ⟨w, rfl⟩ := exists_escape_of_append hp.symm fun x hx d hd => by
      obtain rfl : c = d := by simpa using hd
      rcases hxc : isWithinEntity x c with _ | _
      · rfl
      · exact absurd ⟨x, hx, hxc⟩ hwithin
    obtain ⟨r, -, hr⟩ := escape_append_cancel hp.symm
    exact .inr ⟨r, hr⟩

/-! ## Operators -/

variable {o : Operator} {before : Option Char} {c : Char} {rest s t : Text}

theorem Operator.not_part_of_mem_head? (o : Operator) (hc : c ∈ o.escaped.head?) :
    isIdentifierPart c = false := by
  rcases h : isIdentifierPart c with _ | _
  · rfl
  · have hmem : c ∈ o.spelling := List.mem_of_mem_head? (mem_head?_of_escape hc h)
    have hbarred := o.not_barred_of_mem c hmem
    simp [isBarredFromOperators, h] at hbarred

/-- No operator begins with an identifier character, nor does white space. -/
theorem spacedOperator_of_ascii (hc : isAsciiIdentifierPart c = true) :
    spacedOperator o before c rest = none := by
  rcases h : spacedOperator o before c rest with _ | n
  · rfl
  · obtain ⟨lead, trail, hlead, -, htext, -⟩ := spacedOperator_eq_some h
    cases lead with
    | nil =>
      obtain ⟨d, t, ht, -⟩ := o.exists_escaped_eq_cons
      rw [ht] at htext
      obtain rfl : c = d := (List.cons.inj htext).1
      have hpart := o.not_part_of_mem_head? (c := c) (by rw [ht]; rfl)
      rw [isIdentifierPart_of_ascii hc] at hpart
      cases hpart
    | cons d lead =>
      obtain rfl : c = d := (List.cons.inj htext).1
      have hspace := hlead c List.mem_cons_self
      rw [isWhitespace_of_ascii hc] at hspace
      cases hspace

/-- An operator in an escaped text does not reach into text that begins with an identifier
    character. -/
theorem Operator.isPrefix_of_append (o : Operator) {u w : Text}
    (hw : ∀ d ∈ (escape w).head?, isIdentifierPart d = true)
    (h : o.escaped <+: escape u ++ escape w) : o.escaped <+: escape u := by
  obtain ⟨r, hr⟩ := h
  rw [← escape_append] at hr
  obtain ⟨v, hv, -⟩ := escape_append_cancel hr.symm
  rcases List.append_eq_append_iff.1 hv with ⟨p, hp, hw'⟩ | ⟨p, rfl, -⟩
  · cases p with
    | nil =>
      have hall : o.escaped = escape u := by rw [Operator.escaped, hp, List.append_nil]
      exact hall ▸ List.prefix_rfl
    | cons d p =>
      -- the operator would hold the first character of `w`
      subst hw'
      obtain ⟨x, q, hx⟩ := List.exists_cons_of_ne_nil (escapeChar_ne_nil d)
      have hhead : x ∈ (escape (d :: p ++ v)).head? := by simp [hx]
      obtain rfl : d = x := by simpa using mem_head?_of_escape hhead (hw x hhead)
      have hbarred := o.not_barred_of_mem d (by simp [hp])
      simp [isBarredFromOperators, hw d hhead] at hbarred
  · rw [Operator.escaped, escape_append]
    exact List.prefix_append _ _

/-- The search for an operator does not see a text behind that white space and the operator
    do not reach into. -/
theorem spacedOperator_append (ht : ∀ d ∈ t.head?, isWhitespace d = false)
    (hreach : o.escaped <+: (c :: rest).dropWhile isWhitespace ++ t →
      o.escaped <+: (c :: rest).dropWhile isWhitespace) :
    spacedOperator o before c (rest ++ t) = spacedOperator o before c rest ∧
      ∀ n ∈ spacedOperator o before c rest, n ≤ rest.length := by
  have hdrop := dropWhile_append_of_head? (s := c :: rest) ht
  have htake := takeWhile_append_of_head? (s := c :: rest) ht
  have hlength := congrArg List.length
    (List.takeWhile_append_dropWhile (p := isWhitespace) (l := c :: rest))
  rw [List.cons_append] at hdrop htake
  simp only [spacedOperator, hdrop, htake]
  generalize (c :: rest).takeWhile isWhitespace = lead at hlength ⊢
  generalize (c :: rest).dropWhile isWhitespace = behindLead at hlength hreach ⊢
  by_cases hp : o.escaped <+: behindLead
  · have hlong : o.escaped.isPrefixOf (behindLead ++ t) = true :=
      List.isPrefixOf_iff_prefix.2 (List.prefix_append_of_prefix hp)
    rw [if_pos hlong, if_pos (List.isPrefixOf_iff_prefix.2 hp),
      List.drop_append_of_le_length hp.length_le, takeWhile_append_of_head? ht]
    refine ⟨rfl, fun n hn => ?_⟩
    have htrail := (List.takeWhile_prefix (p := isWhitespace)
      (l := behindLead.drop o.escaped.length)).length_le
    have hescaped := hp.length_le
    have hn : lead.length + o.escaped.length +
        ((behindLead.drop o.escaped.length).takeWhile isWhitespace).length - 1 = n := by
      simpa using hn
    simp only [List.length_append, List.length_cons, List.length_drop] at hlength htrail
    omega
  · rw [if_neg fun h => hp (hreach (List.isPrefixOf_iff_prefix.1 h)),
      if_neg fun h => hp (List.isPrefixOf_iff_prefix.1 h)]
    exact ⟨rfl, fun n hn => by cases hn⟩

/-- **No operator crosses the beginning of a run of identifier characters**, if no entity
    does. -/
theorem stopsBetween_spacedOperator (o : Operator) (hs : IsEscaped s) (ht : IsEscaped t)
    (hhead : ∀ d ∈ t.head?, isAsciiIdentifierPart d = true) :
    (spacedOperator o).StopsBetween s t := by
  obtain ⟨u, rfl⟩ := hs
  obtain ⟨w, rfl⟩ := ht
  intro before c rest hsuffix
  rcases isEscaped_of_suffix hsuffix with ⟨x, hx⟩ | ⟨r, hr⟩
  · have hnone : ∀ rest, spacedOperator o before c rest = none := fun rest =>
      (keepsEntities_spacedOperator o).within x c rest hx
    rw [hnone, hnone]
    exact ⟨rfl, fun n hn => by cases hn⟩
  · refine spacedOperator_append (fun d hd => isWhitespace_of_ascii (hhead d hd)) fun h => ?_
    rw [hr, dropWhile_escape (by decide) (by decide) (by decide)] at h ⊢
    exact o.isPrefix_of_append (fun d hd => isIdentifierPart_of_ascii (hhead d hd)) h

/-! ## The rules for symbols -/

/-- What the rules for brackets and operators have in common. -/
structure Rule.IsSymbol (r : Rule) : Prop where
  ahead : r.matcher.LooksAhead
  /-- no match begins with a character of a word -/
  none_of_ascii : ∀ before c rest, isAsciiIdentifierPart c = true → r.matcher before c rest = none
  /-- no match goes on in a word behind it -/
  stops : ∀ s t, IsEscaped s → IsEscaped t → (∀ d ∈ t.head?, isAsciiIdentifierPart d = true) →
    r.matcher.StopsBetween s t

theorem isSymbol_bracket : (Rule.wrap bracket .bracket).IsSymbol where
  ahead := fun _ _ _ _ => rfl
  none_of_ascii := fun _ _ _ hc => if_neg (by simp [isBracket_of_ascii hc])
  stops := by
    intro s t _ _ _ before c rest _
    refine ⟨rfl, fun n hn => ?_⟩
    obtain ⟨-, rfl⟩ := @bracket_eq_some before c rest n hn
    exact Nat.zero_le _

theorem isSymbol_spaced (o : Operator) : (Rule.spaced o).IsSymbol where
  ahead := fun _ _ _ _ => rfl
  none_of_ascii := @spacedOperator_of_ascii o
  stops := fun _ _ => stopsBetween_spacedOperator o

theorem isSymbol_of_mem_rules {v : Vocabulary} {p : Pass} (hp : p ∈ [Pass.brackets, .operators])
    {r : Rule} (hr : r ∈ p.rules v) : r.IsSymbol := by
  simp only [List.mem_cons, List.not_mem_nil, or_false] at hp
  rcases hp with rfl | rfl
  · rw [List.mem_singleton.1 hr]
    exact isSymbol_bracket
  · obtain ⟨o, -, rfl⟩ := List.mem_map.1 hr
    exact isSymbol_spaced o

/-- In a text of identifier characters there is no symbol. -/
theorem Rule.IsSymbol.pieces_of_ascii {r : Rule} (hr : r.IsSymbol) {s : Text}
    (hs : ∀ c ∈ s, isAsciiIdentifierPart c = true) : Segment.Alike (r.pieces s) [.plain s] := by
  have hkept : r.matcher.cuts s = s.map .kept :=
    Matcher.cutsFrom_of_none (fun before c rest hsuffix =>
      hr.none_of_ascii before c rest (hs c (hsuffix.subset List.mem_cons_self))) none
  intro m
  rw [pieces, hkept, flatMap_ofCut_kept, Segment.foldr_attach_chars]
  rfl

end CodeSnippets

/-
  Where identifiers are cut in two.

  A word and a called function do not touch an identifier character, and all else that is
  classified before the operators begins and ends with a character of another class, except
  for numbers.  A number ends at a boundary of words, and a `$` or a `²` is an identifier
  character without being a word character.  So an identifier is cut in two where such a
  character touches a run of digits, and nowhere else.

  * `SegmentStream.CutsNoWord`: no identifier goes on from one segment to the next;
  * `cutsNoWord_of_mem_rules`: the rules that keep it so, whatever the text is;
  * `NumbersStandFree`: no run of digits touches an identifier character that is no word
    character;
  * `words_whole_iff`: the words and numbers of a source touch no identifier character if and
    only if all runs of digits outside comments and strings stand free;
  * `name_cut_at_digit`: a name of which a part is classified as a number.
-/
import CodeSnippets.Proofs.Highlight.MatchPlaces
import CodeSnippets.Proofs.Highlight.NumberRuns
import CodeSnippets.Proofs.Highlight.WordPasses
import CodeSnippets.Proofs.Highlight.WordTables

namespace CodeSnippets

open Segment (textOf)

/-! ## Edges of texts -/

/-- A text does not end with an identifier character. -/
def EndsBetween (t : Text) : Prop := ∀ c ∈ t.getLast?, isIdentifierPart c = false

theorem endsBetween_nil : EndsBetween [] := by
  intro c hc
  cases hc

theorem endsBetween_concat {s : Text} {c : Char} :
    EndsBetween (s ++ [c]) ↔ isIdentifierPart c = false := by
  simp [EndsBetween]

theorem endsBetween_append {s t : Text} (ht : t ≠ []) : EndsBetween (s ++ t) ↔ EndsBetween t := by
  rw [EndsBetween, EndsBetween, List.getLast?_append_of_ne_nil s ht]

theorem EndsBetween.of_append {s t : Text} (h : EndsBetween (s ++ t)) : EndsBetween t := by
  by_cases ht : t = []
  · rw [ht]
    exact endsBetween_nil
  · exact (endsBetween_append ht).1 h

theorem beginsBetween_nil : BeginsBetween [] := by
  intro c hc
  cases hc

theorem beginsBetween_cons {c : Char} {t : Text} :
    BeginsBetween (c :: t) ↔ isIdentifierPart c = false := by
  simp [BeginsBetween]

theorem beginsBetween_append {s t : Text} (hs : s ≠ []) :
    BeginsBetween (s ++ t) ↔ BeginsBetween s := by
  rw [BeginsBetween, BeginsBetween, List.head?_append_of_ne_nil s hs]

theorem BeginsBetween.of_append {s t : Text} (h : BeginsBetween (s ++ t)) : BeginsBetween s := by
  by_cases hs : s = []
  · rw [hs]
    exact beginsBetween_nil
  · exact (beginsBetween_append hs).1 h

theorem endsBetween_textOf_concat {k : List Segment} {z : Segment} (hz : z.text ≠ []) :
    EndsBetween (textOf (k ++ [z])) ↔ EndsBetween z.text := by
  rw [Segment.textOf_concat, endsBetween_append hz]

/-! ## Characters that are in no identifier -/

/-- If no range of one table meets a range of another, no code point is in both. -/
theorem CodeRanges.not_contains_of_apart {rs ss : CodeRanges}
    (hapart : ∀ r ∈ rs, ∀ s ∈ ss, r.2 < s.1 ∨ s.2 < r.1) {n : Nat} (h : rs.contains n = true) :
    ss.contains n = false := by
  rw [← Bool.not_eq_true]
  intro h'
  obtain ⟨r, hr, hfirst, hlast⟩ := mem_of_contains h
  obtain ⟨s, hs, hfirst', hlast'⟩ := mem_of_contains h'
  rcases hapart r hr s hs with hbefore | hbehind
  · omega
  · omega

theorem not_isAlphanumeric_of_isWhitespace {c : Char} (h : isWhitespace c = true) :
    isAlphanumeric c = false := by
  have halphabetic : ∀ r ∈ whitespace, ∀ s ∈ alphabetic, r.2 < s.1 ∨ s.2 < r.1 := by
    decide +kernel
  have hdigit : ∀ r ∈ whitespace, ∀ s ∈ decimalDigit, r.2 < s.1 ∨ s.2 < r.1 := by
    decide +kernel
  have hnumeral : ∀ r ∈ whitespace, ∀ s ∈ otherNumeral, r.2 < s.1 ∨ s.2 < r.1 := by
    decide +kernel
  rw [isAlphanumeric, CodeRanges.not_contains_of_apart halphabetic h,
    CodeRanges.not_contains_of_apart hdigit h, CodeRanges.not_contains_of_apart hnumeral h]
  rfl

theorem not_isIdentifierPart_of_isWhitespace {c : Char} (h : isWhitespace c = true) :
    isIdentifierPart c = false := by
  have hscore : c ≠ '_' := by
    rintro rfl
    cases h
  have hdollar : c ≠ '$' := by
    rintro rfl
    cases h
  simp [isIdentifierPart, not_isAlphanumeric_of_isWhitespace h, hscore, hdollar]

theorem not_isIdentifierPart_of_isLineBreak {c : Char} (h : isLineBreak c = true) :
    isIdentifierPart c = false := by
  simp only [isLineBreak, Bool.or_eq_true, beq_iff_eq] at h
  rcases h with rfl | rfl
  · decide
  · decide

theorem not_isIdentifierPart_of_isQuote {c : Char} (h : isQuote c = true) :
    isIdentifierPart c = false := by
  simp only [isQuote, Bool.or_eq_true, beq_iff_eq] at h
  rcases h with (rfl | rfl) | rfl
  · decide
  · decide
  · decide +kernel

theorem not_isIdentifierPart_of_isBracket {c : Char} (h : isBracket c = true) :
    isIdentifierPart c = false := by
  simp only [isBracket, Bool.or_eq_true, beq_iff_eq] at h
  rcases h with ((((rfl | rfl) | rfl) | rfl) | rfl) | rfl <;> decide

/-! ## Matches -/

/-- In the text `t`, no identifier goes on into a match or out of one. -/
def Matcher.CutsNoWord (m : Matcher) (t : Text) : Prop :=
  ∀ a c rest n, t = a ++ c :: rest → m a.getLast? c rest = some n →
    (EndsBetween a ∨ BeginsBetween (c :: rest)) ∧
      (EndsBetween (c :: rest.take n) ∨ BeginsBetween (rest.drop n))

theorem cutsNoWord_lineComment (t : Text) : lineComment.CutsNoWord t := by
  intro a c rest n _ hm
  obtain ⟨body, rfl, rfl, -, hdrop⟩ := lineComment_eq_some hm
  refine ⟨.inr (beginsBetween_cons.2 (by decide)), .inr ?_⟩
  intro d hd
  rw [hdrop] at hd
  exact not_isIdentifierPart_of_isLineBreak (by simpa using head?_dropWhile_neg hd)

theorem cutsNoWord_blockComment (t : Text) : blockComment.CutsNoWord t := by
  intro a c rest n _ hm
  obtain ⟨rfl, inner, htake⟩ := blockComment_eq_some hm
  refine ⟨.inr (beginsBetween_cons.2 (by decide)), .inl ?_⟩
  have hends : '/' :: rest.take n = ('/' :: '*' :: (inner ++ ['*'])) ++ ['/'] := by
    rw [htake]
    simp
  rw [hends, endsBetween_concat]
  decide

theorem cutsNoWord_stringLiteral (t : Text) : stringLiteral.CutsNoWord t := by
  intro a c rest n _ hm
  obtain ⟨hq, inner, htake⟩ := stringLiteral_eq_some hm
  have hquote := not_isIdentifierPart_of_isQuote hq
  refine ⟨.inr (beginsBetween_cons.2 hquote), .inl ?_⟩
  rw [htake, ← List.cons_append, endsBetween_concat]
  exact hquote

theorem cutsNoWord_wholeWord (w : Word) (t : Text) : (wholeWord w.spelling).CutsNoWord t := by
  intro a c rest n _ hm
  obtain ⟨-, hfront, hbehind⟩ := wholeWord_eq_some w.spelling_ne_nil hm
  exact ⟨.inl (allowsWordAfter_iff.1 hfront).1, .inr (allowsWordBefore_iff.1 hbehind)⟩

/-- The parenthesis behind a called function, or the white space in front of it, is in no
    identifier. -/
theorem beginsBetween_of_functionCall {before : Option Char} {c : Char} {rest : Text} {n : Nat}
    (h : functionCall before c rest = some n) : BeginsBetween (rest.drop n) := by
  unfold functionCall at h
  split at h
  · rename_i hc
    simp only [Bool.and_eq_true, beq_iff_eq] at hc
    obtain rfl := Option.some.inj h
    rw [drop_length_takeWhile]
    intro d hd
    by_cases hspace : isWhitespace d = true
    · exact not_isIdentifierPart_of_isWhitespace hspace
    · obtain ⟨r, hr⟩ := List.head?_eq_some_iff.1 hd
      rw [Text.trimStart, hr, List.dropWhile_cons, if_neg hspace] at hc
      obtain rfl : d = '(' := by simpa using hc.2
      decide
  · cases h

theorem cutsNoWord_functionCall (t : Text) : functionCall.CutsNoWord t := by
  intro a c rest n _ hm
  obtain ⟨-, hfront, -⟩ := functionCall_eq_some hm
  exact ⟨.inl (allowsWordAfter_iff.1 hfront).1, .inr (beginsBetween_of_functionCall hm)⟩

theorem cutsNoWord_bracket (t : Text) : bracket.CutsNoWord t := by
  intro a c rest n _ hm
  obtain ⟨hc, rfl⟩ := bracket_eq_some hm
  have hbracket := not_isIdentifierPart_of_isBracket hc
  exact ⟨.inr (beginsBetween_cons.2 hbracket), .inl (endsBetween_concat (s := []).2 hbracket)⟩

/-- **Besides the passes for numbers and operators, no pass cuts an identifier**, whatever the
    text is. -/
theorem cutsNoWord_of_mem_rules {v : Vocabulary} {p : Pass} (hn : p ≠ .numbers)
    (ho : p ≠ .operators) {r : Rule} (hr : r ∈ p.rules v) :
    ∃ m k, k ≠ .plain ∧ r = .wrap m k ∧ ∀ t, m.CutsNoWord t := by
  cases p with
  | numbers => exact absurd rfl hn
  | operators => exact absurd rfl ho
  | platformGlobals | keywords =>
    obtain ⟨w, -, rfl⟩ := List.mem_map.1 hr
    exact ⟨_, _, by simp, rfl, cutsNoWord_wholeWord w⟩
  | lineComments => exact ⟨_, _, by simp, List.mem_singleton.1 hr, cutsNoWord_lineComment⟩
  | blockComments => exact ⟨_, _, by simp, List.mem_singleton.1 hr, cutsNoWord_blockComment⟩
  | strings => exact ⟨_, _, by simp, List.mem_singleton.1 hr, cutsNoWord_stringLiteral⟩
  | functionCalls => exact ⟨_, _, by simp, List.mem_singleton.1 hr, cutsNoWord_functionCall⟩
  | brackets => exact ⟨_, _, by simp, List.mem_singleton.1 hr, cutsNoWord_bracket⟩

/-! ## Numbers -/

/-- No run of digits in a text touches an identifier character.  A `$` does not count as a
    character of a word, so there is a run of digits in `$1`, and none in `a1`. -/
def NumbersStandFree (t : Text) : Prop :=
  ∀ a d b, t = a ++ (d ++ b) → IsNumberRun a d b → EndsBetween a ∧ BeginsBetween b

theorem NumbersStandFree.cutsNoWord_number {t : Text} (h : NumbersStandFree t) :
    number.CutsNoWord t := by
  intro a c rest n ht hm
  obtain ⟨d, b, hd, hsplit, hforms⟩ := number_cases hm
  rw [hsplit] at ht
  obtain ⟨hfront, hbehind⟩ := h a d b ht hd
  refine ⟨.inl hfront, .inr ?_⟩
  rcases hforms with ⟨-, hdrop⟩ | ⟨f, r, hf, rfl, -, hdrop⟩
  · rw [hdrop]
    exact hbehind
  · rw [hdrop]
    exact (h (a ++ (d ++ ['.'])) f r (by simpa using ht) hf).2

/-- A text begins and ends with identifier characters. -/
def HasWordEdges (t : Text) : Prop := ¬ BeginsBetween t ∧ ¬ EndsBetween t

theorem hasWordEdges_of_forall {t : Text} (ht : t ≠ [])
    (h : ∀ c ∈ t, isIdentifierPart c = true) : HasWordEdges t := by
  constructor
  · obtain ⟨c, t, rfl⟩ := List.exists_cons_of_ne_nil ht
    rw [beginsBetween_cons, h c List.mem_cons_self]
    exact Bool.noConfusion
  · obtain ⟨t, c, rfl⟩ := (List.eq_nil_or_concat' t).resolve_left ht
    rw [endsBetween_concat, h c (by simp)]
    exact Bool.noConfusion

theorem IsNumberRun.hasWordEdges {a d b : Text} (h : IsNumberRun a d b) : HasWordEdges d :=
  hasWordEdges_of_forall h.ne_nil fun c hc => by
    simp [isIdentifierPart, isAlphanumeric, contains_decimalDigit_of_isAsciiDigit (h.digits c hc)]

theorem hasWordEdges_of_number {before : Option Char} {c : Char} {rest : Text} {n : Nat}
    (h : number before c rest = some n) : HasWordEdges (c :: rest.take n) := by
  rw [← getLast?_toList before] at h
  obtain ⟨d, b, hd, -, ⟨hwhole, -⟩ | ⟨f, r, hf, -, hwhole, -⟩⟩ := number_cases h
  · rw [hwhole]
    exact hd.hasWordEdges
  · rw [hwhole]
    constructor
    · rw [beginsBetween_append hd.ne_nil]
      exact hd.hasWordEdges.1
    · rw [← List.singleton_append, ← List.append_assoc, endsBetween_append hf.ne_nil]
      exact hf.hasWordEdges.2

/-- Numbers are made by the rule for numbers. -/
theorem hasWordEdges_of_mem_pieces {v : Vocabulary} {p : Pass} {r : Rule} (hr : r ∈ p.rules v)
    {t : Text} {x : Segment} (hx : x ∈ r.pieces t) (hk : x.kind = .number) :
    HasWordEdges x.text := by
  have hplain : x.isPlain = false := by simp [Segment.isPlain, hk]
  have hkind := (kind_of_mem_pieces hr hx).resolve_left (by simp [hplain])
  have hp : p = .numbers := by
    rw [hk] at hkind
    cases p <;> cases hkind
    rfl
  subst hp
  obtain rfl := List.mem_singleton.1 hr
  obtain ⟨u, hu, hx⟩ := (Rule.isPlain_or_of_mem_pieces hx).resolve_left (by simp [hplain])
  rw [List.mem_singleton.1 hx]
  exact Matcher.of_matched_mem_cuts (P := HasWordEdges)
    (fun _ _ _ _ hm => hasWordEdges_of_number hm) hu

/-! ## Segments -/

namespace SegmentStream

/-- No identifier goes on from one segment of a stream to the next. -/
def CutsNoWord (s : SegmentStream) : Prop :=
  ∀ k x l, s.segments = k ++ x :: l → EndsBetween (textOf k) ∨ BeginsBetween x.text

/-- No word and no number of a stream touches an identifier character. -/
def WordsWhole (s : SegmentStream) : Prop :=
  ∀ k x l, s.segments = k ++ x :: l → (x.kind = .number ∨ x.kind.isWord = true) →
    EndsBetween (textOf k) ∧ BeginsBetween (textOf l)

theorem cutsNoWord_ofPlain (t : Text) : (ofPlain t).CutsNoWord := by
  intro k x l h
  by_cases ht : t = []
  · rw [ht] at h
    exact absurd h.symm (List.append_ne_nil_of_right_ne_nil _ (List.cons_ne_nil _ _))
  · rw [segments_ofPlain ht] at h
    rcases List.singleton_eq_append_iff.1 h with ⟨rfl, -⟩ | ⟨-, hx⟩
    · exact .inl endsBetween_nil
    · cases hx

/-- Between words and what is around them, no identifier goes on. -/
theorem CutsNoWord.wordsWhole {s : SegmentStream} (h : s.CutsNoWord)
    (hedges : ∀ x ∈ s.segments, (x.kind = .number ∨ x.kind.isWord = true) →
      HasWordEdges x.text) : s.WordsWhole := by
  intro k x l hs hx
  have hne := s.normal.text_ne_nil
  obtain ⟨hfirst, hlast⟩ := hedges x (by simp [hs]) hx
  refine ⟨(h k x l hs).resolve_right hfirst, ?_⟩
  cases l with
  | nil => exact beginsBetween_nil
  | cons y l =>
    have hbetween := h (k ++ [x]) y l (by simpa using hs)
    rw [endsBetween_textOf_concat (hne x (by simp [hs]))] at hbetween
    rw [Segment.textOf_cons, beginsBetween_append (hne y (by simp [hs]))]
    exact hbetween.resolve_left hlast

end SegmentStream

/-- What a rule makes of a text cuts no identifier if its matches do not. -/
theorem Matcher.CutsNoWord.segmentsOf {m : Matcher} {kd : Kind} (hkd : kd ≠ .plain) {t : Text}
    (ht : m.CutsNoWord t) :
    (SegmentStream.ofSegments ((Rule.wrap m kd).pieces t)).CutsNoWord := by
  intro k x l h
  have htext := textOf_segmentsOf_wrap m kd (.plain t)
  rw [Rule.segmentsOf_plain, h, Segment.textOf_append, Segment.textOf_cons] at htext
  rcases List.eq_nil_or_concat' k with rfl | ⟨k, z, rfl⟩
  · exact .inl endsBetween_nil
  cases hx : x.isPlain with
  | false =>
    obtain ⟨-, c, rest, n, hm, hxtext, hl⟩ := Rule.exists_match_of_segmentsOf hkd hx h
    rw [hxtext, hl, List.cons_append, List.take_append_drop] at htext
    refine (ht _ c rest n htext.symm hm).1.imp_right fun hbegins => ?_
    rw [hxtext, beginsBetween_cons]
    exact beginsBetween_cons.1 hbegins
  | true =>
    rw [List.append_assoc, List.singleton_append] at h
    have hnormal := (SegmentStream.ofSegments ((Rule.wrap m kd).pieces t)).normal
    have hne := hnormal.text_ne_nil
    rw [h] at hnormal hne
    obtain ⟨-, c, rest, n, hm, hztext, hl⟩ :=
      Rule.exists_match_of_segmentsOf hkd (hnormal.not_isPlain_of_append hx) h
    rw [endsBetween_textOf_concat (hne z (by simp)), hztext]
    rw [Segment.textOf_append, Segment.textOf_cons, Segment.textOf_nil, List.append_nil,
      List.append_assoc, hztext, ← Segment.textOf_cons, hl, List.cons_append,
      List.take_append_drop] at htext
    refine (ht _ c rest n htext.symm hm).2.imp_right fun hbegins => ?_
    rw [← hl, Segment.textOf_cons] at hbegins
    exact hbegins.of_append

/-- **A rule of which the matches cut no identifier keeps a stream so.** -/
theorem SegmentStream.CutsNoWord.run {m : Matcher} {kd : Kind} (hkd : kd ≠ .plain) {g : Progress}
    (hm : ∀ t ∈ g.stream.plainTexts, m.CutsNoWord t) (hg : g.stream.CutsNoWord) :
    ((Rule.wrap m kd).run g).stream.CutsNoWord := by
  intro k x l h
  obtain ⟨a, y, b, k', l', hsplit, hy, rfl, rfl⟩ := Rule.exists_of_segments_run h
  rw [Segment.textOf_append, textOf_flatMap_segmentsOf_wrap]
  have hmem : y ∈ g.stream.segments := by simp [hsplit]
  have htext := textOf_segmentsOf_wrap m kd y
  rw [hy, Segment.textOf_append, Segment.textOf_cons] at htext
  rcases List.eq_nil_or_concat' k' with rfl | ⟨k', z, rfl⟩
  · -- where a segment of the stream begins
    refine (hg a y b hsplit).imp (fun hends => by simpa using hends) fun hbegins => ?_
    rw [← htext] at hbegins
    exact BeginsBetween.of_append hbegins
  · cases hplain : y.isPlain with
    | false =>
      rw [Rule.segmentsOf_of_classified _ hplain (g.stream.normal.text_ne_nil y hmem)] at hy
      have hlength := congrArg List.length hy
      simp only [List.length_append, List.length_cons, List.length_nil] at hlength
      omega
    | true =>
      rw [Segment.eq_plain_of_isPlain hplain] at hy hmem
      rw [Rule.segmentsOf_plain] at hy
      have hne := (SegmentStream.ofSegments ((Rule.wrap m kd).pieces y.text)).normal.text_ne_nil
      have hz : z.text ≠ [] := hne z (by simp [hy])
      have hcuts := hm y.text (SegmentStream.mem_plainTexts_iff.2 hmem)
      have hbetween := hcuts.segmentsOf hkd (k' ++ [z]) x l' hy
      rwa [← Segment.textOf_append, ← List.append_assoc, endsBetween_textOf_concat hz,
        ← endsBetween_textOf_concat (k := k') hz]

/-! ## Passes -/

/-- The passes that run before the numbers. -/
def Pass.beforeNumbers : List Pass := [.lineComments, .blockComments, .strings]

/-- The passes that run between the numbers and the operators. -/
def Pass.afterNumbers : List Pass := [.platformGlobals, .keywords, .functionCalls, .brackets]

theorem Pass.beforeOperators_eq :
    beforeOperators = beforeNumbers ++ ([.numbers] ++ afterNumbers) := rfl

section

variable {v : Vocabulary} {g : Progress}

theorem cutsNoWord_applyPasses {ps : List Pass} (hn : Pass.numbers ∉ ps)
    (ho : Pass.operators ∉ ps) (hg : g.stream.CutsNoWord) :
    (applyPasses v ps g).stream.CutsNoWord := by
  refine applyPasses_induction (P := fun g => g.stream.CutsNoWord) ?_ hg
  intro p hp r hr g hg
  have hpn : p ≠ .numbers := by
    rintro rfl
    exact hn hp
  have hpo : p ≠ .operators := by
    rintro rfl
    exact ho hp
  obtain ⟨m, k, hk, rfl, hm⟩ := cutsNoWord_of_mem_rules hpn hpo hr
  exact hg.run hk fun t _ => hm t

theorem hasWordEdges_run {p : Pass} {r : Rule} (hr : r ∈ p.rules v)
    (hg : ∀ x ∈ g.stream.segments, x.kind = .number → HasWordEdges x.text) :
    ∀ x ∈ (r.run g).stream.segments, x.kind = .number → HasWordEdges x.text := by
  intro x hx hk
  have hp : x.isPlain = false := by simp [Segment.isPlain, hk]
  obtain ⟨y, hy, hxy⟩ := List.mem_flatMap.1 (SegmentStream.mem_of_mem_segments hx hp)
  split at hxy
  · exact hasWordEdges_of_mem_pieces hr hxy hk
  · rw [List.mem_singleton.1 hxy] at hk ⊢
    exact hg y hy hk

/-- What the passes find of words and numbers begins and ends with identifier characters. -/
theorem hasWordEdges_applyPasses_ofPlain {ps : List Pass} {t : Text} (ht : IsEscaped t)
    {x : Segment} (hx : x ∈ (applyPasses v ps ⟨.ofPlain t, .zero⟩).stream.segments)
    (hk : x.kind = .number ∨ x.kind.isWord = true) : HasWordEdges x.text := by
  rcases hk with hk | hk
  · refine applyPasses_induction
      (P := fun g => ∀ x ∈ g.stream.segments, x.kind = .number → HasWordEdges x.text)
      (fun p _ r hr g hg => hasWordEdges_run hr hg) ?_ x hx hk
    intro y hy hk
    rw [Segment.eq_plain_of_isPlain (SegmentStream.isPlain_of_mem_ofPlain hy)] at hk
    cases hk
  · have hspelled : WellSpelled (applyPasses v ps ⟨.ofPlain t, .zero⟩).stream :=
      (wellSpelled_ofPlain ht).applyPasses
    have hne := (applyPasses v ps ⟨.ofPlain t, .zero⟩).stream.normal.text_ne_nil x hx
    exact hasWordEdges_of_forall hne fun c hc =>
      isIdentifierPart_of_ascii (hspelled.word x hx hk c hc)

/-- **A run of digits that touches an identifier character makes a number that does.** -/
theorem numbersStandFree_of_wordsWhole {ps : List Pass} (hps : Pass.operators ∉ ps)
    (h : (applyPasses v ([.numbers] ++ ps) g).stream.WordsWhole) :
    ∀ t ∈ g.stream.plainTexts, NumbersStandFree t := by
  rintro t ht a d b rfl hd
  obtain ⟨k₀, l₀, hsplit⟩ := List.append_of_mem (SegmentStream.mem_plainTexts_iff.1 ht)
  obtain ⟨cs, w, cs', hcuts, hw, hfront, hbehind⟩ := hasMatchBetween_of_isNumberRun hd
  obtain ⟨k, l, hsegments, hk, hl⟩ :=
    Rule.exists_segmentsOf_of_cuts (show Kind.number ≠ .plain by simp) hw hcuts
  have hrun : (applyPasses v [.numbers] g).stream.segments =
      (k₀.flatMap (Rule.wrap number .number).segmentsOf ++ k) ++ ⟨.number, w⟩ ::
        (l ++ l₀.flatMap (Rule.wrap number .number).segmentsOf) := by
    show ((Rule.wrap number .number).run g).stream.segments = _
    rw [Rule.segments_run, hsplit, List.flatMap_append, List.flatMap_cons, hsegments]
    simp
  obtain ⟨k', l', hstays, hk', hl'⟩ := exists_around_applyPasses (v := v) hps (by rfl) hrun
  rw [applyPasses_append] at h
  obtain ⟨hends, hbegins⟩ := h k' _ l' hstays (.inl rfl)
  rw [hk', Segment.textOf_append, hk] at hends
  rw [hl', Segment.textOf_append, hl] at hbegins
  constructor
  · rcases hfront with rfl | hpoint
    · exact hends.of_append
    · intro c hc
      rw [hpoint] at hc
      obtain rfl : '.' = c := by simpa using hc
      decide
  · rcases hbehind with rfl | hpoint
    · exact hbegins.of_append
    · intro c hc
      rw [hpoint] at hc
      obtain rfl : '.' = c := by simpa using hc
      decide

end

/-- **Words and numbers touch no identifier character if and only if runs of digits do not.**
    Of the passes before the operators, the one for numbers alone can cut an identifier in two:
    it does so wherever a run of digits that is plain text until then touches an identifier
    character that is no word character.  Else nothing that the passes for words and numbers
    find touches an identifier character. -/
theorem words_whole_iff (v : Vocabulary) (source : Text) :
    (applyPasses v Pass.beforeOperators
      ⟨.ofPlain (escape source), .zero⟩).stream.WordsWhole ↔
    ∀ t ∈ (applyPasses v Pass.beforeNumbers
        ⟨.ofPlain (escape source), .zero⟩).stream.plainTexts, NumbersStandFree t := by
  constructor
  · intro h
    rw [Pass.beforeOperators_eq, applyPasses_append] at h
    exact numbersStandFree_of_wordsWhole (by decide) h
  · intro h
    refine SegmentStream.CutsNoWord.wordsWhole ?_
      fun x hx hk => hasWordEdges_applyPasses_ofPlain (isEscaped_escape source) hx hk
    rw [Pass.beforeOperators_eq, applyPasses_append, applyPasses_append]
    refine cutsNoWord_applyPasses (by decide) (by decide) ?_
    show ((Rule.wrap number .number).run _).stream.CutsNoWord
    refine SegmentStream.CutsNoWord.run (by simp) (fun t ht => (h t ht).cutsNoWord_number) ?_
    exact cutsNoWord_applyPasses (by decide) (by decide) (SegmentStream.cutsNoWord_ofPlain _)

/-- In `x$1`, the digit is a number, and the name is cut in front of it. -/
theorem name_cut_at_digit :
    (applyPasses plusOnly Pass.beforeOperators
      ⟨.ofPlain (escape "x$1".toList), .zero⟩).stream.segments =
      [.plain "x$".toList, ⟨.number, "1".toList⟩] ∧
    ¬ (applyPasses plusOnly Pass.beforeOperators
      ⟨.ofPlain (escape "x$1".toList), .zero⟩).stream.WordsWhole := by
  have hsegments : (applyPasses plusOnly Pass.beforeOperators
      ⟨.ofPlain (escape "x$1".toList), .zero⟩).stream.segments =
      [.plain "x$".toList, ⟨.number, "1".toList⟩] := by decide +kernel
  refine ⟨hsegments, ?_⟩
  intro h
  have hfront := (h [.plain "x$".toList] ⟨.number, "1".toList⟩ [] hsegments (.inl rfl)).1
  have hdollar : isIdentifierPart '$' = false := hfront '$' (by rfl)
  cases hdollar

end CodeSnippets

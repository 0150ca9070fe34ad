/-
  Which names are called.

  A called name is a maximal run of ASCII identifier characters that begins with a letter, `_` or
  `$`, has neither an identifier character nor an `&` in front of it, and a `(` behind it and
  behind any white space that follows.

  * `IsCallee`, `IsCallSpan`: a called name by what is around it, and where it begins and
    ends in a text;
  * `SegmentStream.spans`: where the segments of a kind begin and end;
  * `exists_cuts_of_isCallee`, `isCallee_of_match`: the matches are the called names;
  * `not_called_of_lacks`: no called name is a word of which no match is left;
  * `called_names`: the pass for function calls finds the called names of a plain text, and in
    the highlighting of a text none of them is a word of the vocabulary.
-/
import CodeSnippets.Proofs.Highlight.LeftoverMatches
import CodeSnippets.Proofs.Highlight.VocabularyEntries

namespace CodeSnippets

open Segment (textOf)

/-! ## Called names -/

/-- The text `w` between `a` and `b` is the name of a function that is called. -/
structure IsCallee (a w b : Text) : Prop where
  name : IsName w
  front : ∀ c ∈ a.getLast?, isAlphanumeric c = false ∧ c ∉ ['_', '$', '&']
  maximal : ∀ c ∈ b.head?, ¬ IsNamePart c
  called : b.find? (fun c => !isWhitespace c) = some '('

/-- The characters of a text from the one behind the first `i` through the first `j` are the
    name of a function that is called. -/
def IsCallSpan (t : Text) (i j : Nat) : Prop :=
  ∃ a w b, t = a ++ (w ++ b) ∧ i = a.length ∧ j = a.length + w.length ∧ IsCallee a w b

theorem allowsWordAfter_iff_front {before : Option Char} : allowsWordAfter before = true ↔
    ∀ c ∈ before, isAlphanumeric c = false ∧ c ∉ ['_', '$', '&'] := by
  cases before <;> simp [allowsWordAfter, isIdentifierPart, and_assoc]

theorem head?_trimStart (t : Text) :
    (Text.trimStart t).head? = t.find? fun c => !isWhitespace c := by
  induction t with
  | nil => rfl
  | cons c t ih =>
    rw [Text.trimStart, List.dropWhile_cons, List.find?_cons]
    cases isWhitespace c with
    | true => exact ih
    | false => rfl

section

variable {a w b : Text}

/-- **A match is a called name.** -/
theorem isCallee_of_match {c : Char} {rest : Text} {n : Nat}
    (hm : functionCall a.getLast? c rest = some n) :
    IsCallee a (c :: rest.take n) (rest.drop n) := by
  obtain ⟨hc, hfront, htake⟩ := functionCall_eq_some hm
  obtain ⟨-, -, hopen⟩ := functionCall_ne_none_iff.1 (Option.ne_none_iff_exists'.2 ⟨n, hm⟩)
  have hdrop : rest.drop n = rest.dropWhile isAsciiIdentifierPart := by
    have hsplit : rest.take n ++ rest.drop n =
        rest.takeWhile isAsciiIdentifierPart ++ rest.dropWhile isAsciiIdentifierPart := by
      rw [List.take_append_drop, List.takeWhile_append_dropWhile]
    rw [htake] at hsplit
    exact List.append_cancel_left hsplit
  refine ⟨⟨c, _, rfl, isIdentifierStart_iff.1 hc, ?_⟩, allowsWordAfter_iff_front.1 hfront, ?_, ?_⟩
  · intro d hd
    rw [htake] at hd
    exact isAsciiIdentifierPart_iff.1 (List.mem_takeWhile_imp hd)
  · intro d hd
    rw [hdrop] at hd
    rw [← isAsciiIdentifierPart_iff, head?_dropWhile_neg hd]
    exact Bool.false_ne_true
  · rw [hdrop, ← head?_trimStart]
    exact hopen

theorem IsCallee.exists_match (h : IsCallee a w b) :
    ∃ c u, w = c :: u ∧ functionCall a.getLast? c (u ++ b) = some u.length := by
  obtain ⟨c, u, rfl, hc, hu⟩ := h.name
  have hrun : ∀ d ∈ u, isAsciiIdentifierPart d = true := fun d hd =>
    isAsciiIdentifierPart_iff.2 (hu d hd)
  have hbehind : ∀ d ∈ b.head?, isAsciiIdentifierPart d = false := fun d hd => by
    simpa using mt isAsciiIdentifierPart_iff.1 (h.maximal d hd)
  refine ⟨c, u, rfl, ?_⟩
  rw [functionCall, takeWhile_append_eq_left hrun hbehind, dropWhile_append_eq_right hrun hbehind,
    isIdentifierStart_iff.2 hc, allowsWordAfter_iff_front.2 h.front, head?_trimStart, h.called]
  rfl

/-- **A called name is found.** -/
theorem exists_cuts_of_isCallee (h : IsCallee a w b) :
    ∃ cs cs', functionCall.cuts (a ++ (w ++ b)) = cs ++ .matched w :: cs' ∧
      cs.flatMap Cut.text = a ∧ cs'.flatMap Cut.text = b := by
  obtain ⟨c, u, rfl, hm⟩ := h.exists_match
  refine Matcher.exists_cuts_of_match hm fun p d q n ha hn => ?_
  -- a match that reaches into the name takes all characters in front of it along
  by_contra hlong
  obtain ⟨hd, -, htake⟩ := functionCall_eq_some hn
  have hq : ∀ x ∈ d :: q, isAsciiIdentifierPart x = true := by
    refine List.forall_mem_cons.2 ⟨by rw [isAsciiIdentifierPart, hd, Bool.true_or], ?_⟩
    intro x hx
    rw [List.take_append, List.take_of_length_le (by omega)] at htake
    exact List.mem_takeWhile_imp (htake ▸ List.mem_append_left _ hx)
  have hlast : q.getLastD d ∈ a.getLast? := by
    rw [ha, getLast?_append_cons]
    rfl
  have hpart := isIdentifierPart_of_ascii (hq _ List.getLastD_mem_cons)
  have hbefore := allowsWordAfter_iff_front.2 h.front
  rw [(allowsWordAfter_iff.1 hbefore).1 _ hlast] at hpart
  cases hpart

end

/-! ## Spans -/

namespace Segment

/-- Where the segments of a kind begin and end, behind `n` characters. -/
def spans (k : Kind) (n : Nat) : List Segment → List (Nat × Nat)
  | [] => []
  | x :: l =>
    if x.kind = k then (n, n + x.text.length) :: spans k (n + x.text.length) l
    else spans k (n + x.text.length) l

variable {k : Kind} {n i j : Nat} {l : List Segment}

theorem mem_spans : (i, j) ∈ spans k n l ↔
    ∃ a x b, l = a ++ x :: b ∧ x.kind = k ∧ i = n + (textOf a).length ∧ j = i + x.text.length := by
  induction l generalizing n with
  | nil => simp [spans]
  | cons y l ih =>
    have hcons : (i, j) ∈ spans k n (y :: l) ↔ (y.kind = k ∧ i = n ∧ j = n + y.text.length) ∨
        (i, j) ∈ spans k (n + y.text.length) l := by
      rw [spans]
      split <;> simp [*]
    rw [hcons, ih]
    constructor
    · rintro (⟨hk, rfl, rfl⟩ | ⟨a, x, b, rfl, hk, rfl, rfl⟩)
      · exact ⟨[], y, l, rfl, hk, rfl, rfl⟩
      · exact ⟨y :: a, x, b, rfl, hk, by simp [Nat.add_assoc], rfl⟩
    · rintro ⟨_ | ⟨z, a⟩, x, b, h, hk, hi, hj⟩
      · obtain ⟨rfl, rfl⟩ := List.cons.inj h
        exact .inl ⟨hk, hi, by rw [hj, hi]; rfl⟩
      · obtain ⟨rfl, rfl⟩ := List.cons.inj h
        exact .inr ⟨a, x, b, rfl, hk, by rw [hi]; simp [Nat.add_assoc], hj⟩

/-- The segments of a kind are in the order of their spans. -/
theorem pairwise_spans (k : Kind) (n : Nat) (l : List Segment) :
    (spans k n l).Pairwise fun p q => p.2 ≤ q.1 := by
  induction l generalizing n with
  | nil => exact List.Pairwise.nil
  | cons x l ih =>
    rw [spans]
    split
    · refine List.pairwise_cons.2 ⟨?_, ih _⟩
      rintro ⟨i, j⟩ h
      obtain ⟨a, -, -, -, -, rfl, -⟩ := mem_spans.1 h
      exact Nat.le_add_right _ _
    · exact ih _

theorem length_spans (k : Kind) (n : Nat) (l : List Segment) :
    (spans k n l).length = l.countP fun x => x.kind == k := by
  induction l generalizing n with
  | nil => rfl
  | cons x l ih =>
    rw [spans, List.countP_cons]
    split <;> simp [*]

end Segment

/-- Where the segments of a kind begin and end in the text of a stream. -/
def SegmentStream.spans (s : SegmentStream) (k : Kind) : List (Nat × Nat) :=
  Segment.spans k 0 s.segments

theorem SegmentStream.length_spans (s : SegmentStream) (k : Kind) :
    (s.spans k).length = s.count k := Segment.length_spans k 0 s.segments

/-! ## The pass on a plain text -/

/-- The rule for function calls. -/
def Rule.functionCalls : Rule := .wrap functionCall .functionName

section

variable {t : Text}

theorem segments_functionCalls (v : Vocabulary) (t : Text) (n : Tally) :
    (Pass.functionCalls.apply v ⟨.ofPlain t, n⟩).stream.segments =
      Rule.functionCalls.segmentsOf (.plain t) := by
  have hstream : (Pass.functionCalls.apply v ⟨.ofPlain t, n⟩).stream =
      (SegmentStream.ofPlain t).replacePlain Rule.functionCalls.pieces := rfl
  rw [hstream, SegmentStream.replacePlain_ofPlain (Rule.pieces_nil _), Rule.segmentsOf_plain]

/-- The function names in a plain text are the called names. -/
theorem exists_functionName_iff {a w b : Text} :
    (∃ k l, Rule.functionCalls.segmentsOf (.plain t) = k ++ ⟨.functionName, w⟩ :: l ∧
      textOf k = a ∧ textOf l = b) ↔ t = a ++ (w ++ b) ∧ IsCallee a w b := by
  constructor
  · rintro ⟨k, l, hs, rfl, rfl⟩
    have htext := textOf_segmentsOf_wrap functionCall .functionName (.plain t)
    obtain ⟨-, c, rest, n, hm, hw, hl⟩ := Rule.exists_match_of_segmentsOf (by simp) rfl hs
    have hcallee := isCallee_of_match hm
    rw [← hl] at hcallee
    simp only at hw
    rw [← hw] at hcallee
    refine ⟨?_, hcallee⟩
    rw [← Rule.functionCalls, hs] at htext
    simpa using htext.symm
  · rintro ⟨rfl, h⟩
    obtain ⟨cs, cs', hcuts, hfront, hback⟩ := exists_cuts_of_isCallee h
    have hw : w ≠ [] := by
      obtain ⟨c, u, rfl, -⟩ := h.name
      exact List.cons_ne_nil c u
    have hkind : Kind.functionName ≠ .plain := by simp
    obtain ⟨k, l, hs, hk, hl⟩ := Rule.exists_segmentsOf_of_cuts hkind hw hcuts
    exact ⟨k, l, hs, hk.trans hfront, hl.trans hback⟩

theorem kind_of_mem_functionCalls {x : Segment}
    (hx : x ∈ Rule.functionCalls.segmentsOf (.plain t)) :
    x.isPlain = true ∨ x.kind = .functionName := by
  rw [or_iff_not_imp_left, Bool.not_eq_true]
  intro hplain
  obtain ⟨k, l, hs⟩ := List.append_of_mem hx
  exact (Rule.exists_match_of_segmentsOf (by simp) hplain hs).1

/-- **The spans of the function names are those of the called names.** -/
theorem mem_spans_functionCalls_iff {i j : Nat} :
    (i, j) ∈ Segment.spans .functionName 0 (Rule.functionCalls.segmentsOf (.plain t)) ↔
      IsCallSpan t i j := by
  rw [Segment.mem_spans]
  constructor
  · rintro ⟨k, ⟨kd, w⟩, l, hs, hk, rfl, rfl⟩
    obtain rfl : kd = .functionName := hk
    obtain ⟨ht, hcallee⟩ := exists_functionName_iff.1 ⟨k, l, hs, rfl, rfl⟩
    exact ⟨textOf k, w, textOf l, ht, Nat.zero_add _, by rw [Nat.zero_add], hcallee⟩
  · rintro ⟨a, w, b, ht, rfl, rfl, hcallee⟩
    obtain ⟨k, l, hs, rfl, rfl⟩ := exists_functionName_iff.2 ⟨ht, hcallee⟩
    exact ⟨k, _, l, hs, rfl, (Nat.zero_add _).symm, rfl⟩

theorem tally_functionCalls (v : Vocabulary) (t : Text) (n : Tally) :
    (Pass.functionCalls.apply v ⟨.ofPlain t, n⟩).tally =
      n.add ⟨0, (Pass.functionCalls.apply v ⟨.ofPlain t, n⟩).stream.count .functionName⟩ := by
  have htally := tally_applyPasses v [.functionCalls] ⟨.ofPlain t, n⟩
  rw [ofStream_ofPlain, Tally.add_zero] at htally
  have hkeyword : (Pass.functionCalls.apply v ⟨.ofPlain t, n⟩).stream.count .keyword = 0 := by
    refine List.countP_eq_zero.2 fun x hx => ?_
    rw [segments_functionCalls] at hx
    rcases kind_of_mem_functionCalls hx with hx | hx
    · rw [Segment.eq_plain_of_isPlain hx]
      simp [Segment.plain]
    · simp [hx]
  refine htally.trans ?_
  rw [Tally.ofStream]
  exact congrArg (fun k => n.add ⟨k, _⟩) hkeyword

end

/-! ## Words of the vocabulary -/

section

variable {v : Vocabulary} {g : Progress}

/-- A called name is a whole word. -/
theorem IsCallee.not_absent {a b : Text} {w : Word} (h : IsCallee a w.spelling b) :
    ¬ (wholeWord w.spelling).Absent (a ++ (w.spelling ++ b)) := by
  intro habsent
  obtain ⟨c, u, hw, hm⟩ := h.exists_match
  have hbehind : BeginsBetween b := by
    have hbetween := beginsBetween_of_functionCall hm
    rwa [List.drop_left] at hbetween
  obtain ⟨hfront, hamp⟩ := allowsWordAfter_iff.1 (allowsWordAfter_iff_front.2 h.front)
  have hnone := habsent a c (u ++ b) (by rw [hw]; rfl)
  rw [wholeWord_of_run w (hw ▸ w.isIdentifierPart_of_mem) hbehind hfront,
    if_pos ⟨hamp, hw.symm⟩] at hnone
  cases hnone

/-- A called name is no word of which no match is left. -/
theorem not_called_of_lacks {w : Word} (hg : g.stream.Lacks (wholeWord w.spelling))
    (hnone : ∀ x ∈ g.stream.segments, x.kind ≠ .functionName) {x : Segment}
    (hx : x ∈ (Rule.functionCalls.run g).stream.segments) (hk : x.kind = .functionName) :
    x.text ≠ w.spelling := by
  obtain ⟨kd, u⟩ := x
  obtain rfl : kd = .functionName := hk
  rintro (rfl : u = w.spelling)
  obtain ⟨y, hy, hxy⟩ := List.mem_flatMap.1 (Rule.segments_run _ g ▸ hx)
  have hplain : y.isPlain = true := by
    rcases Rule.isPlain_or_eq_of_mem_segmentsOf hxy with hp | rfl
    · exact hp
    · exact absurd rfl (hnone _ hy)
  rw [Segment.eq_plain_of_isPlain hplain] at hy hxy
  obtain ⟨k, l, hs⟩ := List.append_of_mem hxy
  obtain ⟨ht, hcallee⟩ := exists_functionName_iff.1 ⟨k, l, hs, rfl, rfl⟩
  have habsent := hg y.text (SegmentStream.mem_plainTexts_iff.2 hy)
  rw [ht] at habsent
  exact hcallee.not_absent habsent

/-- The pass for keywords brings no platform global back. -/
theorem lacks_words (v : Vocabulary) (g : Progress) : ∀ w ∈ v.keywords ++ v.globals,
    (Pass.keywords.apply v (Pass.platformGlobals.apply v g)).stream.Lacks
      (wholeWord w.spelling) := by
  intro w hw
  rcases List.mem_append.1 hw with hw | hw
  · exact Pass.lacks_apply v .keywords _ _ (List.mem_map.2 ⟨w, hw, rfl⟩)
  · have hglobal : (Pass.platformGlobals.apply v g).stream.Lacks (wholeWord w.spelling) :=
      Pass.lacks_apply v .platformGlobals g _ (List.mem_map.2 ⟨w, hw, rfl⟩)
    refine hglobal.foldl (fun r hr => eq_wrap_of_mem_rules (by simp) hr) fun r hr => ?_
    obtain ⟨w', -, rfl⟩ := List.mem_map.1 hr
    exact sealedBy_wholeWord w w'

/-- In the highlighting of a text no word of the vocabulary is called. -/
theorem not_word_of_functionName {t : Text} {x : Segment}
    (hx : x ∈ (runPasses v t).stream.segments) (hk : x.kind = .functionName) :
    ∀ w ∈ v.keywords ++ v.globals, x.text ≠ w.spelling := by
  have hplain : x.isPlain = false := by simp [Segment.isPlain, hk]
  have horder : Pass.order = [.lineComments, .blockComments, .strings, .numbers, .platformGlobals,
      .keywords] ++ ([.functionCalls] ++ [.brackets, .operators]) := rfl
  rw [runPasses, horder, applyPasses_append, applyPasses_append] at hx
  -- what is found of functions is found by the pass for them, and none before it
  replace hx := mem_of_mem_applyPasses hplain (by simp [hk, Pass.kind]) hx
  have hlacks : ∀ w ∈ v.keywords ++ v.globals, (applyPasses v [.lineComments, .blockComments,
      .strings, .numbers, .platformGlobals, .keywords] ⟨.ofPlain t, .zero⟩).stream.Lacks
        (wholeWord w.spelling) := lacks_words v _
  refine fun w hw => not_called_of_lacks (hlacks w hw) (fun y hy hyk => ?_) hx hk
  have hyplain : y.isPlain = false := by simp [Segment.isPlain, hyk]
  have hfirst := mem_of_mem_applyPasses hyplain (by simp [hyk, Pass.kind]) hy
  rw [SegmentStream.isPlain_of_mem_ofPlain hfirst] at hyplain
  cases hyplain

end

/-- **Called names.**  Of a plain text, the pass for function calls makes function names of the
    called names and of nothing else: their spans are those of the maximal runs of ASCII
    letters, digits, `_` and `$` that begin with no digit, with neither an identifier character
    nor an `&` in front, in front of a `(` or of white space and a `(`.  It adds their number to
    the tally.  In the highlighting of a text, none of them is a keyword or a platform global
    of the vocabulary. -/
theorem called_names (v : Vocabulary) (t : Text) :
    (∀ n : Tally,
      (Pass.functionCalls.apply v ⟨.ofPlain t, n⟩).stream.text = t ∧
      (∀ x ∈ (Pass.functionCalls.apply v ⟨.ofPlain t, n⟩).stream.segments,
        x.isPlain = true ∨ x.kind = .functionName) ∧
      (∀ i j, (i, j) ∈ (Pass.functionCalls.apply v ⟨.ofPlain t, n⟩).stream.spans .functionName ↔
        IsCallSpan t i j) ∧
      ((Pass.functionCalls.apply v ⟨.ofPlain t, n⟩).stream.spans .functionName).Pairwise
        (fun p q => p.2 ≤ q.1) ∧
      (Pass.functionCalls.apply v ⟨.ofPlain t, n⟩).tally = n.add
        ⟨0, ((Pass.functionCalls.apply v ⟨.ofPlain t, n⟩).stream.spans .functionName).length⟩) ∧
    ∀ x ∈ (runPasses v t).stream.segments, x.kind = .functionName →
      v.isKeyword x.text = false ∧ v.isGlobal x.text = false := by
  constructor
  · intro n
    have hsegments := segments_functionCalls v t n
    refine ⟨?_, ?_, fun i j => ?_, Segment.pairwise_spans _ _ _, ?_⟩
    · rw [SegmentStream.text, hsegments]
      exact textOf_segmentsOf_wrap _ _ _
    · rw [hsegments]
      exact fun x hx => kind_of_mem_functionCalls hx
    · rw [SegmentStream.spans, hsegments]
      exact mem_spans_functionCalls_iff
    · rw [SegmentStream.length_spans]
      exact tally_functionCalls v t n
  · intro x hx hk
    have hwords := not_word_of_functionName hx hk
    simp only [Vocabulary.isKeyword, Vocabulary.isGlobal, List.any_eq_false, beq_iff_eq]
    exact ⟨fun w hw h => hwords w (List.mem_append_left _ hw) h.symm,
      fun w hw h => hwords w (List.mem_append_right _ hw) h.symm⟩

/-- A keyword in front of a parenthesis is called in plain text, but not in a highlighted one. -/
theorem called_names_of_keyword :
    (Pass.functionCalls.apply varAndTimes
      ⟨.ofPlain "var(f (x))".toList, .zero⟩).stream.spans .functionName = [(0, 3), (4, 5)] ∧
    IsCallSpan "var(f (x))".toList 4 5 ∧
    (Pass.functionCalls.apply varAndTimes ⟨.ofPlain "var(f (x))".toList, .zero⟩).tally = ⟨0, 2⟩ ∧
    ⟨.functionName, ['f']⟩ ∈ (runPasses varAndTimes "var(f (x))".toList).stream.segments ∧
    varAndTimes.isKeyword ['f'] = false := by
  have hspans : (Pass.functionCalls.apply varAndTimes
      ⟨.ofPlain "var(f (x))".toList, .zero⟩).stream.spans .functionName = [(0, 3), (4, 5)] := by
    decide +kernel
  have hmem : ⟨.functionName, ['f']⟩ ∈
      (runPasses varAndTimes "var(f (x))".toList).stream.segments := by decide +kernel
  obtain ⟨hcalls, hwords⟩ := called_names varAndTimes "var(f (x))".toList
  obtain ⟨-, -, hspan, -, htally⟩ := hcalls .zero
  have hcall : IsCallSpan "var(f (x))".toList 4 5 := by
    rw [← hspan, hspans]
    exact List.mem_cons_of_mem _ List.mem_cons_self
  refine ⟨hspans, hcall, ?_, hmem, (hwords _ hmem rfl).1⟩
  rw [htally, hspans]
  rfl

end CodeSnippets

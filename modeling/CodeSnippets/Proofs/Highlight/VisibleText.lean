/-
  What a reader sees of a source.

  Markup without its tags, with its entities read back, is the text that is seen.  Of
  the source it lacks nothing and to the source it adds nothing but white space, and
  that only around operators:

  * `filter_text_run`: a rule keeps the characters of a stream that are no white space,
    and a rule that gives a kind keeps all;
  * `dropTags`, `dropTags_render`: deleting the tags of a stream of escaped segments
    leaves its text;
  * `visible_text_preserved`: what is seen of a source is the source, up to white space;
    without an operator in the plain text it is the source.
-/
import CodeSnippets.Proofs.Highlight.FlatMarkup

namespace CodeSnippets

/-! ## Text under rules -/

theorem Segment.textOf_flatMap {α : Type} (f : α → List Segment) (l : List α) :
    textOf (l.flatMap f) = l.flatMap fun a => textOf (f a) := by
  simp [textOf, List.flatMap_assoc]

open Segment (textOf textOf_flatMap)

theorem SegmentStream.filter_text_replacePlain {p : Char → Bool} {f : Text → List Segment}
    (h : ∀ t, (textOf (f t)).filter p = t.filter p) (s : SegmentStream) :
    (s.replacePlain f).text.filter p = s.text.filter p := by
  have hx : ∀ x : Segment, (textOf (replaced f x)).filter p = x.text.filter p := by
    intro x
    unfold replaced
    split
    · exact h x.text
    · simp
  rw [replacePlain_eq, text_ofSegments, textOf_flatMap, List.filter_flatMap, text, textOf,
    List.filter_flatMap]
  simp only [hx]

theorem textOf_flatMap_ofCut_wrap (m : Matcher) (k : Kind) (cs : List Cut) :
    textOf (cs.flatMap (Rule.wrap m k).ofCut) = cs.flatMap Cut.text := by
  have hcut : ∀ x : Cut, textOf ((Rule.wrap m k).ofCut x) = x.text := by
    intro x
    cases x <;> simp [Rule.ofCut, Rule.wrap, Cut.text]
  rw [textOf_flatMap]
  simp only [hcut]

theorem textOf_pieces_wrap (m : Matcher) (k : Kind) (t : Text) :
    textOf ((Rule.wrap m k).pieces t) = t := by
  rw [Rule.pieces, textOf_flatMap_ofCut_wrap]
  exact m.text_cuts t

/-- The text without its white space. -/
def withoutSpace (t : Text) : Text := t.filter fun c => !isWhitespace c

theorem withoutSpace_append (s t : Text) :
    withoutSpace (s ++ t) = withoutSpace s ++ withoutSpace t := List.filter_append s t

theorem withoutSpace_eq_nil {t : Text} (h : ∀ c ∈ t, isWhitespace c = true) :
    withoutSpace t = [] := by
  simpa [withoutSpace] using h

theorem withoutSpace_match {o : Operator} {before : Option Char} {c : Char} {rest : Text} {n : Nat}
    (h : spacedOperator o before c rest = some n) :
    withoutSpace (c :: rest.take n) = withoutSpace o.escaped := by
  obtain ⟨lead, trail, hlead, htrail, htext, -⟩ := spacedOperator_eq_some h
  rw [htext, withoutSpace_append, withoutSpace_append, withoutSpace_eq_nil hlead,
    withoutSpace_eq_nil htrail, List.nil_append, List.append_nil]

/-- White space is all that a rule for an operator adds and removes. -/
theorem withoutSpace_pieces_spaced (o : Operator) (t : Text) :
    withoutSpace (textOf ((Rule.spaced o).pieces t)) = withoutSpace t := by
  unfold Rule.pieces Matcher.cuts
  refine Matcher.cutsFrom_induction
    (P := fun _ t l => withoutSpace (textOf (l.flatMap (Rule.spaced o).ofCut)) = withoutSpace t)
    (fun _ => rfl) ?_ ?_ none t
  · intro before c rest _ ih
    rw [List.flatMap_cons, Segment.textOf_append, withoutSpace_append, ih,
      ← List.singleton_append (l := rest), withoutSpace_append]
    simp [Rule.ofCut]
  · intro before c rest n hm ih
    have hmatch : spacedOperator o before c rest = some n := hm
    have hsplit : c :: rest = (c :: rest.take n) ++ rest.drop n := by
      rw [List.cons_append, List.take_append_drop]
    have hpiece : withoutSpace (textOf ((Rule.spaced o).ofCut (.matched (c :: rest.take n)))) =
        withoutSpace o.escaped := by
      have hspace : isWhitespace ' ' = true := by decide
      simp [Rule.ofCut, Rule.spaced, withoutSpace, hspace]
    rw [List.flatMap_cons, Segment.textOf_append, withoutSpace_append, ih, hsplit,
      withoutSpace_append, withoutSpace_match hmatch, hpiece]

theorem text_run_wrap (m : Matcher) (k : Kind) (g : Progress) :
    ((Rule.wrap m k).run g).stream.text = g.stream.text := by
  have h := SegmentStream.filter_text_replacePlain (p := fun _ => true) (f := (Rule.wrap m k).pieces)
    (fun t => by rw [textOf_pieces_wrap]) g.stream
  rwa [List.filter_eq_self.2 fun _ _ => rfl, List.filter_eq_self.2 fun _ _ => rfl] at h

/-- **Rules keep the text up to white space.** -/
theorem withoutSpace_text_run {v : Vocabulary} {p : Pass} {r : Rule} (hr : r ∈ p.rules v)
    (g : Progress) : withoutSpace (r.run g).stream.text = withoutSpace g.stream.text := by
  by_cases hp : p = .operators
  · subst hp
    obtain ⟨o, -, rfl⟩ := List.mem_map.1 hr
    exact SegmentStream.filter_text_replacePlain (withoutSpace_pieces_spaced o) g.stream
  · obtain ⟨m, k, -, rfl⟩ := eq_wrap_of_mem_rules hp hr
    rw [text_run_wrap]

theorem withoutSpace_text_applyPasses (v : Vocabulary) (ps : List Pass) (g : Progress) :
    withoutSpace (applyPasses v ps g).stream.text = withoutSpace g.stream.text :=
  applyPasses_induction
    (P := fun h => withoutSpace h.stream.text = withoutSpace g.stream.text)
    (fun _ _ _ hr h hh => (withoutSpace_text_run hr h).trans hh) rfl

theorem text_applyPasses (v : Vocabulary) {ps : List Pass} (hps : Pass.operators ∉ ps)
    (g : Progress) : (applyPasses v ps g).stream.text = g.stream.text := by
  refine applyPasses_induction (P := fun h => h.stream.text = g.stream.text) ?_ rfl
  intro p hp r hr h hh
  obtain ⟨m, k, -, rfl⟩ := eq_wrap_of_mem_rules (fun he => hps (he ▸ hp)) hr
  rw [text_run_wrap, hh]

/-! ## Operators that do not occur -/

theorem run_spaced_of_absent {o : Operator} {g : Progress}
    (h : ∀ t ∈ g.stream.plainTexts, ¬ o.escaped <:+: t) :
    ((Rule.spaced o).run g).stream = g.stream := by
  refine SegmentStream.replacePlain_eq_self fun t ht => ?_
  have hnone : ∀ before c rest, (c :: rest) <:+ t → spacedOperator o before c rest = none := by
    intro before c rest hsuffix
    rcases hm : spacedOperator o before c rest with _ | n
    · rfl
    · obtain ⟨lead, trail, -, -, htext, -⟩ := spacedOperator_eq_some hm
      have hin : o.escaped <:+: c :: rest := by
        refine .trans ⟨lead, trail, htext.symm⟩ (List.IsPrefix.isInfix ?_)
        exact List.cons_prefix_cons.2 ⟨rfl, List.take_prefix n rest⟩
      exact absurd (hin.trans hsuffix.isInfix) (h t ht)
  rw [Rule.pieces, Matcher.cuts, Matcher.cutsFrom_of_none (m := (Rule.spaced o).matcher) hnone,
    flatMap_ofCut_kept]

theorem apply_operators_of_absent {v : Vocabulary} {g : Progress}
    (h : ∀ t ∈ g.stream.plainTexts, ∀ o ∈ v.operators, ¬ o.escaped <:+: t) :
    (Pass.operators.apply v g).stream = g.stream := by
  refine Pass.apply_induction (P := fun k => k.stream = g.stream) ?_ rfl
  intro r hr k hk
  obtain ⟨o, ho, rfl⟩ := List.mem_map.1 hr
  rw [run_spaced_of_absent, hk]
  intro t ht
  exact h t (hk ▸ ht) o ho

/-! ## Tags -/

/-- Whether a text begins with a tag of a span. -/
def beginsTag (t : Text) : Bool := openTagFront.isPrefixOf t || closeTag.isPrefixOf t

/-- The text without the tags of spans, read from outside a tag or from within one; a
    tag ends with its first `>`. -/
def dropTagsFrom : (within : Bool) → Text → Text
  | _, [] => []
  | true, c :: rest => dropTagsFrom (c != '>') rest
  | false, c :: rest =>
    if beginsTag (c :: rest) then dropTagsFrom true rest else c :: dropTagsFrom false rest

/-- The text without the tags of spans. -/
def dropTags (t : Text) : Text := dropTagsFrom false t

theorem eq_lt_of_beginsTag {c : Char} {t : Text} (h : beginsTag (c :: t) = true) : c = '<' := by
  simp only [beginsTag, Bool.or_eq_true, List.isPrefixOf_iff_prefix] at h
  rcases h with ⟨r, hr⟩ | ⟨r, hr⟩
  · exact (List.cons.inj hr).1.symm
  · exact (List.cons.inj hr).1.symm

theorem beginsTag_openTag (cls t : Text) : beginsTag (openTag cls ++ t) = true := by
  have h : openTagFront <+: openTag cls ++ t := by
    rw [openTag, List.append_assoc, List.append_assoc]
    exact List.prefix_append _ _
  rw [beginsTag, List.isPrefixOf_iff_prefix.2 h, Bool.true_or]

theorem dropTags_append_of_not_mem {w : Text} (h : '<' ∉ w) (t : Text) :
    dropTags (w ++ t) = w ++ dropTags t := by
  induction w with
  | nil => rfl
  | cons c w ih =>
    simp only [List.mem_cons, not_or] at h
    have hc : beginsTag (c :: (w ++ t)) = false := by
      rw [Bool.eq_false_iff]
      exact fun hb => h.1 (eq_lt_of_beginsTag hb).symm
    rw [List.cons_append, dropTags, dropTagsFrom, hc]
    simp only [Bool.false_eq_true, if_false, List.cons_append, List.cons.injEq, true_and]
    exact ih h.2

theorem dropTagsFrom_true_append {body : Text} (h : '>' ∉ body) (t : Text) :
    dropTagsFrom true (body ++ '>' :: t) = dropTags t := by
  induction body with
  | nil => rfl
  | cons c body ih =>
    simp only [List.mem_cons, not_or] at h
    have hc : (c != '>') = true := by simpa using Ne.symm h.1
    rw [List.cons_append, dropTagsFrom, hc, ih h.2]

theorem dropTags_append_of_isTag {tag : Text} (h : IsTag tag) (hb : ∀ t, beginsTag (tag ++ t) = true)
    (t : Text) : dropTags (tag ++ t) = dropTags t := by
  obtain ⟨body, rfl, -, hgt⟩ := h
  have htag : '<' :: (body ++ ['>']) ++ t = '<' :: (body ++ '>' :: t) := by simp
  have hbegin := hb t
  rw [htag] at hbegin
  rw [htag, dropTags, dropTagsFrom, hbegin, if_pos rfl, dropTagsFrom_true_append hgt]

theorem dropTags_render_append {s : Segment} (hs : IsEscaped s.text) (t : Text) :
    dropTags (s.render ++ t) = s.text ++ dropTags t := by
  have htext : ∀ t, dropTags (s.text ++ t) = s.text ++ dropTags t := by
    obtain ⟨u, hu⟩ := hs
    exact dropTags_append_of_not_mem fun h => (ne_of_mem_escape (hu ▸ h)).1 rfl
  rcases render_eq s with h | ⟨cls, hc, h⟩
  · rw [h, htext]
  · rw [h, List.append_assoc, List.append_assoc,
      dropTags_append_of_isTag (isTag_openTag hc) (beginsTag_openTag cls), htext,
      dropTags_append_of_isTag isTag_closeTag fun _ => rfl]

/-- **Deleting the tags leaves the text of a stream.** -/
theorem dropTags_render {s : SegmentStream} (hs : s.IsEscaped) : dropTags s.render = s.text := by
  rw [SegmentStream.render, SegmentStream.text, textOf]
  unfold SegmentStream.IsEscaped at hs
  generalize s.segments = l at hs
  induction l with
  | nil => rfl
  | cons x l ih =>
    simp only [List.forall_mem_cons] at hs
    rw [List.flatMap_cons, dropTags_render_append hs.1, ih hs.2, List.flatMap_cons]

/-! ## Reading a source back -/

theorem isEscaped_text {s : SegmentStream} (hs : s.IsEscaped) : IsEscaped s.text := by
  rw [SegmentStream.text]
  unfold SegmentStream.IsEscaped at hs
  generalize s.segments = l at hs
  induction l with
  | nil => exact ⟨[], rfl⟩
  | cons x l ih =>
    simp only [List.forall_mem_cons] at hs
    rw [Segment.textOf_cons]
    exact hs.1.append (ih hs.2)

/-- White space may be removed before escaping or after it. -/
theorem withoutSpace_escape (u : Text) : withoutSpace (escape u) = escape (withoutSpace u) := by
  induction u with
  | nil => rfl
  | cons c u ih =>
    have hc : withoutSpace (escapeChar c) = escape (withoutSpace [c]) := by
      unfold escapeChar
      split_ifs with h₁ h₂ h₃
      · subst h₁; decide
      · subst h₂; decide
      · subst h₃; decide
      · rcases h : isWhitespace c with _ | _
        · simp [withoutSpace, h, escapeChar_of_ne h₁ h₂ h₃]
        · simp [withoutSpace, h]
    rw [← List.singleton_append, escape_append, withoutSpace_append, withoutSpace_append,
      escape_append, ih, escape_cons, escape_nil, List.append_nil, hc]

theorem text_ofPlain (t : Text) : (SegmentStream.ofPlain t).text = t := by
  rw [SegmentStream.ofPlain, SegmentStream.text_ofSegments]
  simp

/-- The passes that run before the operators. -/
def Pass.beforeOperators : List Pass :=
  [.lineComments, .blockComments, .strings, .numbers, .platformGlobals, .keywords,
   .functionCalls, .brackets]

theorem Pass.order_eq : order = beforeOperators ++ [.operators] := rfl

/-- **What is seen of a source is the source, up to white space.**  If the tags of the
    markup are deleted and its entities read back, nothing but white space can differ
    from the source.  If no operator occurs in a plain segment that the passes before the
    operators leave, then without its tags the markup is the escaped source. -/
theorem visible_text_preserved (v : Vocabulary) (source : Text) (h : isBlank source = false) :
    withoutSpace (decodeEntities (dropTags (highlight v source).markup)) = withoutSpace source ∧
    ((∀ t ∈ (applyPasses v Pass.beforeOperators
          ⟨.ofPlain (escape source), .zero⟩).stream.plainTexts,
        ∀ o ∈ v.operators, ¬ o.escaped <:+: t) →
      dropTags (highlight v source).markup = escape source) := by
  have hmarkup : dropTags (highlight v source).markup = (runPasses v (escape source)).stream.text := by
    rw [highlight, h]
    exact dropTags_render (isEscaped_applyPasses (isEscaped_start source))
  rw [hmarkup]
  constructor
  · obtain ⟨u, hu⟩ := isEscaped_text
      (s := (runPasses v (escape source)).stream) (isEscaped_applyPasses (isEscaped_start source))
    have hkept : withoutSpace (runPasses v (escape source)).stream.text =
        withoutSpace (escape source) := by
      rw [runPasses, withoutSpace_text_applyPasses, text_ofPlain]
    rw [hu, withoutSpace_escape, withoutSpace_escape] at hkept
    rw [hu, decodeEntities_escape, escape_injective hkept]
  · intro hno
    rw [runPasses, Pass.order_eq, applyPasses_append]
    rw [show applyPasses v [.operators] = Pass.operators.apply v from rfl]
    rw [apply_operators_of_absent hno, text_applyPasses v (by decide), text_ofPlain]

/-- The vocabulary of a single operator. -/
def plusOnly : Vocabulary where
  keywords := []
  globals := []
  operators := [⟨['+'], by decide⟩]
  longest_first := by simp

/-- An operator within a comment is not in the plain text. -/
theorem visible_text_preserved_of_comment :
    isBlank "a<b // c+d".toList = false ∧
    (∀ t ∈ (applyPasses plusOnly Pass.beforeOperators
        ⟨.ofPlain (escape "a<b // c+d".toList), .zero⟩).stream.plainTexts,
      ∀ o ∈ plusOnly.operators, ¬ o.escaped <:+: t) ∧
    withoutSpace (decodeEntities (dropTags (highlight plusOnly "a<b // c+d".toList).markup)) =
      "a<b//c+d".toList ∧
    dropTags (highlight plusOnly "a<b // c+d".toList).markup = "a&lt;b // c+d".toList := by
  have hblank : isBlank "a<b // c+d".toList = false := by decide
  have hplain : ∀ t ∈ (applyPasses plusOnly Pass.beforeOperators
      ⟨.ofPlain (escape "a<b // c+d".toList), .zero⟩).stream.plainTexts,
      ∀ o ∈ plusOnly.operators, ¬ o.escaped <:+: t := by decide +kernel
  obtain ⟨hseen, hexact⟩ := visible_text_preserved plusOnly "a<b // c+d".toList hblank
  refine ⟨hblank, hplain, hseen.trans (by decide), ?_⟩
  rw [hexact hplain]
  decide

end CodeSnippets

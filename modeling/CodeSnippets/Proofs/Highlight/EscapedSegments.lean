/-
  Passes keep entities whole.

  The text that the passes classify is escaped.  A match never begins within an
  entity: words may not follow an `&` or an identifier character, and all else begins
  with a character that no entity holds behind its `&`.  So a match begins where the
  entity of some character begins, and it ends where one ends.  Each segment is then
  the escaped form of a text of its own, and the next rule starts from the same
  situation.

  * `Matcher.KeepsEntities`: a matcher that takes entities whole or not at all;
  * `keepsEntities_lineComment`, …: all matchers do, whatever the vocabulary holds;
  * `isEscaped_applyPasses`: all segments stay escaped under any passes.
-/
import CodeSnippets.Proofs.Highlight.Entities
import CodeSnippets.Proofs.Highlight.Matches
import CodeSnippets.Proofs.Highlight.NormalForm
import CodeSnippets.Proofs.Highlight.Passes

namespace CodeSnippets

/-- A text that some text is escaped to. -/
def IsEscaped (t : Text) : Prop := ∃ u, t = escape u

theorem isEscaped_escape (u : Text) : IsEscaped (escape u) := ⟨u, rfl⟩

theorem IsEscaped.append {s t : Text} (hs : IsEscaped s) (ht : IsEscaped t) :
    IsEscaped (s ++ t) := by
  obtain ⟨u, rfl⟩ := hs
  obtain ⟨w, rfl⟩ := ht
  exact ⟨u ++ w, (escape_append u w).symm⟩

theorem isEscaped_of_class {p : Char → Bool} (h₁ : p '&' = false) (h₂ : p '<' = false)
    (h₃ : p '>' = false) {t : Text} (ht : ∀ c ∈ t, p c = true) : IsEscaped t :=
  ⟨t, (escape_eq_self h₁ h₂ h₃ ht).symm⟩

/-! ## Matchers -/

/-- A matcher that takes entities whole or not at all. -/
structure Matcher.KeepsEntities (m : Matcher) : Prop where
  /-- no match begins within an entity -/
  within : ∀ x c rest, isWithinEntity x c = true → m (some x) c rest = none
  /-- a match at the beginning of an escaped text is escaped -/
  whole : ∀ before c rest u n, escape u = c :: rest → m before c rest = some n →
    IsEscaped (c :: rest.take n)

namespace Matcher

/-- No match begins within an entity if matches begin behind certain characters only,
    or with certain characters only. -/
theorem none_within {m : Matcher}
    (h : ∀ x c rest n, m (some x) c rest = some n → isWithinEntity x c = false) (x c : Char)
    (rest : Text) (hw : isWithinEntity x c = true) : m (some x) c rest = none := by
  rcases hm : m (some x) c rest with _ | n
  · rfl
  · rw [h x c rest n hm] at hw
    simp at hw

/-- A match at the beginning of an escaped text is escaped if it does not end within
    an entity. -/
theorem isEscaped_of_cut {u : Text} {c : Char} {rest : Text} {n : Nat}
    (h : escape u = c :: rest)
    (hcut : ∀ x ∈ (c :: rest.take n).getLast?, ∀ d ∈ (rest.drop n).head?,
      isWithinEntity x d = false) : IsEscaped (c :: rest.take n) := by
  have hu : escape u = c :: rest.take n ++ rest.drop n := by
    rw [h, List.cons_append, List.take_append_drop]
  exact exists_escape_of_append hu hcut

end Matcher

open Matcher

theorem keepsEntities_lineComment : lineComment.KeepsEntities where
  within := none_within fun x c rest n hm => by
    obtain ⟨body, rfl, -⟩ := lineComment_eq_some hm
    exact not_within_of_back (p := (· == '/')) (by decide) rfl x
  whole := fun before c rest u n h hm => by
    obtain ⟨body, rfl, rfl, -, hdrop⟩ := lineComment_eq_some hm
    refine isEscaped_of_cut h fun x _ d hd => ?_
    rw [hdrop] at hd
    have hd := head?_dropWhile_neg hd
    exact not_within_of_back (p := isLineBreak) (by decide) (by simpa using hd) x

theorem keepsEntities_blockComment : blockComment.KeepsEntities where
  within := none_within fun x c rest n hm => by
    obtain ⟨rfl, -⟩ := blockComment_eq_some hm
    exact not_within_of_back (p := (· == '/')) (by decide) rfl x
  whole := fun before c rest u n h hm => by
    obtain ⟨rfl, inner, htake⟩ := blockComment_eq_some hm
    refine isEscaped_of_cut h fun x hx d _ => ?_
    have hx : x = '/' := by
      simp only [htake, List.getLast?_cons, List.getLast?_append] at hx
      simpa using hx.symm
    exact not_within_of_front (p := (· == '/')) (by decide) (by simp [hx]) d

theorem keepsEntities_stringLiteral : stringLiteral.KeepsEntities where
  within := none_within fun x c rest n hm => by
    obtain ⟨hq, -⟩ := stringLiteral_eq_some hm
    exact not_within_of_back (p := isQuote) (by decide) hq x
  whole := fun before c rest u n h hm => by
    obtain ⟨hq, inner, htake⟩ := stringLiteral_eq_some hm
    refine isEscaped_of_cut h fun x hx d _ => ?_
    have hx : x = c := by
      simp only [htake, List.getLast?_cons, List.getLast?_append] at hx
      simpa using hx.symm
    exact not_within_of_front (p := isQuote) (by decide) (by rwa [hx]) d

theorem keepsEntities_number : number.KeepsEntities where
  within := none_within fun x c rest n hm => by
    obtain ⟨hc, -⟩ := number_eq_some hm
    exact not_within_of_back (p := isAsciiDigit) (by decide) hc x
  whole := fun before c rest u n h hm => by
    obtain ⟨hc, hrest⟩ := number_eq_some hm
    refine isEscaped_of_class (p := fun d => isAsciiDigit d || d == '.') (by decide) (by decide)
      (by decide) (List.forall_mem_cons.2 ⟨by simp [hc], fun d hd => ?_⟩)
    simpa using hrest d hd

theorem keepsEntities_functionCall : functionCall.KeepsEntities where
  within := none_within fun x c rest n hm => by
    obtain ⟨-, ha, -⟩ := functionCall_eq_some hm
    exact not_within_of_front (p := fun d => allowsWordAfter (some d)) (by decide) ha c
  whole := fun before c rest u n h hm => by
    obtain ⟨hc, -, htake⟩ := functionCall_eq_some hm
    refine isEscaped_of_class (p := isAsciiIdentifierPart) (by decide) (by decide) (by decide)
      (List.forall_mem_cons.2 ⟨by simp [isAsciiIdentifierPart, hc], fun d hd => ?_⟩)
    rw [htake] at hd
    exact List.mem_takeWhile_imp hd

theorem Word.spelling_ne_nil (w : Word) : w.spelling ≠ [] := by
  intro h
  have := w.valid
  rw [h] at this
  simp [isIdentifier] at this

theorem Word.isAsciiIdentifierPart_of_mem (w : Word) :
    ∀ c ∈ w.spelling, isAsciiIdentifierPart c = true := by
  obtain ⟨t, h⟩ := w
  cases t with
  | nil => simp
  | cons c t =>
    simp only [isIdentifier, Bool.and_eq_true, List.all_eq_true] at h
    exact List.forall_mem_cons.2 ⟨by simp [isAsciiIdentifierPart, h.1], h.2⟩

/-- A word may be spelled like the name of an entity: it is not found there, since it
    may not follow an `&`. -/
theorem keepsEntities_wholeWord (w : Word) : (wholeWord w.spelling).KeepsEntities where
  within := none_within fun x c rest n hm => by
    obtain ⟨-, ha, -⟩ := wholeWord_eq_some w.spelling_ne_nil hm
    exact not_within_of_front (p := fun d => allowsWordAfter (some d)) (by decide) ha c
  whole := fun before c rest u n h hm => by
    obtain ⟨hw, -⟩ := wholeWord_eq_some w.spelling_ne_nil hm
    rw [hw]
    exact isEscaped_of_class (by decide) (by decide) (by decide) w.isAsciiIdentifierPart_of_mem

theorem keepsEntities_bracket : bracket.KeepsEntities where
  within := none_within fun x c rest n hm => by
    obtain ⟨hc, -⟩ := bracket_eq_some hm
    exact not_within_of_back (p := isBracket) (by decide) hc x
  whole := fun before c rest u n h hm => by
    obtain ⟨hc, rfl⟩ := bracket_eq_some hm
    exact isEscaped_of_class (p := isBracket) (by decide) (by decide) (by decide) (by simpa using hc)

theorem Operator.not_barred_of_mem (o : Operator) :
    ∀ c ∈ o.spelling, isBarredFromOperators c = false := by
  have h := o.valid
  simp only [isOperatorSpelling, Bool.and_eq_true, List.all_eq_true, Bool.not_eq_true'] at h
  exact h.2

theorem Operator.spelling_ne_nil (o : Operator) : o.spelling ≠ [] := by
  intro h
  exact o.escaped_ne_nil (escape_eq_nil.2 h)

/-- An operator in escaped text begins with a character that goes on no entity. -/
theorem Operator.exists_escaped_eq_cons (o : Operator) :
    ∃ c t, o.escaped = c :: t ∧ isWhitespace c = false ∧ entityBack.contains c = false := by
  obtain ⟨d, t, ht⟩ := List.exists_cons_of_ne_nil o.spelling_ne_nil
  have hd := o.not_barred_of_mem d (by rw [ht]; exact List.mem_cons_self)
  rw [Operator.escaped, ht, escape_cons]
  unfold escapeChar
  split_ifs
  · exact ⟨_, _, rfl, by decide, by decide⟩
  · exact ⟨_, _, rfl, by decide, by decide⟩
  · exact ⟨_, _, rfl, by decide, by decide⟩
  · refine ⟨d, escape t, rfl, ?_, ?_⟩
    · simp only [isBarredFromOperators, Bool.or_eq_false_iff] at hd
      exact hd.1.2
    · have back : entityBack.all isBarredFromOperators = true := by decide
      rcases h : entityBack.contains d with _ | _
      · rfl
      · rw [List.all_eq_true.1 back d (List.contains_iff_mem.1 h)] at hd
        simp at hd

theorem keepsEntities_spacedOperator (o : Operator) : (spacedOperator o).KeepsEntities where
  within := none_within fun x c rest n hm => by
    obtain ⟨lead, trail, hlead, -, htext, -⟩ := spacedOperator_eq_some hm
    cases lead with
    | nil =>
      obtain ⟨d, t, ht, -, hd⟩ := o.exists_escaped_eq_cons
      rw [ht] at htext
      obtain rfl : c = d := (List.cons.inj htext).1
      unfold isWithinEntity
      rw [hd, Bool.and_false]
    | cons d lead =>
      obtain rfl : c = d := (List.cons.inj htext).1
      exact not_within_of_back (p := isWhitespace) (by decide) (hlead c List.mem_cons_self) x
  whole := fun before c rest u n h hm => by
    obtain ⟨lead, trail, hlead, htrail, htext, -⟩ := spacedOperator_eq_some hm
    have ofWhite : ∀ {t : Text}, (∀ d ∈ t, isWhitespace d = true) → IsEscaped t :=
      isEscaped_of_class (by decide) (by decide) (by decide)
    rw [htext]
    exact ((ofWhite hlead).append (isEscaped_escape o.spelling)).append (ofWhite htrail)

/-! ## Rules -/

/-- A rule that leaves escaped segments of an escaped text. -/
structure Rule.KeepsEntities (r : Rule) : Prop where
  matcher : r.matcher.KeepsEntities
  replace : ∀ t, IsEscaped t → ∀ x ∈ r.replace t, IsEscaped x.text

theorem Matcher.KeepsEntities.wrap {m : Matcher} (h : m.KeepsEntities) (k : Kind) :
    (Rule.wrap m k).KeepsEntities where
  matcher := h
  replace := fun t ht x hx => by
    rw [List.mem_singleton.1 hx]
    exact ht

theorem Matcher.KeepsEntities.spaced {o : Operator} (h : (spacedOperator o).KeepsEntities) :
    (Rule.spaced o).KeepsEntities where
  matcher := h
  replace := fun _ _ x hx => by
    have space : IsEscaped [' '] := ⟨[' '], rfl⟩
    simp only [Rule.spaced, List.mem_cons, List.not_mem_nil, or_false] at hx
    rcases hx with rfl | rfl | rfl
    · exact space
    · exact isEscaped_escape o.spelling
    · exact space

/-- Every rule keeps entities whole, also those of words that are spelled like the name
    of an entity. -/
theorem keepsEntities_of_mem_rules {v : Vocabulary} {p : Pass} {r : Rule}
    (h : r ∈ p.rules v) : r.KeepsEntities := by
  cases p with
  | platformGlobals | keywords =>
    obtain ⟨w, -, rfl⟩ := List.mem_map.1 h
    exact (keepsEntities_wholeWord w).wrap _
  | operators =>
    obtain ⟨o, -, rfl⟩ := List.mem_map.1 h
    exact (keepsEntities_spacedOperator o).spaced
  | lineComments => rw [List.mem_singleton.1 h]; exact keepsEntities_lineComment.wrap _
  | blockComments => rw [List.mem_singleton.1 h]; exact keepsEntities_blockComment.wrap _
  | strings => rw [List.mem_singleton.1 h]; exact keepsEntities_stringLiteral.wrap _
  | numbers => rw [List.mem_singleton.1 h]; exact keepsEntities_number.wrap _
  | functionCalls => rw [List.mem_singleton.1 h]; exact keepsEntities_functionCall.wrap _
  | brackets => rw [List.mem_singleton.1 h]; exact keepsEntities_bracket.wrap _

/-! ## Streams -/

/-- Behind the first character of an entity, the rest of it is kept. -/
theorem cutsFrom_within {m : Matcher} (hm : m.KeepsEntities) {x : Char} {q : Text}
    (hq : (x :: q).IsChain fun x d => isWithinEntity x d = true) (t : Text) :
    m.cutsFrom (some x) (q ++ t) [] = q.map .kept ++ m.cutsFrom (some (q.getLastD x)) t [] :=
  cutsFrom_of_isChain hm.within hq t

/-- **The pieces of an escaped text are escaped**, once the characters that no match
    takes are put together. -/
theorem isEscaped_pieces {r : Rule} (hr : r.KeepsEntities) (u : Text) (before : Option Char)
    {l : List Segment} (hl : ∀ x ∈ l, IsEscaped x.text) :
    ∀ x ∈ ((r.matcher.cutsFrom before (escape u) []).flatMap r.ofCut).foldr Segment.attach l,
      IsEscaped x.text := by
  -- by the length of the text in front of which nothing has been escaped
  induction hn : u.length using Nat.strongRecOn generalizing u before with
  | _ n ih =>
    subst hn
    cases u with
    | nil => simpa using hl
    | cons c u =>
      obtain ⟨x, q, hx⟩ := List.exists_cons_of_ne_nil (escapeChar_ne_nil c)
      have hu : escape (c :: u) = x :: (q ++ escape u) := by rw [escape_cons, hx]; rfl
      rw [hu]
      rcases hm : r.matcher before x (q ++ escape u) with _ | k
      · have hchain := isChain_escapeChar c
        rw [hx] at hchain
        rw [cutsFrom_cons_of_none hm, cutsFrom_within hr.matcher hchain, ← List.cons_append,
          ← List.map_cons, List.flatMap_append, flatMap_ofCut_kept, List.foldr_append,
          Segment.foldr_attach_chars]
        refine Segment.forall_attach (fun _ _ => .append) ?_ (ih u.length (by simp) u _ rfl)
        exact ⟨[c], by simp [hx]⟩
      · obtain ⟨w, hw⟩ := hr.matcher.whole _ _ _ _ _ hu hm
        have hcut : escape (c :: u) = escape w ++ (q ++ escape u).drop k := by
          rw [hu, ← hw, List.cons_append, List.take_append_drop]
        obtain ⟨v, hv, hdrop⟩ := escape_append_cancel hcut
        have hlt : v.length < (c :: u).length := by
          have hw' : w ≠ [] := fun h => by simp [h] at hw
          have := List.length_pos_iff.2 hw'
          rw [hv, List.length_append]
          omega
        rw [cutsFrom_cons_of_some hm, hdrop, List.flatMap_cons, List.foldr_append]
        exact Segment.forall_foldr_attach (fun _ _ => .append) (hr.replace _ ⟨w, hw⟩)
          (ih _ hlt v _ rfl)

/-- The segments of a stream are escaped. -/
def SegmentStream.IsEscaped (s : SegmentStream) : Prop :=
  ∀ x ∈ s.segments, CodeSnippets.IsEscaped x.text

theorem isEscaped_ofPlain {t : Text} (h : IsEscaped t) : (SegmentStream.ofPlain t).IsEscaped :=
  Segment.forall_foldr_attach (fun _ _ => .append) (by simpa using h) (by simp)

theorem isEscaped_run {r : Rule} (hr : r.KeepsEntities) {g : Progress}
    (hg : g.stream.IsEscaped) : (r.run g).stream.IsEscaped := by
  refine SegmentStream.forall_segments_replacePlain (fun _ _ => .append) hg ?_
  rintro t ⟨u, rfl⟩ l hl
  exact isEscaped_pieces hr u none hl

/-- **All segments stay escaped**, whatever passes run in whatever order. -/
theorem isEscaped_applyPasses {v : Vocabulary} {ps : List Pass} {g : Progress}
    (hg : g.stream.IsEscaped) : (applyPasses v ps g).stream.IsEscaped :=
  applyPasses_induction (P := fun g => g.stream.IsEscaped)
    (fun _ _ _ hr _ h => isEscaped_run (keepsEntities_of_mem_rules hr) h) hg

end CodeSnippets

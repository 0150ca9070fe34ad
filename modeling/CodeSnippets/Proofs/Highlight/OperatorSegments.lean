/-
  Which operators are wrapped.

  Operators are tried one after the other, the longer first, each on what those before it have
  left plain.  A rule makes no occurrence of an operator and takes none away but by a match
  that overlaps it, so what happens to an occurrence is decided by the text alone.

  * `plainAt_of_spaceAll`, `not_plainAt_spaceAll`, `wrappedAt_spaceAll_of_split`: what some
    operators, one after the other, do to the occurrences in a stream;
  * `Operator.length_lt_of_isInfix`: a part of an operator has fewer characters;
  * `Vocabulary.Uncontested`: an occurrence that no other one overlaps, unless it is one of
    an operator with fewer characters;
  * `operators_wrapped`: after the pass only operators are wrapped as such, none is left in
    plain text, and every occurrence that is not contested is wrapped whole.
-/
import CodeSnippets.Proofs.Highlight.OperatorOccurrences

namespace CodeSnippets

open Segment (textOf)

section

variable {o : Operator} {u : Text} {n : Nat} {g : Progress}

/-! ## What all operators do to a stream -/

/-- The rules for some operators, one after the other. -/
def spaceAll (os : List Operator) (g : Progress) : Progress :=
  os.foldl (fun g o => (Rule.spaced o).run g) g

theorem apply_operators (v : Vocabulary) (g : Progress) :
    Pass.operators.apply v g = spaceAll v.operators g := by
  rw [Pass.apply, Pass.rules, List.foldl_map]
  rfl

theorem spaceAll_cons (os : List Operator) :
    spaceAll (o :: os) g = spaceAll os ((Rule.spaced o).run g) := rfl

theorem spaceAll_append (ps qs : List Operator) (g : Progress) :
    spaceAll (ps ++ qs) g = spaceAll qs (spaceAll ps g) := by
  rw [spaceAll, List.foldl_append]
  rfl

variable {os : List Operator}

theorem plainAt_of_spaceAll (hu : IsSolid u) (h : (spaceAll os g).stream.PlainAt u n) :
    g.stream.PlainAt u n := by
  induction os generalizing g with
  | nil => exact h
  | cons o os ih => exact plainAt_of_run hu (ih h)

/-- **No operator is left in plain text.** -/
theorem not_plainAt_spaceAll (ho : o ∈ os) : ¬ (spaceAll os g).stream.PlainAt o.escaped n := by
  induction os generalizing g with
  | nil => cases ho
  | cons p os ih =>
    intro h
    rw [spaceAll_cons] at h
    rcases List.mem_cons.1 ho with rfl | ho
    · exact not_plainAt_run (plainAt_of_spaceAll o.isSolid_escaped h)
    · exact ih ho h

theorem wrappedAt_spaceAll (hu : u ≠ []) (h : g.stream.WrappedAt u n) :
    (spaceAll os g).stream.WrappedAt u n := by
  induction os generalizing g with
  | nil => exact h
  | cons o os ih => exact ih (wrappedAt_run hu h)

theorem plainAt_spaceAll (hu : IsSolid u) (h : g.stream.PlainAt u n)
    (ha : ∀ o ∈ os, ∀ m, g.stream.PlainAt o.escaped m → Apart n u m o.escaped) :
    (spaceAll os g).stream.PlainAt u n := by
  induction os generalizing g with
  | nil => exact h
  | cons o os ih =>
    simp only [List.forall_mem_cons] at ha
    refine ih (plainAt_run hu h ha.1) fun p hp m hm => ha.2 p hp m ?_
    exact plainAt_of_run p.isSolid_escaped hm

/-- **An occurrence is wrapped** if no other one of the operator overlaps it, nor one of an
    operator that is tried before. -/
theorem wrappedAt_spaceAll_of_split {ps qs : List Operator} (h : g.stream.PlainAt o.escaped n)
    (hsame : ∀ m, g.stream.PlainAt o.escaped m → m ≠ n → Apart n o.escaped m o.escaped)
    (hother : ∀ p ∈ ps, ∀ m, g.stream.PlainAt p.escaped m → Apart n o.escaped m p.escaped) :
    (spaceAll (ps ++ o :: qs) g).stream.WrappedAt o.escaped n := by
  rw [spaceAll_append, spaceAll_cons]
  refine wrappedAt_spaceAll o.escaped_ne_nil (wrappedAt_run_self ?_ fun m hm => ?_)
  · exact plainAt_spaceAll o.isSolid_escaped h hother
  · exact hsame m (plainAt_of_spaceAll o.isSolid_escaped hm)

end

/-! ## Longer operators first -/

/-- An operator that is a part of another one when both are escaped is a part of it. -/
theorem Operator.isInfix_of_escaped {o p : Operator} (h : p.escaped <:+: o.escaped) :
    p.spelling <:+: o.spelling := by
  obtain ⟨a, b, hab⟩ := h
  obtain ⟨c, t, ht, -, hc⟩ := p.exists_escaped_eq_cons
  rw [Operator.escaped] at ht
  rw [Operator.escaped, Operator.escaped, List.append_assoc] at hab
  -- no entity goes on with the first character of an operator
  obtain ⟨u, rfl⟩ := exists_escape_of_append hab.symm fun x _ d hd => by
    rw [ht] at hd
    obtain rfl : c = d := by simpa using hd
    rw [isWithinEntity, hc, Bool.and_false]
  obtain ⟨w, hw, hrest⟩ := escape_append_cancel hab.symm
  obtain ⟨r, rfl, -⟩ := escape_append_cancel hrest.symm
  exact ⟨u, r, by rw [hw, List.append_assoc]⟩

/-- **A part of an operator has fewer characters**, in the source as well as escaped. -/
theorem Operator.length_lt_of_isInfix {o p : Operator} (h : p.escaped <:+: o.escaped)
    (hne : p ≠ o) : p.spelling.length < o.spelling.length := by
  have hpart := isInfix_of_escaped h
  refine Nat.lt_of_le_of_ne hpart.length_le fun hlength => hne ?_
  rw [Operator.mk.injEq]
  exact hpart.eq_of_length hlength

/-- The occurrence of the operator `o` behind the first `i` characters of a text is contested
    by nothing: no other occurrence of `o` overlaps it, nor one of another operator that has
    at least as many characters. -/
structure Vocabulary.Uncontested (v : Vocabulary) (t : Text) (o : Operator) (i : Nat) : Prop where
  same : ∀ j < t.length, j ≠ i → o.escaped <+: t.drop j → Apart i o.escaped j o.escaped
  other : ∀ p ∈ v.operators, p ≠ o → o.spelling.length ≤ p.spelling.length →
    ∀ j < t.length, p.escaped <+: t.drop j → Apart i o.escaped j p.escaped

instance (v : Vocabulary) (t : Text) (o : Operator) (i : Nat) : Decidable (v.Uncontested t o i) :=
  decidable_of_iff
    ((∀ j < t.length, j ≠ i → o.escaped <+: t.drop j → Apart i o.escaped j o.escaped) ∧
      ∀ p ∈ v.operators, p ≠ o → o.spelling.length ≤ p.spelling.length →
        ∀ j < t.length, p.escaped <+: t.drop j → Apart i o.escaped j p.escaped)
    ⟨fun h => ⟨h.1, h.2⟩, fun h => ⟨h.same, h.other⟩⟩

/-! ## The pass on a plain text -/

/-- The stream that the operators make of a plain text. -/
def wrapOperators (v : Vocabulary) (t : Text) : SegmentStream :=
  (Pass.operators.apply v ⟨.ofPlain t, .zero⟩).stream

section

variable {v : Vocabulary} {t : Text}

theorem operator_of_mem_pieces {o : Operator} {x : Segment} (hx : x ∈ (Rule.spaced o).pieces t)
    (hk : x.kind = .operator) : x.text = o.escaped := by
  obtain ⟨c, -, hc⟩ := List.mem_flatMap.1 hx
  cases c with
  | kept c =>
    rw [List.mem_singleton.1 hc] at hk
    cases hk
  | matched w =>
    simp only [Rule.ofCut, Rule.spaced, List.mem_cons, List.not_mem_nil, or_false] at hc
    rcases hc with rfl | rfl | rfl
    · cases hk
    · rfl
    · cases hk

theorem operator_of_mem_wrapOperators {x : Segment} (hx : x ∈ (wrapOperators v t).segments)
    (hk : x.kind = .operator) : ∃ o ∈ v.operators, x.text = o.escaped := by
  revert x
  refine Pass.apply_induction (P := fun g => ∀ {x : Segment}, x ∈ g.stream.segments →
    x.kind = .operator → ∃ o ∈ v.operators, x.text = o.escaped) ?_ ?_
  · intro r hr g hg x hx hk
    obtain ⟨o, ho, rfl⟩ := List.mem_map.1 hr
    have hplain : x.isPlain = false := by simp [Segment.isPlain, hk]
    obtain ⟨y, hy, hxy⟩ := List.mem_flatMap.1 (SegmentStream.mem_of_mem_segments hx hplain)
    split at hxy
    · exact ⟨o, ho, operator_of_mem_pieces hxy hk⟩
    · exact hg (List.mem_singleton.1 hxy ▸ hy) hk
  · intro x hx hk
    rw [Segment.eq_plain_of_isPlain (SegmentStream.isPlain_of_mem_ofPlain hx)] at hk
    cases hk

theorem plainAt_ofPlain {u : Text} {n : Nat} (hu : IsSolid u) :
    (SegmentStream.ofPlain t).PlainAt u n ↔ StandsAt u t n :=
  (Segment.someAt_ofPlain (Segment.ignoresSpace_hasPlain hu)).trans Segment.hasPlain_plain

theorem not_isInfix_of_mem_plainTexts {o : Operator} (ho : o ∈ v.operators) {g : Progress}
    {p : Text} (hp : p ∈ (Pass.operators.apply v g).stream.plainTexts) : ¬ o.escaped <:+: p := by
  rintro ⟨a, b, rfl⟩
  obtain ⟨k, m, hsegments⟩ := List.append_of_mem (SegmentStream.mem_plainTexts_iff.1 hp)
  rw [apply_operators] at hsegments
  exact not_plainAt_spaceAll ho ⟨k, _, m, _, hsegments, ⟨rfl, a, b, rfl, rfl⟩, rfl⟩

/-- An operator comes behind those only that have at least as many characters. -/
theorem Vocabulary.exists_split {o : Operator} (ho : o ∈ v.operators) :
    ∃ ps qs, v.operators = ps ++ o :: qs ∧
      ∀ p ∈ ps, p ∈ v.operators ∧ p ≠ o ∧ o.spelling.length ≤ p.spelling.length := by
  obtain ⟨ps, qs, hsplit, hnew⟩ := List.eq_append_cons_of_mem ho
  refine ⟨ps, qs, hsplit, fun p hp => ⟨?_, fun he => hnew (he ▸ hp), ?_⟩⟩
  · rw [hsplit]
    exact List.mem_append_left _ hp
  · have hlongest := v.longest_first
    rw [hsplit] at hlongest
    exact (List.pairwise_append.1 hlongest).2.2 p hp o List.mem_cons_self

theorem wrappedAt_wrapOperators {o : Operator} (ho : o ∈ v.operators) {i : Nat}
    (hi : o.escaped <+: t.drop i) (hu : v.Uncontested t o i) :
    (wrapOperators v t).WrappedAt o.escaped (visibleLength (t.take i)) := by
  obtain ⟨ps, qs, hsplit, hbefore⟩ := Vocabulary.exists_split ho
  rw [wrapOperators, apply_operators, hsplit]
  refine wrappedAt_spaceAll_of_split ?_ ?_ ?_
  · exact (plainAt_ofPlain o.isSolid_escaped).2 (standsAt_of_isPrefix hi)
  · intro m hm hne
    obtain ⟨j, hlt, hj, rfl⟩ :=
      ((plainAt_ofPlain o.isSolid_escaped).1 hm).exists_isPrefix o.escaped_ne_nil
    refine .visible o.isSolid_escaped o.isSolid_escaped hi hj (hu.same j hlt ?_ hj)
    rintro rfl
    exact hne rfl
  · intro p hp m hm
    obtain ⟨hmem, hne, hlength⟩ := hbefore p hp
    obtain ⟨j, hlt, hj, rfl⟩ :=
      ((plainAt_ofPlain p.isSolid_escaped).1 hm).exists_isPrefix p.escaped_ne_nil
    exact .visible o.isSolid_escaped p.isSolid_escaped hi hj (hu.other p hmem hne hlength j hlt hj)

theorem withoutSpace_text_wrapOperators :
    withoutSpace (wrapOperators v t).text = withoutSpace t := by
  have h := withoutSpace_text_applyPasses v [.operators] ⟨.ofPlain t, .zero⟩
  rwa [text_ofPlain] at h

/-- **Operators are wrapped whole, and none is left.**  Of a plain text the operators make a
    stream in which every operator segment is an operator of the vocabulary; no plain segment
    holds an operator; and an occurrence that is not contested is one segment, between the
    texts before and behind it, up to white space.  A part of an operator has fewer
    characters, so it contests no occurrence of that operator. -/
theorem operators_wrapped (v : Vocabulary) (t : Text) :
    (∀ x ∈ (wrapOperators v t).segments, x.kind = .operator →
      ∃ o ∈ v.operators, x.text = o.escaped) ∧
    (∀ p ∈ (wrapOperators v t).plainTexts, ∀ o ∈ v.operators, ¬ o.escaped <:+: p) ∧
    (∀ o ∈ v.operators, ∀ i, o.escaped <+: t.drop i → v.Uncontested t o i →
      ∃ k l, (wrapOperators v t).segments = k ++ ⟨.operator, o.escaped⟩ :: l ∧
        withoutSpace (textOf k) = withoutSpace (t.take i) ∧
        withoutSpace (textOf l) = withoutSpace (t.drop (i + o.escaped.length))) ∧
    (∀ o ∈ v.operators, ∀ p ∈ v.operators, p ≠ o → p.escaped <:+: o.escaped →
      p.spelling.length < o.spelling.length) := by
  refine ⟨fun x hx => operator_of_mem_wrapOperators hx,
    fun p hp o ho => not_isInfix_of_mem_plainTexts ho hp, ?_,
    fun o _ p _ hne h => Operator.length_lt_of_isInfix h hne⟩
  intro o ho i hi hu
  obtain ⟨k, x, l, j, hsegments, ⟨rfl, rfl⟩, hplace⟩ := wrappedAt_wrapOperators ho hi hu
  have hstream : withoutSpace (wrapOperators v t).text =
      withoutSpace (textOf k) ++ (withoutSpace o.escaped ++ withoutSpace (textOf l)) := by
    rw [SegmentStream.text, hsegments, Segment.textOf_append, Segment.textOf_cons,
      withoutSpace_append, withoutSpace_append]
  have htext : withoutSpace t = withoutSpace (t.take i) ++
      (withoutSpace o.escaped ++ withoutSpace (t.drop (i + o.escaped.length))) := by
    obtain ⟨b, hb⟩ := hi
    rw [← withoutSpace_append, ← withoutSpace_append, ← List.drop_drop, ← hb, List.drop_left, hb,
      List.take_append_drop]
  rw [withoutSpace_text_wrapOperators, htext] at hstream
  obtain ⟨hfront, hrest⟩ := List.append_inj hstream hplace
  exact ⟨k, l, hsegments, hfront.symm, (List.append_cancel_left hrest).symm⟩

end

/-- The vocabulary of four comparisons, one of which has two others as its parts. -/
def comparisons : Vocabulary where
  keywords := []
  globals := []
  operators := [⟨['>', '='], by decide⟩, ⟨['>'], by decide⟩, ⟨['='], by decide⟩, ⟨['<'], by decide⟩]
  longest_first := by decide

/-- The longer comparison is not broken up by the two that it consists of. -/
theorem operators_wrapped_of_comparison :
    ⟨['>', '='], by decide⟩ ∈ comparisons.operators ∧
    "&gt;=".toList <+: "a&gt;=b &gt; c".toList.drop 1 ∧
    comparisons.Uncontested "a&gt;=b &gt; c".toList ⟨['>', '='], by decide⟩ 1 ∧
    (∃ k l, (wrapOperators comparisons "a&gt;=b &gt; c".toList).segments =
        k ++ ⟨.operator, "&gt;=".toList⟩ :: l ∧
      withoutSpace (textOf k) = "a".toList ∧ withoutSpace (textOf l) = "b&gt;c".toList) ∧
    "&gt;".toList <:+: "&gt;=".toList ∧ ['>'].length < ['>', '='].length := by
  have hmem : ⟨['>', '='], by decide⟩ ∈ comparisons.operators := by decide
  have hpart : ⟨['>'], by decide⟩ ∈ comparisons.operators := by decide
  have hprefix : "&gt;=".toList <+: "a&gt;=b &gt; c".toList.drop 1 := by decide
  have hfree : comparisons.Uncontested "a&gt;=b &gt; c".toList ⟨['>', '='], by decide⟩ 1 := by
    decide
  have hinfix : "&gt;".toList <:+: "&gt;=".toList := by decide
  obtain ⟨-, -, hwrapped, hshorter⟩ := operators_wrapped comparisons "a&gt;=b &gt; c".toList
  obtain ⟨k, l, hsegments, hfront, hbehind⟩ := hwrapped _ hmem 1 hprefix hfree
  refine ⟨hmem, hprefix, hfree, ⟨k, l, hsegments, ?_, ?_⟩, hinfix, ?_⟩
  · exact hfront.trans (by decide)
  · exact hbehind.trans (by decide)
  · exact hshorter _ hmem _ hpart (by decide) hinfix

end CodeSnippets

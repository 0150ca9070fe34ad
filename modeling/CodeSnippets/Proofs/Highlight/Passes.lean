/-
  From one rule to all passes.

  * `applyPasses_induction`: what every rule of some passes keeps is kept by the
    passes;
  * `applyPasses_induction₂`: the same for what holds between two runs;
  * `eq_wrap_of_mem_rules`: outside the operators, a rule gives its matches a kind and
    does nothing else;
  * `Rule.pieces_append_of_none`, `Rule.pieces_of_match`: the pieces of a text up to a match, and
    from a match on;
  * `kind_of_mem_pieces`, `mem_of_mem_applyPasses`: a pass gives one kind, so a segment of
    another kind was there before;
  * `Rule.segmentsOf`, `Rule.segments_run`: what a rule makes of a stream is what it makes
    of each segment.
-/
import CodeSnippets.Proofs.Highlight.Matches
import CodeSnippets.Proofs.Highlight.NormalForm

namespace CodeSnippets

theorem applyPasses_append (v : Vocabulary) (ps qs : List Pass) (g : Progress) :
    applyPasses v (ps ++ qs) g = applyPasses v qs (applyPasses v ps g) := by
  rw [applyPasses, List.foldl_append]
  rfl

theorem Pass.apply_induction {P : Progress → Prop} {v : Vocabulary} {p : Pass}
    (h : ∀ r ∈ p.rules v, ∀ g, P g → P (r.run g)) {g : Progress} (hg : P g) :
    P (p.apply v g) := by
  unfold Pass.apply
  generalize p.rules v = rs at h
  induction rs generalizing g with
  | nil => exact hg
  | cons r rs ih =>
    simp only [List.forall_mem_cons] at h
    exact ih (h.1 g hg) h.2

/-- **What every rule of some passes keeps is kept by the passes.** -/
theorem applyPasses_induction {P : Progress → Prop} {v : Vocabulary} {ps : List Pass}
    (h : ∀ p ∈ ps, ∀ r ∈ p.rules v, ∀ g, P g → P (r.run g)) {g : Progress} (hg : P g) :
    P (applyPasses v ps g) := by
  induction ps generalizing g with
  | nil => exact hg
  | cons p ps ih =>
    simp only [List.forall_mem_cons] at h
    exact ih h.2 (Pass.apply_induction h.1 hg)

theorem Pass.apply_induction₂ {R : Progress → Progress → Prop} {v : Vocabulary} {p : Pass}
    (h : ∀ r ∈ p.rules v, ∀ g g', R g g' → R (r.run g) (r.run g')) {g g' : Progress}
    (hg : R g g') : R (p.apply v g) (p.apply v g') := by
  unfold Pass.apply
  generalize p.rules v = rs at h
  induction rs generalizing g g' with
  | nil => exact hg
  | cons r rs ih =>
    simp only [List.forall_mem_cons] at h
    exact ih (h.1 g g' hg) h.2

/-- **What every rule of some passes keeps between two streams is kept by the passes.** -/
theorem applyPasses_induction₂ {R : Progress → Progress → Prop} {v : Vocabulary} {ps : List Pass}
    (h : ∀ p ∈ ps, ∀ r ∈ p.rules v, ∀ g g', R g g' → R (r.run g) (r.run g')) {g g' : Progress}
    (hg : R g g') : R (applyPasses v ps g) (applyPasses v ps g') := by
  induction ps generalizing g g' with
  | nil => exact hg
  | cons p ps ih =>
    simp only [List.forall_mem_cons] at h
    exact ih h.2 (Pass.apply_induction₂ h.1 hg)

theorem eq_wrap_of_mem_rules {v : Vocabulary} {p : Pass} (hp : p ≠ .operators) {r : Rule}
    (h : r ∈ p.rules v) : ∃ m k, k ≠ .plain ∧ r = .wrap m k := by
  cases p with
  | operators => exact absurd rfl hp
  | platformGlobals | keywords =>
    obtain ⟨w, -, rfl⟩ := List.mem_map.1 h
    exact ⟨_, _, by simp, rfl⟩
  | lineComments | blockComments | strings | numbers | functionCalls | brackets =>
    rw [List.mem_singleton.1 h]
    exact ⟨_, _, by simp, rfl⟩

/-! ## The pieces of a text -/

theorem flatMap_ofCut_kept (r : Rule) (t : Text) :
    (t.map Cut.kept).flatMap r.ofCut = t.map fun c => .plain [c] := by
  induction t with
  | nil => rfl
  | cons c t ih => rw [List.map_cons, List.flatMap_cons, ih]; rfl

theorem Rule.pieces_nil (r : Rule) : r.pieces [] = [] := by
  rw [pieces, Matcher.cuts, Matcher.cutsFrom_nil, List.flatMap_nil]

section
variable {r : Rule} {s t : Text}

theorem Rule.pieces_cons_of_none (hr : r.matcher.LooksAhead) {c : Char}
    (h : r.matcher none c t = none) : r.pieces (c :: t) = .plain [c] :: r.pieces t := by
  rw [pieces, Matcher.cuts, Matcher.cutsFrom_cons_of_none h, hr.cutsFrom_eq _ none]
  rfl

/-- A match at the beginning of a text. -/
theorem Rule.pieces_of_match (hr : r.matcher.LooksAhead) {c : Char} {w : Text}
    (h : r.matcher none c (w ++ t) = some w.length) :
    r.pieces (c :: (w ++ t)) = r.replace (c :: w) ++ r.pieces t := by
  rw [pieces, Matcher.cuts, Matcher.cutsFrom_cons_of_some h, List.take_left, List.drop_left,
    hr.cutsFrom_eq _ none, List.flatMap_cons]
  rfl

/-- A text in which no match begins, in front of another one. -/
theorem Rule.pieces_append_of_none (hr : r.matcher.LooksAhead)
    (h : ∀ c q, (c :: q) <:+ s → r.matcher none c (q ++ t) = none) :
    r.pieces (s ++ t) = (s.map fun c => .plain [c]) ++ r.pieces t := by
  induction s with
  | nil => rfl
  | cons c s ih =>
    rw [List.cons_append, pieces_cons_of_none hr (h c s List.suffix_rfl),
      ih fun d q hs => h d q (hs.trans (List.suffix_cons c s))]
    rfl

theorem Rule.alike_pieces_append (hr : r.matcher.LooksAhead)
    (h : ∀ c q, (c :: q) <:+ s → r.matcher none c (q ++ t) = none) :
    Segment.Alike (r.pieces (s ++ t)) (.plain s :: r.pieces t) := by
  intro m
  rw [pieces_append_of_none hr h, List.foldr_append, Segment.foldr_attach_chars]
  rfl

/-- A text in which no match begins. -/
theorem Rule.alike_pieces (hr : r.matcher.LooksAhead)
    (h : ∀ c q, (c :: q) <:+ t → r.matcher none c q = none) :
    Segment.Alike (r.pieces t) [.plain t] := by
  have happend := Rule.alike_pieces_append hr (s := t) (t := []) fun c q hs => by
    rw [List.append_nil]
    exact h c q hs
  rwa [List.append_nil, r.pieces_nil] at happend

end

theorem Rule.isPlain_or_of_mem_pieces {r : Rule} {t : Text} {x : Segment} (hx : x ∈ r.pieces t) :
    x.isPlain = true ∨ ∃ u, .matched u ∈ r.matcher.cuts t ∧ x ∈ r.replace u := by
  obtain ⟨cut, hcut, hx⟩ := List.mem_flatMap.1 hx
  cases cut with
  | kept c =>
    rw [List.mem_singleton.1 hx]
    exact .inl rfl
  | matched u => exact .inr ⟨u, hcut, hx⟩

/-- The kind that the rules of a pass give. -/
def Pass.kind : Pass → Kind
  | .lineComments | .blockComments => .comment
  | .strings => .string
  | .numbers => .number
  | .platformGlobals => .platformGlobal
  | .keywords => .keyword
  | .functionCalls => .functionName
  | .brackets => .bracket
  | .operators => .operator

theorem kind_of_mem_pieces {v : Vocabulary} {p : Pass} {r : Rule} (hr : r ∈ p.rules v) {t : Text}
    {x : Segment} (hx : x ∈ r.pieces t) : x.isPlain = true ∨ x.kind = p.kind := by
  refine (Rule.isPlain_or_of_mem_pieces hx).elim .inl fun ⟨u, _, hx⟩ => ?_
  cases p with
  | operators =>
    obtain ⟨o, -, rfl⟩ := List.mem_map.1 hr
    simp only [Rule.spaced, List.mem_cons, List.not_mem_nil, or_false] at hx
    rcases hx with rfl | rfl | rfl
    · exact .inl rfl
    · exact .inr rfl
    · exact .inl rfl
  | platformGlobals | keywords =>
    obtain ⟨w, -, rfl⟩ := List.mem_map.1 hr
    rw [List.mem_singleton.1 hx]
    exact .inr rfl
  | lineComments | blockComments | strings | numbers | functionCalls | brackets =>
    rw [List.mem_singleton.1 hr] at hx
    rw [List.mem_singleton.1 hx]
    exact .inr rfl

/-- Segments of other kinds than that of a pass were there before. -/
theorem mem_of_mem_run {v : Vocabulary} {p : Pass} {r : Rule} (hr : r ∈ p.rules v) {g : Progress}
    {x : Segment} (hp : x.isPlain = false) (hk : x.kind ≠ p.kind)
    (hx : x ∈ (r.run g).stream.segments) : x ∈ g.stream.segments := by
  obtain ⟨y, hy, hxy⟩ := List.mem_flatMap.1 (SegmentStream.mem_of_mem_segments hx hp)
  split at hxy
  · rcases kind_of_mem_pieces hr hxy with h | h
    · rw [hp] at h
      cases h
    · exact absurd h hk
  · rwa [List.mem_singleton.1 hxy]

theorem mem_of_mem_applyPasses {v : Vocabulary} {ps : List Pass} {g : Progress} {x : Segment}
    (hp : x.isPlain = false) (hk : ∀ p ∈ ps, x.kind ≠ p.kind)
    (hx : x ∈ (applyPasses v ps g).stream.segments) : x ∈ g.stream.segments := by
  revert hx
  exact applyPasses_induction (P := fun h => x ∈ h.stream.segments → x ∈ g.stream.segments)
    (fun p hps r hr _ ih hx => ih (mem_of_mem_run hr hp (hk p hps) hx)) id

/-- What a rule makes of a segment of a stream. -/
def Rule.segmentsOf (r : Rule) (x : Segment) : List Segment :=
  (SegmentStream.ofSegments (SegmentStream.replaced r.pieces x)).segments

theorem Rule.segmentsOf_plain (r : Rule) (t : Text) :
    r.segmentsOf (.plain t) = (SegmentStream.ofSegments (r.pieces t)).segments := rfl

theorem Rule.segmentsOf_of_classified (r : Rule) {x : Segment} (hx : x.isPlain = false)
    (ht : x.text ≠ []) : r.segmentsOf x = [x] := by
  rw [segmentsOf, SegmentStream.replaced, hx, if_neg Bool.false_ne_true,
    SegmentStream.segments_ofSegments_cons, Segment.attach_of_classified hx ht]
  rfl

/-- Classified segments are kept. -/
theorem Rule.isPlain_or_eq_of_mem_segmentsOf {r : Rule} {x y : Segment} (hy : y ∈ r.segmentsOf x) :
    x.isPlain = true ∨ y = x := by
  cases hx : x.isPlain with
  | true => exact .inl rfl
  | false =>
    refine .inr ?_
    by_cases ht : x.text = []
    · rw [segmentsOf, SegmentStream.replaced, hx, if_neg Bool.false_ne_true,
        SegmentStream.segments_ofSegments_cons, Segment.attach_of_text_eq_nil ht] at hy
      cases hy
    · rw [r.segmentsOf_of_classified hx ht] at hy
      exact List.mem_singleton.1 hy

theorem Rule.segments_run (r : Rule) (g : Progress) :
    (r.run g).stream.segments = g.stream.segments.flatMap r.segmentsOf :=
  SegmentStream.segments_replacePlain _ _

end CodeSnippets

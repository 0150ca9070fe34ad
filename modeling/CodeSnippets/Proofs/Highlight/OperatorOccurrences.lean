/-
  What a rule for an operator does to the occurrences of operators.

  A rule for an operator cuts plain text and puts spaces at the cuts.  Since no operator holds
  white space, none comes into being at a cut, and an occurrence goes away only with a match
  that overlaps it.

  * `Matcher.LooksAhead.cuts_cases`: a plain text is cut at the first match;
  * `Operator.FirstMatch`, `Operator.cuts_cases`, `Rule.spaced_induction`: the first match is the
    operator with all white space around it, and so is the next one behind it;
  * `standsAt_of_segmentsOf`, `not_plainAt_segmentsOf`, `plainAt_segmentsOf`,
    `wrappedAt_segmentsOf`: the occurrences in a plain text and in what the rule makes of it;
  * `plainAt_of_run`, `not_plainAt_run`, `plainAt_run`, `wrappedAt_run`, `wrappedAt_run_self`:
    the same for the occurrences in a stream.
-/
import CodeSnippets.Proofs.Highlight.VisiblePlaces

namespace CodeSnippets

open Segment (SomeAt HasPlain IsWrapped textOf)

theorem Operator.isSolid_spelling (o : Operator) : IsSolid o.spelling where
  ne_nil := o.spelling_ne_nil
  visible := by
    intro c hc
    have hbarred := o.not_barred_of_mem c hc
    simp only [isBarredFromOperators, Bool.or_eq_false_iff] at hbarred
    exact hbarred.1.2

/-- Entities hold no white space, so an operator has none when it is escaped. -/
theorem Operator.isSolid_escaped (o : Operator) : IsSolid o.escaped where
  ne_nil := o.escaped_ne_nil
  visible := by
    have hself : withoutSpace o.escaped = o.escaped := by
      rw [Operator.escaped, withoutSpace_escape, o.isSolid_spelling.withoutSpace_eq]
    intro c hc
    simpa using List.filter_eq_self.1 hself c hc

/-! ## The first match in a text -/

/-- Without a look at the character in front, either no match begins anywhere in a text, or
    the text is cut at the first match. -/
theorem Matcher.LooksAhead.cuts_cases {m : Matcher} (hm : m.LooksAhead) (t : Text) :
    ((∀ c rest, (c :: rest) <:+ t → m none c rest = none) ∧ m.cuts t = t.map .kept) ∨
    ∃ k c rest n, t = k ++ c :: rest ∧
      (∀ d q, (d :: q) <:+ k → m none d (q ++ c :: rest) = none) ∧
      m none c rest = some n ∧
      m.cuts t = k.map .kept ++ .matched (c :: rest.take n) :: m.cuts (rest.drop n) := by
  induction t with
  | nil => exact .inl ⟨by simp, cutsFrom_nil m none⟩
  | cons c t ih =>
    rcases hc : m none c t with _ | n
    · have hcuts : m.cuts (c :: t) = .kept c :: m.cuts t := by
        rw [cuts, cutsFrom_cons_of_none hc, hm.cutsFrom_eq _ none]
        rfl
      rcases ih with ⟨hnone, hall⟩ | ⟨k, d, rest, n, rfl, hnone, hd, hall⟩
      · refine .inl ⟨fun d rest hs => ?_, by rw [hcuts, hall]; rfl⟩
        rcases List.suffix_cons_iff.1 hs with h | h
        · obtain ⟨rfl, rfl⟩ := List.cons.inj h
          exact hc
        · exact hnone d rest h
      · refine .inr ⟨c :: k, d, rest, n, rfl, fun e q hs => ?_, hd, by rw [hcuts, hall]; rfl⟩
        rcases List.suffix_cons_iff.1 hs with h | h
        · obtain ⟨rfl, rfl⟩ := List.cons.inj h
          exact hc
        · exact hnone e q h
    · refine .inr ⟨[], c, t, n, rfl, by simp, hc, ?_⟩
      rw [cuts, cutsFrom_cons_of_some hc, hm.cutsFrom_eq _ none]
      rfl

section

variable {o : Operator}

theorem spacedOperator_eq_none_iff {before : Option Char} {c : Char} {rest : Text} :
    spacedOperator o before c rest = none ↔
      ¬ o.escaped <+: (c :: rest).dropWhile isWhitespace := by
  simp [spacedOperator]

/-- A match begins where the operator does. -/
theorem spacedOperator_ne_none {c : Char} {rest : Text} (h : o.escaped <+: c :: rest)
    (before : Option Char) : spacedOperator o before c rest ≠ none := by
  have hc : isWhitespace c = false := by
    obtain ⟨d, q, hq⟩ := List.exists_cons_of_ne_nil o.escaped_ne_nil
    rw [hq, List.cons_prefix_cons] at h
    obtain ⟨rfl, -⟩ := h
    exact o.isSolid_escaped.visible d (by rw [hq]; exact List.mem_cons_self)
  have hdrop : (c :: rest).dropWhile isWhitespace = c :: rest := by
    rw [List.dropWhile_cons, hc]
    rfl
  rw [Ne, spacedOperator_eq_none_iff, hdrop, not_not]
  exact h

theorem not_isInfix_of_none {k t : Text}
    (h : ∀ d q, (d :: q) <:+ k → spacedOperator o none d (q ++ t) = none) :
    ¬ o.escaped <:+: k := by
  rintro ⟨a, b, rfl⟩
  obtain ⟨d, q, hq⟩ := List.exists_cons_of_ne_nil o.escaped_ne_nil
  have hprefix : o.escaped <+: d :: (q ++ b ++ t) := by
    rw [hq, List.append_assoc]
    exact List.prefix_append (d :: q) _
  refine spacedOperator_ne_none hprefix none (h d (q ++ b) ?_)
  rw [hq, List.append_assoc]
  exact List.suffix_append a _

/-- What a match leaves between the text `k` in front of it and the segments `l` that come of
    the text behind it. -/
def Operator.between (o : Operator) (k : Text) (l : List Segment) : List Segment :=
  .plain (k ++ [' ']) :: ⟨.operator, o.escaped⟩ :: (Segment.plain [' ']).attach l

theorem Rule.segmentsOf_of_kept {r : Rule} {t : Text} (h : r.matcher.cuts t = t.map .kept) :
    r.segmentsOf (.plain t) = (SegmentStream.ofPlain t).segments := by
  rw [segmentsOf_plain, pieces, h, flatMap_ofCut_kept, SegmentStream.segments_ofSegments,
    Segment.foldr_attach_chars]
  rfl

theorem Rule.segmentsOf_spaced_of_match {t k w rest : Text}
    (h : (Rule.spaced o).matcher.cuts t =
      k.map .kept ++ .matched w :: (Rule.spaced o).matcher.cuts rest) :
    (Rule.spaced o).segmentsOf (.plain t) =
      o.between k ((Rule.spaced o).segmentsOf (.plain rest)) := by
  have hmatch : (Rule.spaced o).ofCut (.matched w) =
      [.plain [' '], ⟨.operator, o.escaped⟩, .plain [' ']] := rfl
  rw [segmentsOf_plain, segmentsOf_plain, pieces, pieces, h, List.flatMap_append,
    flatMap_ofCut_kept, List.flatMap_cons, hmatch]
  simp only [SegmentStream.segments_ofSegments, List.foldr_append, List.foldr_cons, List.foldr_nil]
  rw [Segment.attach_of_classified (s := ⟨.operator, o.escaped⟩) rfl o.escaped_ne_nil,
    Segment.foldr_attach_chars, Segment.attach_plain_attach_plain]
  simp [Operator.between, Segment.attach, Segment.isPlain]

/-- A text does not end with white space. -/
def EndsVisible (t : Text) : Prop := ∀ c ∈ t.getLast?, isWhitespace c = false

/-- A text does not begin with white space. -/
def BeginsVisible (t : Text) : Prop := ∀ c ∈ t.head?, isWhitespace c = false

/-- The text `w` between `k` and `rest` is the first match of the rule for an operator: the
    operator, which does not occur in `k`, with all white space around it. -/
structure Operator.FirstMatch (o : Operator) (k w rest : Text) : Prop where
  absent : ¬ o.escaped <:+: k
  front : EndsVisible k
  exact : ∃ lead trail, (∀ c ∈ lead, isWhitespace c = true) ∧
    (∀ c ∈ trail, isWhitespace c = true) ∧ w = lead ++ o.escaped ++ trail
  behind : BeginsVisible rest

theorem Operator.FirstMatch.standsAt {k w rest : Text} (h : o.FirstMatch k w rest) :
    StandsAt o.escaped w 0 := by
  obtain ⟨lead, trail, hlead, -, rfl⟩ := h.exact
  exact ⟨lead, trail, rfl, visibleLength_eq_zero hlead⟩

theorem Operator.FirstMatch.visibleLength {k w rest : Text} (h : o.FirstMatch k w rest) :
    visibleLength w = o.escaped.length := by
  obtain ⟨lead, trail, hlead, htrail, rfl⟩ := h.exact
  rw [visibleLength_append, visibleLength_append, visibleLength_eq_zero hlead,
    visibleLength_eq_zero htrail, o.isSolid_escaped.visibleLength_eq, Nat.zero_add, Nat.add_zero]

/-- White space in front of a match is a part of it. -/
theorem endsVisible_of_none {k t : Text} {c : Char} {n : Nat}
    (hnone : ∀ d q, (d :: q) <:+ k → spacedOperator o none d (q ++ c :: t) = none)
    (hm : spacedOperator o none c t = some n) : EndsVisible k := by
  intro d hd
  obtain ⟨r, rfl⟩ := List.getLast?_eq_some_iff.1 hd
  rw [← Bool.not_eq_true]
  intro hspace
  have hbefore := spacedOperator_eq_none_iff.1 (hnone d [] (List.suffix_append r _))
  rw [List.nil_append, List.dropWhile_cons, if_pos hspace] at hbefore
  have hboth : spacedOperator o none c t = none := spacedOperator_eq_none_iff.2 hbefore
  rw [hm] at hboth
  cases hboth

/-- **What a rule for an operator does to a text**: it leaves a text without the operator, or
    it cuts the text at the first match and goes on behind it. -/
theorem Operator.cuts_cases (o : Operator) (t : Text) :
    (¬ o.escaped <:+: t ∧ (spacedOperator o).cuts t = t.map .kept) ∨
    ∃ k w rest, t = k ++ (w ++ rest) ∧ o.FirstMatch k w rest ∧
      (spacedOperator o).cuts t = k.map .kept ++ .matched w :: (spacedOperator o).cuts rest := by
  have hahead : (spacedOperator o).LooksAhead := fun _ _ _ _ => rfl
  rcases hahead.cuts_cases t with ⟨hnone, hall⟩ | ⟨k, c, rest, n, rfl, hnone, hm, hall⟩
  · refine .inl ⟨not_isInfix_of_none (t := []) fun d q hs => ?_, hall⟩
    rw [List.append_nil]
    exact hnone d q hs
  · obtain ⟨lead, trail, hlead, htrail, hexact, hbehind⟩ := spacedOperator_eq_some hm
    refine .inr ⟨k, _, _, ?_, ⟨?_, ?_, ⟨lead, trail, hlead, htrail, hexact⟩, hbehind⟩, hall⟩
    · rw [List.cons_append, List.take_append_drop]
    · exact not_isInfix_of_none hnone
    · exact endsVisible_of_none hnone hm

/-- **To prove a property of what a rule for an operator makes of a plain text**, go over a
    text without the operator and over a text up to its first match and that match. -/
theorem Rule.spaced_induction {P : Text → List Cut → List Segment → Prop}
    (absent : ∀ t, ¬ o.escaped <:+: t → P t (t.map .kept) (SegmentStream.ofPlain t).segments)
    (found : ∀ k w rest cs l, o.FirstMatch k w rest → P rest cs l →
      P (k ++ (w ++ rest)) (k.map .kept ++ .matched w :: cs) (o.between k l))
    (t : Text) : P t ((spacedOperator o).cuts t) ((Rule.spaced o).segmentsOf (.plain t)) := by
  induction hl : t.length using Nat.strongRecOn generalizing t with
  | _ n ih =>
    subst hl
    rcases o.cuts_cases t with ⟨hnone, hall⟩ | ⟨k, w, rest, rfl, hfirst, hall⟩
    · rw [segmentsOf_of_kept hall, hall]
      exact absent t hnone
    · rw [segmentsOf_spaced_of_match hall, hall]
      refine found k w rest _ _ hfirst (ih _ ?_ rest rfl)
      have hw := hfirst.standsAt.isInfix.length_le
      have hpos := List.length_pos_iff.2 o.escaped_ne_nil
      simp only [List.length_append]
      omega

end

/-! ## What a rule does to a plain text -/

section

variable {o : Operator} {u : Text} {n : Nat}

theorem someAt_between {P : Segment → Nat → Prop} (hP : Segment.IgnoresSpace P) {k : Text}
    {l : List Segment} : SomeAt P (o.between k l) n ↔ P (.plain k) n ∨
      (∃ m, P ⟨.operator, o.escaped⟩ m ∧ n = visibleLength k + m) ∨
      ∃ m, SomeAt P l m ∧ n = visibleLength k + (o.escaped.length + m) := by
  simp only [Operator.between, Segment.someAt_cons, Segment.someAt_attach_space hP, hP.back,
    Segment.plain_text, visibleLength_append, Segment.visibleLength_space, Nat.add_zero,
    o.isSolid_escaped.visibleLength_eq]
  refine or_congr Iff.rfl ⟨?_, ?_⟩
  · rintro ⟨_, h | ⟨m, hm, rfl⟩, rfl⟩
    · exact .inl ⟨_, h, rfl⟩
    · exact .inr ⟨m, hm, rfl⟩
  · rintro (⟨m, hm, rfl⟩ | ⟨m, hm, rfl⟩)
    · exact ⟨m, .inl hm, rfl⟩
    · exact ⟨_, .inr ⟨m, hm, rfl⟩, rfl⟩

theorem someAt_hasPlain_between (hu : IsSolid u) {k : Text} {l : List Segment} :
    SomeAt (HasPlain u) (o.between k l) n ↔ StandsAt u k n ∨
      ∃ m, SomeAt (HasPlain u) l m ∧ n = visibleLength k + (o.escaped.length + m) := by
  simp [someAt_between (Segment.ignoresSpace_hasPlain hu)]

theorem someAt_isWrapped_between {k : Text} {l : List Segment} :
    SomeAt (IsWrapped o.escaped) (o.between k l) n ↔ n = visibleLength k ∨
      ∃ m, SomeAt (IsWrapped o.escaped) l m ∧
        n = visibleLength k + (o.escaped.length + m) := by
  have hself : ∀ m, IsWrapped o.escaped ⟨.operator, o.escaped⟩ m ↔ m = 0 := fun m =>
    and_iff_right rfl
  simp [someAt_between (Segment.ignoresSpace_isWrapped o.escaped), hself]

/-- A match and the text behind it. -/
theorem standsAt_behind_match {k w rest : Text} (hw : visibleLength w = o.escaped.length)
    (h : StandsAt u rest n) :
    StandsAt u (k ++ (w ++ rest)) (visibleLength k + (o.escaped.length + n)) := by
  rw [← hw]
  exact (h.append_left w).append_left k

/-- No occurrence comes into being. -/
theorem standsAt_of_segmentsOf (hu : IsSolid u) {t : Text} :
    ∀ n, SomeAt (HasPlain u) ((Rule.spaced o).segmentsOf (.plain t)) n → StandsAt u t n := by
  refine Rule.spaced_induction
    (P := fun t _ l => ∀ n, SomeAt (HasPlain u) l n → StandsAt u t n) ?_ ?_ t
  · intro t _ n h
    exact Segment.hasPlain_plain.1 ((Segment.someAt_ofPlain (Segment.ignoresSpace_hasPlain hu)).1 h)
  · intro k w rest _ l hfirst ih n h
    rcases (someAt_hasPlain_between hu).1 h with h | ⟨m, hm, rfl⟩
    · exact h.append_right _
    · exact standsAt_behind_match hfirst.visibleLength (ih m hm)

/-- None of the operator itself is left. -/
theorem not_plainAt_segmentsOf {t : Text} :
    ∀ n, ¬ SomeAt (HasPlain o.escaped) ((Rule.spaced o).segmentsOf (.plain t)) n := by
  refine Rule.spaced_induction
    (P := fun _ _ l => ∀ n, ¬ SomeAt (HasPlain o.escaped) l n) ?_ ?_ t
  · intro t ht n h
    have hplain := Segment.ignoresSpace_hasPlain o.isSolid_escaped
    exact ht (Segment.hasPlain_plain.1 ((Segment.someAt_ofPlain hplain).1 h)).isInfix
  · intro k w rest _ l hfirst ih n h
    rcases (someAt_hasPlain_between o.isSolid_escaped).1 h with h | ⟨m, hm, -⟩
    · exact hfirst.absent h.isInfix
    · exact ih m hm

/-- Two places on either side of a match, or one that it overlaps. -/
theorem standsAt_cases (hu : IsSolid u) {k w rest : Text}
    (hw : visibleLength w = o.escaped.length) (h : StandsAt u (k ++ (w ++ rest)) n)
    (ha : Apart n u (visibleLength k) o.escaped) : StandsAt u k n ∨
      ∃ m, StandsAt u rest m ∧ n = visibleLength k + (o.escaped.length + m) := by
  rcases ha with hn | hn
  · exact .inl (h.of_append_left hu hn)
  · obtain ⟨i, hi, rfl⟩ := h.of_append_right hu (by omega)
    obtain ⟨m, hm, rfl⟩ := hi.of_append_right hu (by omega)
    exact .inr ⟨m, hm, by rw [hw]⟩

/-- An occurrence that no occurrence of the operator overlaps stays. -/
theorem plainAt_segmentsOf (hu : IsSolid u) {t : Text} :
    ∀ n, StandsAt u t n → (∀ m, StandsAt o.escaped t m → Apart n u m o.escaped) →
      SomeAt (HasPlain u) ((Rule.spaced o).segmentsOf (.plain t)) n := by
  refine Rule.spaced_induction
    (P := fun t _ l => ∀ n, StandsAt u t n → (∀ m, StandsAt o.escaped t m → Apart n u m o.escaped) →
      SomeAt (HasPlain u) l n) ?_ ?_ t
  · intro t _ n h _
    exact (Segment.someAt_ofPlain (Segment.ignoresSpace_hasPlain hu)).2
      (Segment.hasPlain_plain.2 h)
  · intro k w rest _ l hfirst ih n h ha
    have hw := hfirst.visibleLength
    have hapart := ha _ ((hfirst.standsAt.append_right rest).append_left k)
    refine (someAt_hasPlain_between hu).2 ((standsAt_cases hu hw h hapart).imp id ?_)
    rintro ⟨m, hm, rfl⟩
    refine ⟨m, ih m hm fun j hj => ?_, rfl⟩
    exact apart_add_left.1 (apart_add_left.1 (ha _ (standsAt_behind_match hw hj)))

/-- An occurrence of the operator that no other one overlaps is wrapped. -/
theorem wrappedAt_segmentsOf {t : Text} :
    ∀ n, StandsAt o.escaped t n →
      (∀ m, StandsAt o.escaped t m → m ≠ n → Apart n o.escaped m o.escaped) →
      SomeAt (IsWrapped o.escaped) ((Rule.spaced o).segmentsOf (.plain t)) n := by
  refine Rule.spaced_induction
    (P := fun t _ l => ∀ n, StandsAt o.escaped t n →
      (∀ m, StandsAt o.escaped t m → m ≠ n → Apart n o.escaped m o.escaped) →
      SomeAt (IsWrapped o.escaped) l n) ?_ ?_ t
  · intro t ht n h _
    exact absurd h.isInfix ht
  · intro k w rest _ l hfirst ih n h ha
    have hw := hfirst.visibleLength
    refine someAt_isWrapped_between.2 ?_
    by_cases hn : n = visibleLength k
    · exact .inl hn
    have hapart := ha _ ((hfirst.standsAt.append_right rest).append_left k) (Ne.symm hn)
    rcases standsAt_cases o.isSolid_escaped hw h hapart with h | ⟨m, hm, rfl⟩
    · exact absurd h.isInfix hfirst.absent
    · refine .inr ⟨m, ih m hm fun j hj hne => ?_, rfl⟩
      have := ha _ (standsAt_behind_match hw hj) (by omega)
      exact apart_add_left.1 (apart_add_left.1 this)

/-! ## What a rule does to a stream -/

/-- `u` stands in plain text, behind `n` visible characters of the text of the stream. -/
def SegmentStream.PlainAt (s : SegmentStream) (u : Text) (n : Nat) : Prop :=
  SomeAt (HasPlain u) s.segments n

/-- `u` is wrapped as an operator, behind `n` visible characters of the text of the stream. -/
def SegmentStream.WrappedAt (s : SegmentStream) (u : Text) (n : Nat) : Prop :=
  SomeAt (IsWrapped u) s.segments n

/-- Plain text comes of plain text only. -/
theorem exists_plain_of_segmentsOf {r : Rule} {x : Segment}
    (h : SomeAt (HasPlain u) (r.segmentsOf x) n) :
    ∃ t, x = .plain t ∧ SomeAt (HasPlain u) (r.segmentsOf (.plain t)) n := by
  have hp : x.isPlain = true := by
    obtain ⟨k, y, m, i, hy, ⟨hplain, -⟩, -⟩ := h
    rcases Rule.isPlain_or_eq_of_mem_segmentsOf (hy ▸ List.mem_append_cons_self) with hp | rfl
    · exact hp
    · exact hplain
  refine ⟨x.text, Segment.eq_plain_of_isPlain hp, ?_⟩
  rwa [← Segment.eq_plain_of_isPlain hp]

theorem visibleLength_segmentsOf_spaced (x : Segment) :
    visibleLength (textOf ((Rule.spaced o).segmentsOf x)) = visibleLength x.text := by
  have htext : textOf ((Rule.spaced o).segmentsOf x) =
      textOf (SegmentStream.replaced (Rule.spaced o).pieces x) :=
    SegmentStream.text_ofSegments _
  rw [htext, SegmentStream.replaced]
  split
  · rw [visibleLength, withoutSpace_pieces_spaced, visibleLength]
  · simp

variable {g : Progress}

theorem someAt_run {P : Segment → Nat → Prop} :
    SomeAt P ((Rule.spaced o).run g).stream.segments n ↔
      SomeAt (fun x => SomeAt P ((Rule.spaced o).segmentsOf x)) g.stream.segments n := by
  rw [Rule.segments_run, Segment.someAt_flatMap visibleLength_segmentsOf_spaced]

/-- **A rule for an operator makes no occurrence** of a text without white space. -/
theorem plainAt_of_run (hu : IsSolid u) (h : ((Rule.spaced o).run g).stream.PlainAt u n) :
    g.stream.PlainAt u n := by
  refine (someAt_run.1 h).mono fun x i hx => ?_
  obtain ⟨t, rfl, ht⟩ := exists_plain_of_segmentsOf hx
  exact Segment.hasPlain_plain.2 (standsAt_of_segmentsOf hu i ht)

/-- It leaves no occurrence of the operator. -/
theorem not_plainAt_run : ¬ ((Rule.spaced o).run g).stream.PlainAt o.escaped n := by
  intro h
  obtain ⟨_, x, _, i, -, hx, -⟩ := someAt_run.1 h
  obtain ⟨t, -, ht⟩ := exists_plain_of_segmentsOf hx
  exact not_plainAt_segmentsOf i ht

/-- An occurrence that no occurrence of the operator overlaps stays. -/
theorem plainAt_run (hu : IsSolid u) (h : g.stream.PlainAt u n)
    (ha : ∀ m, g.stream.PlainAt o.escaped m → Apart n u m o.escaped) :
    ((Rule.spaced o).run g).stream.PlainAt u n := by
  refine someAt_run.2 (h.of_forall (A := fun n m => Apart n u m o.escaped)
    (fun _ _ _ => apart_add_left.1) ?_ ha)
  intro x i hx hapart
  obtain ⟨hp, hstands⟩ := hx
  rw [Segment.eq_plain_of_isPlain hp] at hapart ⊢
  exact plainAt_segmentsOf hu i hstands fun m hm => hapart m (Segment.hasPlain_plain.2 hm)

/-- What is wrapped stays wrapped. -/
theorem wrappedAt_run (hu : u ≠ []) (h : g.stream.WrappedAt u n) :
    ((Rule.spaced o).run g).stream.WrappedAt u n := by
  refine someAt_run.2 (h.mono fun x i hx => ?_)
  obtain ⟨rfl, rfl⟩ := hx
  rw [Rule.segmentsOf_of_classified _ rfl hu, Segment.someAt_singleton]
  exact ⟨rfl, rfl⟩

/-- An occurrence of the operator that no other one overlaps is wrapped. -/
theorem wrappedAt_run_self (h : g.stream.PlainAt o.escaped n)
    (ha : ∀ m, g.stream.PlainAt o.escaped m → m ≠ n → Apart n o.escaped m o.escaped) :
    ((Rule.spaced o).run g).stream.WrappedAt o.escaped n := by
  refine someAt_run.2 (h.of_forall (A := fun n m => m ≠ n → Apart n o.escaped m o.escaped)
    (fun d n m hA hne => apart_add_left.1 (hA (by omega))) ?_ ha)
  intro x i hx hapart
  obtain ⟨hp, hstands⟩ := hx
  rw [Segment.eq_plain_of_isPlain hp] at hapart ⊢
  exact wrappedAt_segmentsOf i hstands fun m hm => hapart m (Segment.hasPlain_plain.2 hm)

end

end CodeSnippets

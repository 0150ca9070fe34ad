/-
  The space around operators.

  A rule for an operator takes the white space around a match away and puts one space on either
  side.  The rules that follow see these spaces in plain text, and a match takes the space it
  finds before it puts down its own, so between two different operators a single space is left.
  Matches of one rule do not see each other's spaces: where one follows another directly, the
  space behind the first and the space in front of the second come to stand side by side.

  * `SegmentStream.OperatorsSpaced`: one space on either side of every operator, or two between
    two of the same, where that is allowed;
  * `Operator.KeepsApart`: no match of the operator follows another one directly;
  * `spaced_segmentsOf`, `SegmentStream.OperatorsSpaced.run`: what a rule does in a plain text
    and in a stream;
  * `exists_double_of_not_keepsApart`: where two matches follow each other, there are two spaces;
  * `operators_spaced`: each operator has one space on either side if and only if all operators
    are kept apart;
  * `spaces_doubled`: the spaces between two signs.
-/
import CodeSnippets.Proofs.Highlight.MatchPlaces
import CodeSnippets.Proofs.Highlight.OperatorSegments

namespace CodeSnippets

/-! ## A single space -/

theorem endsVisible_nil : EndsVisible [] := by
  intro c hc
  cases hc

theorem beginsVisible_nil : BeginsVisible [] := by
  intro c hc
  cases hc

theorem endsVisible_append {s t : Text} (ht : t ≠ []) : EndsVisible (s ++ t) ↔ EndsVisible t := by
  rw [EndsVisible, EndsVisible, List.getLast?_append_of_ne_nil s ht]

theorem beginsVisible_append {s t : Text} (hs : s ≠ []) :
    BeginsVisible (s ++ t) ↔ BeginsVisible s := by
  rw [BeginsVisible, BeginsVisible, List.head?_append_of_ne_nil s hs]

/-- A space is white space. -/
theorem not_endsVisible_space : ¬ EndsVisible [' '] := by
  intro h
  have hspace : isWhitespace ' ' = false := h ' ' rfl
  cases hspace

theorem not_beginsVisible_space : ¬ BeginsVisible [' '] := by
  intro h
  have hspace : isWhitespace ' ' = false := h ' ' rfl
  cases hspace

/-- At the end of a text there is exactly one character of white space, a space. -/
def EndsWithSpace (t : Text) : Prop := ∃ a, t = a ++ [' '] ∧ EndsVisible a

/-- At the beginning of a text there is exactly one character of white space, a space. -/
def BeginsWithSpace (t : Text) : Prop := ∃ b, t = ' ' :: b ∧ BeginsVisible b

/-- The end of a text that ends with a single space does so, unless the space is in front. -/
theorem EndsWithSpace.of_append {s t : Text} (h : EndsWithSpace (s ++ t)) (ht : BeginsVisible t) :
    t = [] ∨ EndsWithSpace t := by
  rcases List.eq_nil_or_concat' t with rfl | ⟨r, c, rfl⟩
  · exact .inl rfl
  obtain ⟨a, ha, hvisible⟩ := h
  rw [← List.append_assoc] at ha
  obtain ⟨rfl, hc⟩ := List.append_inj' ha rfl
  obtain rfl : c = ' ' := by simpa using hc
  refine .inr ⟨r, rfl, ?_⟩
  by_cases hr : r = []
  · rw [hr]
    exact endsVisible_nil
  · exact (endsVisible_append hr).1 hvisible

/-- Behind one more space, the single space at the end stays the only one there. -/
theorem endsWithSpace_cons {t : Text} (hbegins : BeginsVisible t) (h : t = [] ∨ EndsWithSpace t) :
    EndsWithSpace (' ' :: t) := by
  rcases h with rfl | ⟨a, rfl, ha⟩
  · exact ⟨[], rfl, endsVisible_nil⟩
  · refine ⟨' ' :: a, rfl, ?_⟩
    have hne : a ≠ [] := by
      rintro rfl
      exact not_beginsVisible_space hbegins
    exact (endsVisible_append (s := [' ']) hne).2 ha

/-! ## Operators in their spaces -/

/-- The segments `k` in front of the operator `x` end with plain text that ends with a single
    space; or, if `double` allows it, that consists of two spaces behind the same operator. -/
def SpacedInFront (double : Bool) (k : List Segment) (x : Segment) : Prop :=
  ∃ j t, k = j ++ [.plain t] ∧
    (EndsWithSpace t ∨ double = true ∧ t = [' ', ' '] ∧ x ∈ j.getLast?)

/-- The segments `l` behind the operator `x` begin with plain text that begins with a single
    space; or, if `double` allows it, that consists of two spaces in front of the same operator. -/
def SpacedBehind (double : Bool) (x : Segment) (l : List Segment) : Prop :=
  ∃ t m, l = .plain t :: m ∧
    (BeginsWithSpace t ∨ double = true ∧ t = [' ', ' '] ∧ x ∈ m.head?)

/-- All operators of a stream have a single space on either side; or, if `double` allows it,
    two spaces between two of the same. -/
def SegmentStream.OperatorsSpaced (double : Bool) (s : SegmentStream) : Prop :=
  ∀ k x l, s.segments = k ++ x :: l → x.kind = .operator →
    SpacedInFront double k x ∧ SpacedBehind double x l

section

variable {double : Bool} {x : Segment} {j k l m : List Segment}

theorem SpacedInFront.append_left (h : SpacedInFront double k x) (j : List Segment) :
    SpacedInFront double (j ++ k) x := by
  obtain ⟨i, t, rfl, hspace⟩ := h
  refine ⟨j ++ i, t, (List.append_assoc _ _ _).symm, hspace.imp_right ?_⟩
  rintro ⟨hdouble, ht, hx⟩
  exact ⟨hdouble, ht, List.mem_getLast?_append_of_mem_getLast? hx⟩

theorem SpacedBehind.append_right (h : SpacedBehind double x l) (m : List Segment) :
    SpacedBehind double x (l ++ m) := by
  obtain ⟨t, i, rfl, hspace⟩ := h
  refine ⟨t, i ++ m, rfl, hspace.imp_right ?_⟩
  rintro ⟨hdouble, ht, hx⟩
  exact ⟨hdouble, ht, List.mem_head?_append_of_mem_head? hx⟩

end

/-! ## Matches that follow each other -/

/-- Whether a part of a text is a match. -/
def Cut.isMatch : Cut → Bool
  | .kept _ => false
  | .matched _ => true

/-- Of two parts of a text, one is no match. -/
def Cut.Apart (x y : Cut) : Prop := x.isMatch = false ∨ y.isMatch = false

instance (x y : Cut) : Decidable (x.Apart y) := inferInstanceAs (Decidable (_ ∨ _))

/-- No match of the rule for an operator follows another one directly: between two of them, more
    than white space is left. -/
def Operator.KeepsApart (o : Operator) (t : Text) : Prop :=
  ((spacedOperator o).cuts t).IsChain Cut.Apart

instance (o : Operator) (t : Text) : Decidable (o.KeepsApart t) :=
  inferInstanceAs (Decidable (List.IsChain _ _))

/-- Characters outside all matches are apart from everything. -/
theorem isChain_kept_append (k : Text) {cs : List Cut} :
    (k.map Cut.kept ++ cs).IsChain Cut.Apart ↔ cs.IsChain Cut.Apart := by
  induction k with
  | nil => rfl
  | cons c k ih =>
    rw [List.map_cons, List.cons_append, List.isChain_cons, ih, and_iff_right]
    intro y _
    exact .inl rfl

/-! ## A plain text -/

section

variable {o : Operator} {double : Bool}

/-- What the rule for an operator puts down from a match on, if `l` are the segments that come of
    the text behind it. -/
def Operator.fromMatch (o : Operator) (l : List Segment) : List Segment :=
  ⟨.operator, o.escaped⟩ :: (Segment.plain [' ']).attach l

theorem Operator.fromMatch_ofPlain (o : Operator) (t : Text) :
    o.fromMatch (SegmentStream.ofPlain t).segments =
      [⟨.operator, o.escaped⟩, .plain (' ' :: t)] := by
  rw [fromMatch, SegmentStream.ofPlain, SegmentStream.segments_ofSegments_cons,
    Segment.attach_plain_attach_plain]
  simp [Segment.attach]

theorem Operator.fromMatch_between (o : Operator) (k : Text) (l : List Segment) :
    o.fromMatch (o.between k l) =
      ⟨.operator, o.escaped⟩ :: .plain (' ' :: (k ++ [' '])) :: o.fromMatch l := by
  simp [fromMatch, between, Segment.attach]

/-- From a match on, in front of a text that does not begin with white space. -/
theorem spaced_fromMatch (t : Text) :
    BeginsVisible t → ∀ w, (double = true ∨
        (Cut.matched w :: (spacedOperator o).cuts t).IsChain Cut.Apart) →
      ∀ k x m, o.fromMatch ((Rule.spaced o).segmentsOf (.plain t)) = k ++ x :: m →
        x.kind = .operator → (k = [] ∨ SpacedInFront double k x) ∧ SpacedBehind double x m := by
  refine Rule.spaced_induction (P := fun t cs l => BeginsVisible t → ∀ w,
    (double = true ∨ (Cut.matched w :: cs).IsChain Cut.Apart) →
      ∀ k x m, o.fromMatch l = k ++ x :: m → x.kind = .operator →
        (k = [] ∨ SpacedInFront double k x) ∧ SpacedBehind double x m) ?_ ?_ t
  · intro t _ ht w _ k x m h hx
    rw [o.fromMatch_ofPlain] at h
    cases k with
    | nil =>
      obtain ⟨rfl, rfl⟩ := List.cons.inj h
      exact ⟨.inl rfl, _, [], rfl, .inl ⟨t, rfl, ht⟩⟩
    | cons y k =>
      obtain ⟨-, hrest⟩ := List.cons.inj h
      rcases List.singleton_eq_append_iff.1 hrest with ⟨-, hxm⟩ | ⟨-, hxm⟩
      · obtain ⟨rfl, -⟩ := List.cons.inj hxm
        cases hx
      · cases hxm
  · intro k₀ w₀ rest cs l hfirst ih ht w hdouble k x m h hx
    have hnext : double = true ∨ (Cut.matched w₀ :: cs).IsChain Cut.Apart := by
      refine hdouble.imp_right fun hchain => ?_
      exact (isChain_kept_append k₀).1 (List.isChain_cons.1 hchain).2
    -- without a text between them, the two matches follow each other
    have hnear : k₀ = [] → double = true := by
      rintro rfl
      refine hdouble.resolve_right fun hchain => ?_
      have hapart := (List.isChain_cons.1 hchain).1 (.matched w₀) rfl
      rcases hapart with h | h <;> cases h
    rw [o.fromMatch_between] at h
    rcases k with _ | ⟨y, _ | ⟨z, k⟩⟩
    · obtain ⟨rfl, rfl⟩ := List.cons.inj h
      refine ⟨.inl rfl, _, _, rfl, ?_⟩
      by_cases hk : k₀ = []
      · subst hk
        exact .inr ⟨hnear rfl, rfl, rfl⟩
      · rw [beginsVisible_append hk] at ht
        exact .inl ⟨_, rfl, (beginsVisible_append hk).2 ht⟩
    · obtain ⟨-, hrest⟩ := List.cons.inj h
      obtain ⟨rfl, -⟩ := List.cons.inj hrest
      cases hx
    · obtain ⟨rfl, hrest⟩ := List.cons.inj h
      obtain ⟨rfl, hback⟩ := List.cons.inj hrest
      obtain ⟨hfront, hbehind⟩ := ih hfirst.behind w₀ hnext k x m hback hx
      refine ⟨.inr ?_, hbehind⟩
      rcases hfront with rfl | hfront
      · obtain ⟨rfl, -⟩ := List.cons.inj hback
        refine ⟨[_], _, rfl, ?_⟩
        by_cases hk : k₀ = []
        · subst hk
          exact .inr ⟨hnear rfl, rfl, rfl⟩
        · exact .inl ⟨' ' :: k₀, rfl, (endsVisible_append (s := [' ']) hk).2 hfirst.front⟩
      · exact hfront.append_left [_, _]

/-- **In what a rule makes of a plain text, operators have their space**: two spaces are only
    between matches that follow each other. -/
theorem spaced_segmentsOf {t : Text} (hdouble : double = true ∨ o.KeepsApart t)
    {k m : List Segment} {x : Segment} (h : (Rule.spaced o).segmentsOf (.plain t) = k ++ x :: m)
    (hx : x.kind = .operator) : SpacedInFront double k x ∧ SpacedBehind double x m := by
  rcases o.cuts_cases t with ⟨-, hall⟩ | ⟨k₀, w, rest, rfl, hfirst, hall⟩
  · rw [Rule.segmentsOf_of_kept hall] at h
    have hmem : x ∈ (SegmentStream.ofPlain t).segments := by simp [h]
    rw [Segment.eq_plain_of_isPlain (SegmentStream.isPlain_of_mem_ofPlain hmem)] at hx
    cases hx
  · rw [Rule.segmentsOf_spaced_of_match hall] at h
    rw [Operator.KeepsApart, hall, isChain_kept_append] at hdouble
    cases k with
    | nil =>
      obtain ⟨rfl, -⟩ := List.cons.inj h
      cases hx
    | cons y k =>
      obtain ⟨rfl, hback⟩ := List.cons.inj h
      obtain ⟨hfront, hbehind⟩ := spaced_fromMatch rest hfirst.behind w hdouble k x m hback hx
      refine ⟨?_, hbehind⟩
      rcases hfront with rfl | hfront
      · exact ⟨[], _, rfl, .inl ⟨k₀, rfl, hfirst.front⟩⟩
      · exact hfront.append_left [_]

/-- A single space at the beginning of a text stays. -/
theorem beginsWithSpace_segmentsOf {t : Text} (h : BeginsWithSpace t) :
    ∃ u l, (Rule.spaced o).segmentsOf (.plain t) = .plain u :: l ∧ BeginsWithSpace u := by
  obtain ⟨b, ht, hb⟩ := h
  rcases o.cuts_cases t with ⟨-, hall⟩ | ⟨k, w, rest, hsplit, hfirst, hall⟩
  · rw [Rule.segmentsOf_of_kept hall, SegmentStream.segments_ofPlain (by simp [ht])]
    exact ⟨t, [], rfl, b, ht, hb⟩
  · rw [Rule.segmentsOf_spaced_of_match hall]
    refine ⟨k ++ [' '], _, rfl, ?_⟩
    cases k with
    | nil => exact ⟨[], rfl, beginsVisible_nil⟩
    | cons c k =>
      rw [ht] at hsplit
      obtain ⟨rfl, rfl⟩ := List.cons.inj hsplit
      have hne : k ≠ [] := by
        rintro rfl
        exact not_endsVisible_space hfirst.front
      have hfront : BeginsVisible k := (beginsVisible_append (t := w ++ rest) hne).1 hb
      exact ⟨k ++ [' '], rfl, (beginsVisible_append hne).2 hfront⟩

/-- From a match on, a single space at the end stays. -/
theorem endsWithSpace_fromMatch (t : Text) : BeginsVisible t → t = [] ∨ EndsWithSpace t →
    ∃ l u, o.fromMatch ((Rule.spaced o).segmentsOf (.plain t)) = l ++ [.plain u] ∧
      EndsWithSpace u := by
  refine Rule.spaced_induction (P := fun t _ s => BeginsVisible t → t = [] ∨ EndsWithSpace t →
    ∃ l u, o.fromMatch s = l ++ [.plain u] ∧ EndsWithSpace u) ?_ ?_ t
  · intro t _ hbegins hends
    rw [o.fromMatch_ofPlain]
    exact ⟨[_], _, rfl, endsWithSpace_cons hbegins hends⟩
  · intro k w rest _ s hfirst ih _ hends
    have hrest : rest = [] ∨ EndsWithSpace rest := by
      rcases hends with hnil | hends
      · simp only [List.append_eq_nil_iff] at hnil
        exact .inl hnil.2.2
      · rw [← List.append_assoc] at hends
        exact hends.of_append hfirst.behind
    obtain ⟨l, u, hl, hu⟩ := ih hfirst.behind hrest
    rw [o.fromMatch_between, hl]
    exact ⟨_ :: _ :: l, u, rfl, hu⟩

/-- A single space at the end of a text stays. -/
theorem endsWithSpace_segmentsOf {t : Text} (h : EndsWithSpace t) :
    ∃ l u, (Rule.spaced o).segmentsOf (.plain t) = l ++ [.plain u] ∧ EndsWithSpace u := by
  rcases o.cuts_cases t with ⟨-, hall⟩ | ⟨k, w, rest, rfl, hfirst, hall⟩
  · have hne : t ≠ [] := by
      obtain ⟨a, rfl, -⟩ := h
      simp
    rw [Rule.segmentsOf_of_kept hall, SegmentStream.segments_ofPlain hne]
    exact ⟨[], t, rfl, h⟩
  · rw [← List.append_assoc] at h
    obtain ⟨l, u, hl, hu⟩ := endsWithSpace_fromMatch rest hfirst.behind (h.of_append hfirst.behind)
    refine ⟨.plain (k ++ [' ']) :: l, u, ?_, hu⟩
    rw [Rule.segmentsOf_spaced_of_match hall, List.cons_append, ← hl]
    rfl

/-- Two spaces stay. -/
theorem segmentsOf_two_spaces :
    (Rule.spaced o).segmentsOf (.plain [' ', ' ']) = [.plain [' ', ' ']] := by
  rcases o.cuts_cases [' ', ' '] with ⟨-, hall⟩ | ⟨k, w, rest, hsplit, hfirst, -⟩
  · rw [Rule.segmentsOf_of_kept hall, SegmentStream.segments_ofPlain (by simp)]
  · obtain ⟨c, q, hc⟩ := List.exists_cons_of_ne_nil o.escaped_ne_nil
    have hmem : c ∈ [' ', ' '] := by
      rw [hsplit]
      refine List.mem_append_right _ (List.mem_append_left _ (hfirst.standsAt.isInfix.subset ?_))
      rw [hc]
      exact List.mem_cons_self
    have hvisible : isWhitespace c = false :=
      o.isSolid_escaped.visible c (by rw [hc]; exact List.mem_cons_self)
    obtain rfl : c = ' ' := by simpa using hmem
    cases hvisible

/-- **Where two matches follow each other, two spaces stand between them.** -/
theorem exists_double_of_not_keepsApart {t : Text} (h : ¬ o.KeepsApart t) :
    ∃ k l, (Rule.spaced o).segmentsOf (.plain t) =
      k ++ ⟨.operator, o.escaped⟩ :: .plain [' ', ' '] :: ⟨.operator, o.escaped⟩ :: l := by
  -- a text that begins with a match is cut there at once
  have hall := Rule.spaced_induction (o := o) (P := fun _ cs s =>
    (∀ y ∈ cs.head?, y.isMatch = true → ∃ l, s = o.between [] l) ∧
      (cs.IsChain Cut.Apart ∨ ∃ k l, s =
        k ++ ⟨.operator, o.escaped⟩ :: .plain [' ', ' '] :: ⟨.operator, o.escaped⟩ :: l)) ?_ ?_ t
  · exact hall.2.resolve_left h
  · intro t _
    have hkept : (t.map Cut.kept).IsChain Cut.Apart := by
      rw [← List.append_nil (t.map Cut.kept), isChain_kept_append]
      exact List.isChain_nil
    refine ⟨?_, .inl hkept⟩
    intro y hy hmatch
    cases t with
    | nil => cases hy
    | cons c t =>
      obtain rfl : Cut.kept c = y := by simpa using hy
      cases hmatch
  · rintro k w rest cs s _ ⟨hhead, hs⟩
    refine ⟨?_, ?_⟩
    · intro y hy hmatch
      cases k with
      | nil => exact ⟨s, rfl⟩
      | cons c k =>
        obtain rfl : Cut.kept c = y := by simpa using hy
        cases hmatch
    · rw [isChain_kept_append, List.isChain_cons]
      rcases hs with hchain | ⟨j, l, rfl⟩
      · by_cases hnext : ∃ y ∈ cs.head?, y.isMatch = true
        · obtain ⟨y, hy, hmatch⟩ := hnext
          obtain ⟨l, rfl⟩ := hhead y hy hmatch
          refine .inr ⟨[.plain (k ++ [' '])], (Segment.plain [' ']).attach l, ?_⟩
          exact congrArg _ (o.fromMatch_between [] l)
        · refine .inl ⟨fun y hy => .inr ?_, hchain⟩
          rw [← Bool.not_eq_true]
          intro hmatch
          exact hnext ⟨y, hy, hmatch⟩
      · refine .inr ⟨.plain (k ++ [' ']) :: ⟨.operator, o.escaped⟩ ::
          (Segment.plain [' ']).attach j, l, ?_⟩
        rw [Operator.between, Segment.attach_append_cons _ _ rfl]
        rfl

end

/-! ## A stream -/

section

variable {o : Operator} {double : Bool} {g : Progress} {x : Segment} {k l : List Segment}

/-- What is in front of an operator keeps its space. -/
theorem SpacedInFront.flatMap (h : SpacedInFront double k x) (hx : x.isPlain = false)
    (ht : x.text ≠ []) : SpacedInFront double (k.flatMap (Rule.spaced o).segmentsOf) x := by
  obtain ⟨j, t, rfl, hspace⟩ := h
  rw [List.flatMap_append, List.flatMap_singleton]
  rcases hspace with hends | ⟨hdouble, rfl, hlast⟩
  · obtain ⟨i, u, hu, hends⟩ := endsWithSpace_segmentsOf (o := o) hends
    rw [hu, ← List.append_assoc]
    exact ⟨_, u, rfl, .inl hends⟩
  · obtain ⟨i, rfl⟩ := List.getLast?_eq_some_iff.1 hlast
    rw [segmentsOf_two_spaces]
    refine ⟨_, _, rfl, .inr ⟨hdouble, rfl, ?_⟩⟩
    rw [List.flatMap_append, List.flatMap_singleton, Rule.segmentsOf_of_classified _ hx ht]
    exact List.mem_getLast?_append_of_mem_getLast? rfl

/-- What is behind an operator keeps its space. -/
theorem SpacedBehind.flatMap (h : SpacedBehind double x l) (hx : x.isPlain = false)
    (ht : x.text ≠ []) : SpacedBehind double x (l.flatMap (Rule.spaced o).segmentsOf) := by
  obtain ⟨t, m, rfl, hspace⟩ := h
  rw [List.flatMap_cons]
  rcases hspace with hbegins | ⟨hdouble, rfl, hfirst⟩
  · obtain ⟨u, i, hu, hbegins⟩ := beginsWithSpace_segmentsOf (o := o) hbegins
    rw [hu]
    exact ⟨u, _, rfl, .inl hbegins⟩
  · obtain ⟨i, rfl⟩ := List.head?_eq_some_iff.1 hfirst
    rw [segmentsOf_two_spaces]
    refine ⟨_, _, rfl, .inr ⟨hdouble, rfl, ?_⟩⟩
    rw [List.flatMap_cons, Rule.segmentsOf_of_classified _ hx ht]
    rfl

/-- **A rule keeps the space around the operators that there are, and gives its own to those that
    it makes.** -/
theorem SegmentStream.OperatorsSpaced.run (hg : g.stream.OperatorsSpaced double)
    (hdouble : ∀ t ∈ g.stream.plainTexts, double = true ∨ o.KeepsApart t) :
    ((Rule.spaced o).run g).stream.OperatorsSpaced double := by
  intro k x l h hx
  obtain ⟨a, y, b, k', l', hsplit, hy, rfl, rfl⟩ := Rule.exists_of_segments_run h
  have hmem : y ∈ g.stream.segments := by simp [hsplit]
  cases hp : y.isPlain with
  | true =>
    rw [Segment.eq_plain_of_isPlain hp] at hy hmem
    have hplain := hdouble _ (SegmentStream.mem_plainTexts_iff.2 hmem)
    obtain ⟨hfront, hbehind⟩ := spaced_segmentsOf hplain hy hx
    exact ⟨hfront.append_left _, hbehind.append_right _⟩
  | false =>
    have ht := g.stream.normal.text_ne_nil y hmem
    rw [Rule.segmentsOf_of_classified _ hp ht] at hy
    rcases List.singleton_eq_append_iff.1 hy with ⟨rfl, hxl⟩ | ⟨-, hxl⟩
    · obtain ⟨rfl, rfl⟩ := List.cons.inj hxl
      obtain ⟨hfront, hbehind⟩ := hg a x b hsplit hx
      rw [List.append_nil, List.nil_append]
      exact ⟨hfront.flatMap hp ht, hbehind.flatMap hp ht⟩
    · cases hxl

/-- Two spaces between two of the same operator. -/
def SegmentStream.HasDouble (s : SegmentStream) : Prop :=
  ∃ (o : Operator) (k l : List Segment), s.segments =
    k ++ ⟨.operator, o.escaped⟩ :: .plain [' ', ' '] :: ⟨.operator, o.escaped⟩ :: l

theorem SegmentStream.HasDouble.run (h : g.stream.HasDouble) :
    ((Rule.spaced o).run g).stream.HasDouble := by
  obtain ⟨p, k, l, hg⟩ := h
  have hself := (Rule.spaced o).segmentsOf_of_classified (x := ⟨.operator, p.escaped⟩) rfl
    p.escaped_ne_nil
  refine ⟨p, k.flatMap (Rule.spaced o).segmentsOf, l.flatMap (Rule.spaced o).segmentsOf, ?_⟩
  rw [Rule.segments_run, hg, List.flatMap_append, List.flatMap_cons, List.flatMap_cons,
    List.flatMap_cons, hself, segmentsOf_two_spaces]
  rfl

/-- **Matches that follow each other leave two spaces.** -/
theorem hasDouble_run {t : Text} (ht : t ∈ g.stream.plainTexts) (h : ¬ o.KeepsApart t) :
    ((Rule.spaced o).run g).stream.HasDouble := by
  obtain ⟨a, b, hsplit⟩ := List.append_of_mem (SegmentStream.mem_plainTexts_iff.1 ht)
  obtain ⟨k, l, hsegments⟩ := exists_double_of_not_keepsApart h
  refine ⟨o, a.flatMap (Rule.spaced o).segmentsOf ++ k, l ++ b.flatMap (Rule.spaced o).segmentsOf,
    ?_⟩
  rw [Rule.segments_run, hsplit, List.flatMap_append, List.flatMap_cons, hsegments]
  simp

theorem SegmentStream.OperatorsSpaced.not_hasDouble {s : SegmentStream}
    (h : s.OperatorsSpaced false) : ¬ s.HasDouble := by
  rintro ⟨o, k, l, hs⟩
  obtain ⟨-, t, m, hm, hspace⟩ := h k _ _ hs rfl
  obtain rfl : [' ', ' '] = t := congrArg Segment.text (List.cons.inj hm).1
  rcases hspace with ⟨b, hb, hvisible⟩ | ⟨hfalse, -⟩
  · obtain ⟨-, rfl⟩ := List.cons.inj hb
    exact not_beginsVisible_space hvisible
  · cases hfalse

/-! ## All operators -/

variable {os : List Operator}

theorem operatorsSpaced_spaceAll (hg : g.stream.OperatorsSpaced double)
    (hdouble : ∀ ps o qs, os = ps ++ o :: qs → ∀ t ∈ (spaceAll ps g).stream.plainTexts,
      double = true ∨ o.KeepsApart t) : (spaceAll os g).stream.OperatorsSpaced double := by
  induction os generalizing g with
  | nil => exact hg
  | cons o os ih =>
    rw [spaceAll_cons]
    refine ih (hg.run (hdouble [] o os rfl)) fun ps p qs hsplit => ?_
    exact hdouble (o :: ps) p qs (by rw [hsplit, List.cons_append])

theorem hasDouble_spaceAll (h : g.stream.HasDouble) : (spaceAll os g).stream.HasDouble := by
  induction os generalizing g with
  | nil => exact h
  | cons o os ih => exact ih h.run

end

/-- **Each operator has its space.**  If a stream has no operators yet, the pass for operators puts
    plain text on either side of every one that it makes.  This text has exactly one character of
    white space next to the operator, a space, or it is two spaces between two of the same
    operator.  The former holds everywhere if and only if, at the turn of each operator, no plain
    text has two matches of it with nothing between them. -/
theorem operators_spaced (v : Vocabulary) (g : Progress)
    (hg : ∀ x ∈ g.stream.segments, x.kind ≠ .operator) :
    (Pass.operators.apply v g).stream.OperatorsSpaced true ∧
    ((Pass.operators.apply v g).stream.OperatorsSpaced false ↔
      ∀ ps o qs, v.operators = ps ++ o :: qs →
        ∀ t ∈ (spaceAll ps g).stream.plainTexts, o.KeepsApart t) := by
  have hnone : ∀ double, g.stream.OperatorsSpaced double := by
    intro double k x l h hx
    exact absurd hx (hg x (by simp [h]))
  rw [apply_operators]
  refine ⟨operatorsSpaced_spaceAll (hnone true) fun _ _ _ _ _ _ => .inl rfl, ?_, ?_⟩
  · intro h ps o qs hsplit t ht
    by_contra hnear
    rw [hsplit, spaceAll_append, spaceAll_cons] at h
    exact h.not_hasDouble (hasDouble_spaceAll (hasDouble_run ht hnear))
  · intro h
    exact operatorsSpaced_spaceAll (hnone false) fun ps o qs hsplit t ht =>
      .inr (h ps o qs hsplit t ht)

/-- The vocabulary of two signs. -/
def signs : Vocabulary where
  keywords := []
  globals := []
  operators := [⟨['%'], by decide⟩, ⟨['-'], by decide⟩]
  longest_first := by simp

/-- Between two different signs, there is a single space. -/
theorem operators_spaced_of_signs :
    (∀ x ∈ (SegmentStream.ofPlain "a%- b".toList).segments, x.kind ≠ .operator) ∧
    (Pass.operators.apply signs ⟨.ofPlain "a%- b".toList, .zero⟩).stream.segments =
      [.plain "a ".toList, ⟨.operator, "%".toList⟩, .plain " ".toList, ⟨.operator, "-".toList⟩,
        .plain " b".toList] ∧
    (Pass.operators.apply signs ⟨.ofPlain "a%- b".toList, .zero⟩).stream.OperatorsSpaced false := by
  have hnone : ∀ x ∈ (SegmentStream.ofPlain "a%- b".toList).segments, x.kind ≠ .operator := by
    decide
  refine ⟨hnone, by decide +kernel, (operators_spaced signs _ hnone).2.2 ?_⟩
  intro ps o qs hsplit
  rcases ps with _ | ⟨p, _ | ⟨q, ps⟩⟩
  · obtain ⟨rfl, -⟩ := List.cons.inj hsplit
    decide +kernel
  · obtain ⟨rfl, hrest⟩ := List.cons.inj hsplit
    obtain ⟨rfl, -⟩ := List.cons.inj hrest
    decide +kernel
  · obtain ⟨-, hrest⟩ := List.cons.inj hsplit
    obtain ⟨-, hnil⟩ := List.cons.inj hrest
    simp at hnil

/-- Between two of the same sign, there are two. -/
theorem spaces_doubled :
    (Pass.operators.apply plusOnly ⟨.ofPlain "a + + b".toList, .zero⟩).stream.segments =
      [.plain "a ".toList, ⟨.operator, "+".toList⟩, .plain "  ".toList, ⟨.operator, "+".toList⟩,
        .plain " b".toList] ∧
    ¬ (Pass.operators.apply plusOnly
      ⟨.ofPlain "a + + b".toList, .zero⟩).stream.OperatorsSpaced false := by
  have hsegments :
      (Pass.operators.apply plusOnly ⟨.ofPlain "a + + b".toList, .zero⟩).stream.segments =
        [.plain "a ".toList, ⟨.operator, "+".toList⟩, .plain "  ".toList,
          ⟨.operator, "+".toList⟩, .plain " b".toList] := by decide +kernel
  refine ⟨hsegments, ?_⟩
  intro h
  exact h.not_hasDouble ⟨⟨['+'], by decide⟩, [.plain "a ".toList], [.plain " b".toList], hsegments⟩

end CodeSnippets

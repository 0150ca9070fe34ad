/-
  Markup is flat.

  The markup of a stream whose segments are escaped is a row of pieces: escaped text,
  bare or in a span of its own.  All `<` and `>` are those of the tags of spans, a span
  holds no other span, and a tag stands only where the entity of no character goes on.

  * `FlatPiece`: what a piece may be;
  * `exists_edge_of_lt`: where a `<` of flat markup stands;
  * `escaped_segments_flat_markup`: segments stay escaped through all passes, so the
    markup of every source is flat.
-/
import CodeSnippets.Highlight.Highlighter
import CodeSnippets.Proofs.Highlight.EscapedSegments

namespace CodeSnippets

/-! ## Pieces -/

/-- The classes of spans. -/
def spanClasses : List Text :=
  ["comment", "string", "number", "workers-specific", "keyword", "function", "bracket",
   "operator"].map String.toList

/-- What the tag that opens a span begins with. -/
def openTagFront : Text := "<span class=\"".toList

/-- The tag that opens a span. -/
def openTag (cls : Text) : Text := openTagFront ++ cls ++ "\">".toList

/-- The tag that closes a span. -/
def closeTag : Text := "</span>".toList

/-- A piece of flat markup: escaped text that is not empty, bare or in a span. -/
inductive FlatPiece : Text → Prop where
  | bare {u : Text} : u ≠ [] → FlatPiece (escape u)
  | spanned {cls u : Text} : cls ∈ spanClasses → u ≠ [] →
      FlatPiece (openTag cls ++ escape u ++ closeTag)

theorem mem_spanClasses {k : Kind} {cls : Text} (h : k.cssClass? = some cls) :
    cls ∈ spanClasses := by
  cases k <;> simp only [Kind.cssClass?, Option.some.injEq, reduceCtorEq] at h
  all_goals
    subst h
    decide

theorem render_eq (s : Segment) :
    s.render = s.text ∨ ∃ cls ∈ spanClasses, s.render = openTag cls ++ s.text ++ closeTag := by
  unfold Segment.render
  rcases h : s.kind.cssClass? with _ | cls
  · exact .inl rfl
  · exact .inr ⟨cls, mem_spanClasses h, rfl⟩

theorem flatPiece_render {s : Segment} {u : Text} (hu : u ≠ []) (hs : s.text = escape u) :
    FlatPiece s.render := by
  rcases render_eq s with h | ⟨cls, hc, h⟩
  · rw [h, hs]; exact .bare hu
  · rw [h, hs]; exact .spanned hc hu

/-! ## Angle brackets -/

/-- A tag is `<`, something without angle brackets, and `>`. -/
def IsTag (t : Text) : Prop := ∃ body, t = '<' :: (body ++ ['>']) ∧ '<' ∉ body ∧ '>' ∉ body

theorem isTag_openTag {cls : Text} (h : cls ∈ spanClasses) : IsTag (openTag cls) := by
  have spec : ∀ cls ∈ spanClasses, openTag cls = '<' :: ((openTag cls).tail.dropLast ++ ['>']) ∧
      '<' ∉ (openTag cls).tail.dropLast ∧ '>' ∉ (openTag cls).tail.dropLast := by decide
  exact ⟨_, spec cls h⟩

theorem isTag_closeTag : IsTag closeTag := ⟨"/span".toList, by decide⟩

theorem IsTag.count_eq {t : Text} (h : IsTag t) : t.count '<' = t.count '>' := by
  obtain ⟨body, rfl, hlt, hgt⟩ := h
  simp [List.count_eq_zero.2 hlt, List.count_eq_zero.2 hgt]

theorem count_escape {u : Text} {c : Char} (h : c = '<' ∨ c = '>') : (escape u).count c = 0 := by
  rw [List.count_eq_zero]
  intro hc
  have := ne_of_mem_escape hc
  rcases h with rfl | rfl <;> simp at this

theorem FlatPiece.count_eq {p : Text} (h : FlatPiece p) : p.count '<' = p.count '>' := by
  cases h with
  | bare hu => rw [count_escape (.inl rfl), count_escape (.inr rfl)]
  | spanned hc hu =>
    simp only [List.count_append, count_escape (.inl rfl), count_escape (.inr rfl),
      (isTag_openTag hc).count_eq, isTag_closeTag.count_eq]

/-- A `<` in a piece opens the span of the piece or closes it. -/
theorem FlatPiece.edge {p front back : Text} (h : FlatPiece p) (hp : p = front ++ '<' :: back) :
    ∃ cls ∈ spanClasses, (front = [] ∧ openTag cls <+: '<' :: back) ∨
      ∃ u, front = openTag cls ++ escape u ∧ closeTag = '<' :: back := by
  cases h with
  | @bare u hu =>
    have : '<' ∈ escape u := by rw [hp]; simp
    exact absurd rfl (ne_of_mem_escape this).1
  | @spanned cls u hc hu =>
    refine ⟨cls, hc, ?_⟩
    obtain ⟨a, ha, hlt, -⟩ := isTag_openTag hc
    obtain ⟨b, hb, hltb, -⟩ := isTag_closeTag
    cases front with
    | nil =>
      refine .inl ⟨rfl, ?_⟩
      rw [← List.nil_append ('<' :: back), ← hp, List.append_assoc]
      exact List.prefix_append _ _
    | cons d front =>
      rw [ha, hb] at hp
      simp only [List.cons_append, List.cons.injEq] at hp
      -- the `<` is that of the closing tag, since there is none before it
      have hfirst : '<' ∉ a ++ ['>'] ++ escape u := by
        simp only [List.mem_append, not_or]
        exact ⟨⟨hlt, by decide⟩, fun h => (ne_of_mem_escape h).1 rfl⟩
      have hsecond : '<' ∉ b ++ ['>'] := by
        simp only [List.mem_append, not_or]
        exact ⟨hltb, by decide⟩
      obtain ⟨hfront, -, hback⟩ := (List.append_cons_inj_of_notMem hfirst hsecond).1 hp.2
      refine .inr ⟨u, ?_, by rw [hb, hback]⟩
      rw [ha, ← hp.1, ← hfront]
      rfl

/-- **A `<` of flat markup is that of a tag at the edge of a piece**: it opens a span
    behind whole pieces, or it closes the one span that is open, behind escaped text. -/
theorem exists_edge_of_lt {pieces : List Text} (h : ∀ p ∈ pieces, FlatPiece p)
    {front back : Text} (heq : pieces.flatten = front ++ '<' :: back) :
    ∃ done, done <+: pieces ∧ ∃ cls ∈ spanClasses,
      (front = done.flatten ∧ openTag cls <+: '<' :: back) ∨
        ∃ u, front = done.flatten ++ openTag cls ++ escape u ∧ closeTag <+: '<' :: back := by
  induction pieces generalizing front with
  | nil => simp at heq
  | cons p ps ih =>
    simp only [List.forall_mem_cons] at h
    rw [List.flatten_cons] at heq
    -- the `<` is behind the first piece, or in it
    have hsplit : (∃ a, front = p ++ a ∧ ps.flatten = a ++ '<' :: back) ∨
        ∃ b, p = front ++ '<' :: b ∧ back = b ++ ps.flatten := by
      rcases List.append_eq_append_iff.1 heq with ⟨a, ha, hps⟩ | ⟨b, hp, hback⟩
      · exact .inl ⟨a, ha, hps⟩
      · cases b with
        | nil => exact .inl ⟨[], by simpa using hp.symm, by simpa using hback.symm⟩
        | cons d b =>
          simp only [List.cons_append, List.cons.injEq] at hback
          exact .inr ⟨b, by rw [hp, hback.1], hback.2⟩
    rcases hsplit with ⟨a, rfl, hps⟩ | ⟨b, hp, rfl⟩
    · obtain ⟨done, hdone, cls, hc, hedge⟩ := ih h.2 hps
      refine ⟨p :: done, List.cons_prefix_cons.2 ⟨rfl, hdone⟩, cls, hc, ?_⟩
      rw [List.flatten_cons]
      rcases hedge with ⟨rfl, hopen⟩ | ⟨u, rfl, hclose⟩
      · exact .inl ⟨rfl, hopen⟩
      · exact .inr ⟨u, by simp only [List.append_assoc], hclose⟩
    · obtain ⟨cls, hc, hedge⟩ := h.1.edge hp
      refine ⟨[], List.nil_prefix, cls, hc, ?_⟩
      rw [← List.cons_append]
      rcases hedge with ⟨rfl, hopen⟩ | ⟨u, rfl, hclose⟩
      · exact .inl ⟨rfl, hopen.trans (List.prefix_append _ _)⟩
      · exact .inr ⟨u, rfl, hclose ▸ List.prefix_append _ _⟩

/-! ## Streams and sources -/

theorem SegmentStream.IsEscaped.exists_ne_nil {s : SegmentStream} (h : s.IsEscaped) :
    ∀ x ∈ s.segments, ∃ u, u ≠ [] ∧ x.text = escape u := by
  intro x hx
  obtain ⟨u, hu⟩ := h x hx
  refine ⟨u, fun hnil => ?_, hu⟩
  exact s.normal.text_ne_nil x hx (by rw [hu, hnil]; rfl)

theorem SegmentStream.IsEscaped.flat {s : SegmentStream} (h : s.IsEscaped) :
    ∀ p ∈ s.segments.map Segment.render, FlatPiece p := by
  intro p hp
  obtain ⟨x, hx, rfl⟩ := List.mem_map.1 hp
  obtain ⟨u, hu, hxu⟩ := h.exists_ne_nil x hx
  exact flatPiece_render hu hxu

theorem count_flatten_eq {pieces : List Text} (h : ∀ p ∈ pieces, FlatPiece p) :
    pieces.flatten.count '<' = pieces.flatten.count '>' := by
  induction pieces with
  | nil => rfl
  | cons p ps ih =>
    simp only [List.forall_mem_cons] at h
    rw [List.flatten_cons, List.count_append, List.count_append, h.1.count_eq, ih h.2]

theorem isEscaped_start (source : Text) : (SegmentStream.ofPlain (escape source)).IsEscaped :=
  isEscaped_ofPlain (isEscaped_escape source)

theorem exists_flat_markup (v : Vocabulary) (source : Text) :
    ∃ pieces : List Text, (∀ p ∈ pieces, FlatPiece p) ∧
      (highlight v source).markup = pieces.flatten := by
  unfold highlight
  split
  · exact ⟨[], by simp, rfl⟩
  · have h : (runPasses v (escape source)).stream.IsEscaped :=
      isEscaped_applyPasses (isEscaped_start source)
    exact ⟨_, h.flat, List.flatMap_def⟩

/-- **Segments stay escaped through all passes, and markup is flat.**  Under any passes,
    each segment of an escaped source is the escaped form of a text that is not empty.
    The markup of a source is a row of pieces, each escaped text, bare or in a span of its
    own; each `<` in it begins a tag at the edge of a piece, and there are as many `>`. -/
theorem escaped_segments_flat_markup (v : Vocabulary) (source : Text) :
    (∀ ps : List Pass, ∀ x ∈ (applyPasses v ps ⟨.ofPlain (escape source), .zero⟩).stream.segments,
      ∃ u, u ≠ [] ∧ x.text = escape u) ∧
    ∃ pieces : List Text, (∀ p ∈ pieces, FlatPiece p) ∧
      (highlight v source).markup = pieces.flatten ∧
      (∀ front back, (highlight v source).markup = front ++ '<' :: back →
        ∃ done, done <+: pieces ∧ ∃ cls ∈ spanClasses,
          (front = done.flatten ∧ openTag cls <+: '<' :: back) ∨
            ∃ u, front = done.flatten ++ openTag cls ++ escape u ∧ closeTag <+: '<' :: back) ∧
      (highlight v source).markup.count '<' = (highlight v source).markup.count '>' := by
  constructor
  · intro ps
    exact (isEscaped_applyPasses (isEscaped_start source)).exists_ne_nil
  · obtain ⟨pieces, hflat, hmarkup⟩ := exists_flat_markup v source
    rw [hmarkup]
    exact ⟨pieces, hflat, rfl, fun _ _ => exists_edge_of_lt hflat, count_flatten_eq hflat⟩

end CodeSnippets

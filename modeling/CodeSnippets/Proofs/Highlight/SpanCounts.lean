/-
  Spans in markup, counted.

  A span begins with a `<`, and escaped text has none, so no source can write what looks
  like the tag of a span.  The tags of a class that stand in the markup are therefore
  the segments of one kind, and these the passes have counted.

  * `Text.occurrencesOf`: at how many places a text stands in another one;
  * `occurrencesOf_openTag_render`: the tags of a class in the markup of a stream are its
    segments of the kind that has this class;
  * `statistics_agree_with_markup`: the statistics of a source are the size of the source
    and the numbers of spans in its markup, and blank sources have neither.
-/
import CodeSnippets.Proofs.Highlight.Tallies
import CodeSnippets.Proofs.Highlight.VisibleText

namespace CodeSnippets

/-! ## Places of a text in another one -/

namespace Text

/-- The number of places at which `w` stands in a text. -/
def occurrencesOf (w t : Text) : Nat := t.tails.countP fun r => w.isPrefixOf r

theorem occurrencesOf_cons_of_prefix {w : Text} {c : Char} {t : Text} (h : w <+: c :: t) :
    occurrencesOf w (c :: t) = occurrencesOf w t + 1 := by
  have hprefix : w.isPrefixOf (c :: t) = true := List.isPrefixOf_iff_prefix.2 h
  simp [occurrencesOf, hprefix]

theorem occurrencesOf_cons_of_not_prefix {w : Text} {c : Char} {t : Text} (h : ¬ w <+: c :: t) :
    occurrencesOf w (c :: t) = occurrencesOf w t := by
  have hprefix : ¬ w.isPrefixOf (c :: t) = true := fun hw => h (List.isPrefixOf_iff_prefix.1 hw)
  simp [occurrencesOf, hprefix]

/-- A text does not begin within another one that lacks its first character. -/
theorem occurrencesOf_append_of_not_mem {d : Char} {w u : Text} (h : d ∉ u) (t : Text) :
    occurrencesOf (d :: w) (u ++ t) = occurrencesOf (d :: w) t := by
  induction u with
  | nil => rfl
  | cons c u ih =>
    obtain ⟨hc, hu⟩ := not_or.1 (fun hd => h (List.mem_cons.2 hd))
    have hno : ¬ d :: w <+: c :: (u ++ t) := fun hw => hc (List.cons_prefix_cons.1 hw).1
    rw [List.cons_append, occurrencesOf_cons_of_not_prefix hno, ih hu]

end Text

open Text (occurrencesOf)

/-! ## Tags -/

theorem openTag_append_eq (cls t : Text) :
    openTag cls ++ t = openTagFront ++ (cls ++ '"' :: '>' :: t) := by
  have hend : "\">".toList ++ t = '"' :: '>' :: t := rfl
  rw [openTag, List.append_assoc, List.append_assoc, hend]

theorem exists_openTag_eq (cls : Text) : ∃ w, openTag cls = '<' :: w := ⟨_, rfl⟩

/-- A class is read back up to the quote behind it. -/
theorem takeWhile_spanClass {cls : Text} (h : cls ∈ spanClasses) (t : Text) :
    (cls ++ '"' :: t).takeWhile (· != '"') = cls := by
  have hquote : ∀ cls ∈ spanClasses, '"' ∉ cls := by decide
  have hcls : ∀ c ∈ cls, (c != '"') = true := fun c hc =>
    bne_iff_ne.2 fun heq => hquote cls h (heq ▸ hc)
  exact takeWhile_append_eq_left hcls (by simp)

/-- The tag of a class begins with the tag of no other class. -/
theorem openTag_prefix_openTag {cls cls' : Text} (h : cls ∈ spanClasses) (h' : cls' ∈ spanClasses)
    {t : Text} : openTag cls <+: openTag cls' ++ t ↔ cls = cls' := by
  constructor
  · rintro ⟨r, hr⟩
    rw [openTag_append_eq, openTag_append_eq] at hr
    have hclass : cls ++ '"' :: '>' :: r = cls' ++ '"' :: '>' :: t := List.append_cancel_left hr
    rw [← takeWhile_spanClass h ('>' :: r), hclass, takeWhile_spanClass h']
  · rintro rfl
    exact List.prefix_append _ _

theorem not_openTag_prefix_closeTag (cls t : Text) : ¬ openTag cls <+: closeTag ++ t := by
  rintro ⟨r, hr⟩
  have hsecond : 's' = '/' := congrArg (fun w => w.tail.head?.getD 's') hr
  exact absurd hsecond (by decide)

/-- Behind its first character a tag holds the beginning of no tag. -/
theorem occurrencesOf_tag_append {tag : Text} (h : IsTag tag) (cls t : Text) :
    occurrencesOf (openTag cls) (tag ++ t) =
      occurrencesOf (openTag cls) t + if openTag cls <+: tag ++ t then 1 else 0 := by
  obtain ⟨body, rfl, hlt, -⟩ := h
  obtain ⟨w, hw⟩ := exists_openTag_eq cls
  have hbody : '<' ∉ body ++ ['>'] := by simpa using hlt
  have hrest := Text.occurrencesOf_append_of_not_mem (w := w) hbody t
  rw [← hw] at hrest
  rw [List.cons_append]
  split
  · next hp => rw [Text.occurrencesOf_cons_of_prefix hp, hrest]
  · next hp => rw [Text.occurrencesOf_cons_of_not_prefix hp, hrest, Nat.add_zero]

theorem occurrencesOf_openTag_append {cls cls' : Text} (h : cls ∈ spanClasses)
    (h' : cls' ∈ spanClasses) (t : Text) :
    occurrencesOf (openTag cls) (openTag cls' ++ t) =
      occurrencesOf (openTag cls) t + if cls = cls' then 1 else 0 := by
  rw [occurrencesOf_tag_append (isTag_openTag h')]
  simp only [openTag_prefix_openTag h h']

theorem occurrencesOf_closeTag_append (cls t : Text) :
    occurrencesOf (openTag cls) (closeTag ++ t) = occurrencesOf (openTag cls) t := by
  rw [occurrencesOf_tag_append isTag_closeTag, if_neg (not_openTag_prefix_closeTag cls t),
    Nat.add_zero]

theorem occurrencesOf_escaped_append {u : Text} (hu : IsEscaped u) (cls t : Text) :
    occurrencesOf (openTag cls) (u ++ t) = occurrencesOf (openTag cls) t := by
  obtain ⟨u, rfl⟩ := hu
  exact Text.occurrencesOf_append_of_not_mem (fun h => (ne_of_mem_escape h).1 rfl) t

/-! ## Streams -/

/-- Kinds of different segments have different classes. -/
theorem cssClass?_injective {j k : Kind} (h : j.cssClass? = k.cssClass?) : j = k := by
  cases j <;> cases k <;> first | rfl | exact absurd h (by decide)

theorem render_of_cssClass? {s : Segment} {cls : Text} (h : s.kind.cssClass? = some cls) :
    s.render = openTag cls ++ s.text ++ closeTag := by
  rw [Segment.render, h]
  rfl

theorem occurrencesOf_render_append {k : Kind} {cls : Text} (hk : k.cssClass? = some cls)
    {s : Segment} (hs : IsEscaped s.text) (t : Text) :
    occurrencesOf (openTag cls) (s.render ++ t) =
      occurrencesOf (openTag cls) t + if s.kind = k then 1 else 0 := by
  cases hs' : s.kind.cssClass? with
  | none =>
    have hne : s.kind ≠ k := by
      rintro rfl
      rw [hk] at hs'
      cases hs'
    have hrender : s.render = s.text := by rw [Segment.render, hs']
    rw [hrender, occurrencesOf_escaped_append hs, if_neg hne, Nat.add_zero]
  | some cls' =>
    have hiff : cls = cls' ↔ s.kind = k := by
      constructor
      · rintro rfl
        exact cssClass?_injective (hs'.trans hk.symm)
      · rintro rfl
        exact Option.some.inj (hk.symm.trans hs')
    rw [render_of_cssClass? hs', List.append_assoc, List.append_assoc,
      occurrencesOf_openTag_append (mem_spanClasses hk) (mem_spanClasses hs'),
      occurrencesOf_escaped_append hs, occurrencesOf_closeTag_append]
    simp only [hiff]

/-- **The tags of a class are the segments of its kind.** -/
theorem occurrencesOf_openTag_render {k : Kind} {cls : Text} (hk : k.cssClass? = some cls)
    {s : SegmentStream} (hs : s.IsEscaped) :
    occurrencesOf (openTag cls) s.render = s.count k := by
  rw [SegmentStream.render, SegmentStream.count]
  unfold SegmentStream.IsEscaped at hs
  generalize s.segments = l at hs
  induction l with
  | nil => rfl
  | cons x l ih =>
    obtain ⟨hx, hl⟩ := List.forall_mem_cons.1 hs
    rw [List.flatMap_cons, occurrencesOf_render_append hk hx, ih hl, List.countP_cons]
    simp only [beq_iff_eq]

/-! ## Sources -/

theorem isBlank_eq_true_iff {source : Text} :
    isBlank source = true ↔ ∀ c ∈ source, isWhitespace c = true ∨ c = '\uFEFF' := by
  simp [isBlank, isBlankChar]

theorem isEscaped_runPasses (v : Vocabulary) (source : Text) :
    (runPasses v (escape source)).stream.IsEscaped :=
  isEscaped_applyPasses (isEscaped_start source)

/-- What is no white space in a source is in its markup, so there is some. -/
theorem render_runPasses_ne_nil {source : Text} (h : withoutSpace source ≠ []) (v : Vocabulary) :
    (runPasses v (escape source)).stream.render ≠ [] := by
  intro hnil
  have htext : (runPasses v (escape source)).stream.text = [] := by
    rw [← dropTags_render (isEscaped_runPasses v source), hnil]
    rfl
  have hkept : withoutSpace (runPasses v (escape source)).stream.text =
      withoutSpace (escape source) := by
    rw [runPasses, withoutSpace_text_applyPasses, text_ofPlain]
  rw [htext, withoutSpace_escape] at hkept
  exact h (escape_eq_nil.1 hkept.symm)

theorem withoutSpace_ne_nil {source : Text} (h : isBlank source = false) :
    withoutSpace source ≠ [] := by
  intro hnil
  rw [← Bool.not_eq_true, isBlank_eq_true_iff] at h
  refine h fun c hc => .inl ?_
  by_contra hspace
  have hmem : c ∈ withoutSpace source := List.mem_filter.2 ⟨hc, by simpa using hspace⟩
  rw [hnil] at hmem
  cases hmem

/-- **The statistics of a source agree with its markup.**  A source of white space and
    byte order marks has empty markup and nothing is counted.  Any other source has
    markup; its lines and characters are counted as they stand in it, and its keywords
    and function names are the spans of these classes in the markup. -/
theorem statistics_agree_with_markup (v : Vocabulary) (source : Text) :
    ((∀ c ∈ source, isWhitespace c = true ∨ c = '\uFEFF') →
      highlight v source = ⟨[], ⟨0, 0, 0, 0⟩⟩) ∧
    ((¬ ∀ c ∈ source, isWhitespace c = true ∨ c = '\uFEFF') →
      (highlight v source).markup ≠ [] ∧
      (highlight v source).statistics =
        { lines := source.count '\n' + 1
          chars := source.length
          keywords :=
            occurrencesOf "<span class=\"keyword\">".toList (highlight v source).markup
          functions :=
            occurrencesOf "<span class=\"function\">".toList (highlight v source).markup }) := by
  rw [← isBlank_eq_true_iff, Bool.not_eq_true]
  constructor
  · intro hblank
    rw [highlight, if_pos hblank]
    rfl
  · intro hblank
    have hescaped := isEscaped_runPasses v source
    have hkeyword : Kind.keyword.cssClass? = some "keyword".toList := rfl
    have hfunction : Kind.functionName.cssClass? = some "function".toList := rfl
    have hkeywords : occurrencesOf "<span class=\"keyword\">".toList
        (runPasses v (escape source)).stream.render =
          (runPasses v (escape source)).stream.count .keyword :=
      occurrencesOf_openTag_render hkeyword hescaped
    have hfunctions : occurrencesOf "<span class=\"function\">".toList
        (runPasses v (escape source)).stream.render =
          (runPasses v (escape source)).stream.count .functionName :=
      occurrencesOf_openTag_render hfunction hescaped
    rw [highlight, if_neg (by simp [hblank])]
    refine ⟨render_runPasses_ne_nil (withoutSpace_ne_nil hblank) v, ?_⟩
    show Statistics.collect source (runPasses v (escape source)).tally = _
    rw [hkeywords, hfunctions, tally_runPasses]
    rfl

/-- A byte order mark alone, and a source that spells the tag of a span itself. -/
theorem statistics_agree_with_markup_of_tag :
    (∀ c ∈ ['\uFEFF', '\n'], isWhitespace c = true ∨ c = '\uFEFF') ∧
    highlight .builtin ['\uFEFF', '\n'] = ⟨[], ⟨0, 0, 0, 0⟩⟩ ∧
    (¬ ∀ c ∈ "<span class=\"keyword\">\nif".toList, isWhitespace c = true ∨ c = '\uFEFF') ∧
    (highlight .builtin "<span class=\"keyword\">\nif".toList).statistics =
      { lines := 2
        chars := 25
        keywords := occurrencesOf "<span class=\"keyword\">".toList
          (highlight .builtin "<span class=\"keyword\">\nif".toList).markup
        functions := occurrencesOf "<span class=\"function\">".toList
          (highlight .builtin "<span class=\"keyword\">\nif".toList).markup } := by
  have hblank : ∀ c ∈ ['\uFEFF', '\n'], isWhitespace c = true ∨ c = '\uFEFF' :=
    isBlank_eq_true_iff.1 (by decide)
  have htag : ¬ ∀ c ∈ "<span class=\"keyword\">\nif".toList,
      isWhitespace c = true ∨ c = '\uFEFF' := fun h =>
    absurd (isBlank_eq_true_iff.2 h) (by decide)
  exact ⟨hblank, (statistics_agree_with_markup .builtin _).1 hblank, htag,
    ((statistics_agree_with_markup .builtin _).2 htag).2⟩

end CodeSnippets

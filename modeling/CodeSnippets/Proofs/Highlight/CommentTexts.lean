/-
  What is written in a comment to the end of a line.

  A comment takes all that stands behind its `//` up to the line break, so the text of
  the comment cannot move its edges, and no later pass looks across a classified
  segment.

  * `Rule.segments_run_around`: a rule works in front of a classified segment and behind
    it as if these were two streams;
  * `CommentBehind`, `exists_commentBehind`: the segment of a comment, and what stands
    around it, whatever the comment says;
  * `comment_text_touches_nothing_else`: two sources that differ in the text of one comment have
    the same segments but for this text, and the same counts.
-/
import CodeSnippets.Highlight.Highlighter
import CodeSnippets.Proofs.Highlight.EscapedSegments
import CodeSnippets.Proofs.Highlight.Tallies

namespace CodeSnippets

/-! ## Classified segments -/

theorem SegmentStream.segments_ofSegments_around (k : List Segment) {x : Segment}
    (hx : x.isPlain = false) (ht : x.text ≠ []) (l : List Segment) :
    (ofSegments (k ++ x :: l)).segments =
      (ofSegments k).segments ++ x :: (ofSegments l).segments := by
  rw [segments_ofSegments, List.foldr_append, List.foldr_cons, Segment.attach_of_classified hx ht,
    Segment.foldr_attach_append_cons k hx]
  rfl

/-- **A rule does not look across a classified segment.** -/
theorem Rule.segments_run_around (r : Rule) {g : Progress} {k l : List Segment} {x : Segment}
    (hx : x.isPlain = false) (hg : g.stream.segments = k ++ x :: l) :
    (r.run g).stream.segments = k.flatMap r.segmentsOf ++ x :: l.flatMap r.segmentsOf := by
  have ht : x.text ≠ [] := g.stream.normal.text_ne_nil x (by rw [hg]; simp)
  rw [r.segments_run, hg, List.flatMap_append, List.flatMap_cons, r.segmentsOf_of_classified hx ht]
  rfl

/-- Two streams that differ in one classified segment at most. -/
def DifferAt (x x' : Segment) (g g' : Progress) : Prop :=
  ∃ k l, g.stream.segments = k ++ x :: l ∧ g'.stream.segments = k ++ x' :: l

theorem DifferAt.applyPasses {x x' : Segment} (hx : x.isPlain = false) (hx' : x'.isPlain = false)
    (v : Vocabulary) (ps : List Pass) {g g' : Progress} (h : DifferAt x x' g g') :
    DifferAt x x' (applyPasses v ps g) (applyPasses v ps g') := by
  refine applyPasses_induction₂ (R := DifferAt x x') ?_ h
  rintro p - r - g g' ⟨k, l, hg, hg'⟩
  exact ⟨_, _, r.segments_run_around hx hg, r.segments_run_around hx' hg'⟩

/-! ## Comments to the end of a line -/

theorem looksAhead_lineComment : lineComment.LooksAhead := fun _ _ _ _ => rfl

/-- A comment begins at a `/` in front of another one and takes the rest of its line. -/
theorem lineComment_eq (before : Option Char) (c : Char) (rest : Text) :
    lineComment before c rest =
      if c = '/' ∧ rest.head? = some '/' then
        some (rest.takeWhile fun d => !isLineBreak d).length
      else none := by
  unfold lineComment
  split
  · rename_i body
    have hslash : isLineBreak '/' = false := by decide
    simp [hslash, Nat.add_comm]
  · rename_i hne
    rw [if_neg]
    rintro ⟨rfl, hrest⟩
    obtain ⟨body, rfl⟩ := List.head?_eq_some_iff.1 hrest
    exact hne body rfl rfl

/-- A text that ends a line: it begins with a line break, or there is none of it. -/
def EndsLine (t : Text) : Prop := ∀ c ∈ t.head?, isLineBreak c = true

theorem cutsFrom_lineComment {line t : Text} (hslash : line.head? = some '/')
    (hline : ∀ c ∈ line, isLineBreak c = false) (ht : EndsLine t) (before : Option Char) :
    lineComment.cutsFrom before ('/' :: (line ++ t)) [] =
      .matched ('/' :: line) :: lineComment.cutsFrom none t [] := by
  have hhead : (line ++ t).head? = some '/' := by
    rw [List.head?_append, hslash]
    rfl
  have htake : (line ++ t).takeWhile (fun d => !isLineBreak d) = line :=
    takeWhile_append_eq_left (fun c hc => by simp [hline c hc]) fun c hc => by simp [ht c hc]
  have hm : lineComment before '/' (line ++ t) = some line.length := by
    rw [lineComment_eq, if_pos ⟨rfl, hhead⟩, htake]
  rw [Matcher.cutsFrom_cons_of_some hm, List.take_left, List.drop_left,
    looksAhead_lineComment.cutsFrom_eq _ none]

/-- A comment whose `//` stands behind `p` is in a segment that begins with `front`, and
    `done` is in front of this segment, whatever the comment says. -/
def CommentBehind (p : Text) (done : List Segment) (front : Text) : Prop :=
  ∀ w t before, (∀ c ∈ w, isLineBreak c = false) → EndsLine t →
    (lineComment.cutsFrom before (p ++ '/' :: '/' :: (w ++ t)) []).flatMap
        (Rule.wrap lineComment .comment).ofCut =
      done ++ ⟨.comment, front ++ '/' :: '/' :: w⟩ :: (Rule.wrap lineComment .comment).pieces t

section

variable {line u front : Text} {done : List Segment}

theorem isLineBreak_slash : isLineBreak '/' = false := by decide

theorem CommentBehind.nil : CommentBehind [] [] [] := by
  intro w t before hw ht
  have hline : ∀ c ∈ '/' :: w, isLineBreak c = false :=
    List.forall_mem_cons.2 ⟨isLineBreak_slash, hw⟩
  have hcut := cutsFrom_lineComment rfl hline ht before
  rw [List.nil_append, ← List.cons_append, hcut]
  rfl

theorem CommentBehind.kept {c : Char} {q : Text}
    (hc : ¬ (c = '/' ∧ (q ++ ['/']).head? = some '/')) (h : CommentBehind q done front) :
    CommentBehind (c :: q) (.plain [c] :: done) front := by
  intro w t before hw ht
  have hhead : (q ++ '/' :: '/' :: (w ++ t)).head? = (q ++ ['/']).head? := by
    cases q <;> rfl
  have hm : lineComment before c (q ++ '/' :: '/' :: (w ++ t)) = none := by
    rw [lineComment_eq, hhead, if_neg hc]
  rw [List.cons_append, Matcher.cutsFrom_cons_of_none hm, List.flatMap_cons, h w t (some c) hw ht]
  rfl

/-- A comment that begins earlier in the line takes the `//` along. -/
theorem CommentBehind.earlier (hslash : (line ++ ['/']).head? = some '/')
    (hline : ∀ c ∈ line, isLineBreak c = false) :
    CommentBehind ('/' :: line) [] ('/' :: line) := by
  intro w t before hw ht
  have hhead : (line ++ '/' :: '/' :: w).head? = some '/' := by
    simpa [List.head?_append] using hslash
  have hall : ∀ c ∈ line ++ '/' :: '/' :: w, isLineBreak c = false := by
    intro c hc
    simp only [List.mem_append, List.mem_cons] at hc
    rcases hc with hc | rfl | rfl | hc
    · exact hline c hc
    · exact isLineBreak_slash
    · exact isLineBreak_slash
    · exact hw c hc
  have hcut := cutsFrom_lineComment hhead hall ht before
  simp only [List.cons_append, List.append_assoc] at hcut ⊢
  rw [hcut]
  rfl

/-- A comment in an earlier line ends with its line. -/
theorem CommentBehind.above (hslash : line.head? = some '/')
    (hline : ∀ c ∈ line, isLineBreak c = false) (hu : u ≠ []) (hends : EndsLine u)
    (h : CommentBehind u done front) :
    CommentBehind ('/' :: (line ++ u)) (⟨.comment, '/' :: line⟩ :: done) front := by
  intro w t before hw ht
  have hbreak : EndsLine (u ++ '/' :: '/' :: (w ++ t)) := by
    obtain ⟨d, u, rfl⟩ := List.exists_cons_of_ne_nil hu
    exact fun c hc => hends c hc
  have hcut := cutsFrom_lineComment hslash hline hbreak before
  simp only [List.cons_append, List.append_assoc] at hcut ⊢
  rw [hcut, List.flatMap_cons, h w t none hw ht]
  rfl

end

/-- Every text is the rest of a line with a text behind it that ends the line. -/
theorem exists_line (q : Text) :
    ∃ line u, q = line ++ u ∧ (∀ c ∈ line, isLineBreak c = false) ∧ EndsLine u := by
  refine ⟨q.takeWhile fun d => !isLineBreak d, q.dropWhile fun d => !isLineBreak d,
    List.takeWhile_append_dropWhile.symm, fun c hc => ?_, fun c hc => ?_⟩
  · simpa using List.mem_takeWhile_imp hc
  · simpa using head?_dropWhile_neg hc

/-- A slash in front of a line break belongs to the line. -/
theorem head?_of_endsLine {line u : Text} (hslash : (line ++ u ++ ['/']).head? = some '/')
    (hends : EndsLine u) (hu : u ≠ []) : line.head? = some '/' := by
  obtain ⟨d, u, rfl⟩ := List.exists_cons_of_ne_nil hu
  cases line with
  | nil =>
    have hd : isLineBreak d = true := hends d rfl
    obtain rfl : d = '/' := by simpa using hslash
    rw [isLineBreak_slash] at hd
    cases hd
  | cons e line => simpa using hslash

/-- **Every comment to the end of a line is in a segment**, and what is in front of the
    `//` decides alone where it begins. -/
theorem exists_commentBehind (p : Text) : ∃ done front, CommentBehind p done front := by
  -- by the length, since a comment takes a whole line away
  induction hn : p.length using Nat.strongRecOn generalizing p with
  | _ n ih =>
    subst hn
    cases p with
    | nil => exact ⟨[], [], .nil⟩
    | cons c q =>
      by_cases hstart : c = '/' ∧ (q ++ ['/']).head? = some '/'
      · obtain ⟨rfl, hslash⟩ := hstart
        obtain ⟨line, u, rfl, hline, hends⟩ := exists_line q
        by_cases hu : u = []
        · subst hu
          rw [List.append_nil] at hslash ⊢
          exact ⟨_, _, .earlier hslash hline⟩
        · have hlt : u.length < ('/' :: (line ++ u)).length := by
            simp only [List.length_cons, List.length_append]
            omega
          obtain ⟨done, front, h⟩ := ih _ hlt u rfl
          exact ⟨_, _, .above (head?_of_endsLine hslash hends hu) hline hu hends h⟩
      · obtain ⟨done, front, h⟩ := ih q.length (by simp) q rfl
        exact ⟨_, _, .kept hstart h⟩

/-! ## Sources that differ in a comment -/

/-- A source with a comment to the end of a line in it. -/
def withComment (pre w post : Text) : Text := pre ++ '/' :: '/' :: (w ++ '\n' :: post)

theorem isLineBreak_of_mem_escape {w : Text} (hw : ∀ c ∈ w, isLineBreak c = false) :
    ∀ c ∈ escape w, isLineBreak c = false := by
  refine List.forall_mem_flatMap.2 fun d hd => ?_
  unfold escapeChar
  split_ifs
  · simp [isLineBreak]
  · simp [isLineBreak]
  · simp [isLineBreak]
  · exact List.forall_mem_singleton.2 (hw d hd)

theorem escape_withComment (pre w post : Text) :
    escape (withComment pre w post) =
      escape pre ++ '/' :: '/' :: (escape w ++ '\n' :: escape post) := by
  have hslash : escapeChar '/' = ['/'] := rfl
  have hbreak : escapeChar '\n' = ['\n'] := rfl
  simp [withComment, hslash, hbreak]

/-- The first pass takes the comments to the end of a line out. -/
theorem runPasses_eq_applyPasses_tail (v : Vocabulary) (e : Text) :
    runPasses v e = applyPasses v Pass.order.tail
      ⟨.ofSegments ((Rule.wrap lineComment .comment).pieces e),
        ((Rule.wrap lineComment .comment).run ⟨.ofPlain e, .zero⟩).tally⟩ := by
  have hsplit := applyPasses_append v [.lineComments] Pass.order.tail ⟨.ofPlain e, .zero⟩
  rw [← SegmentStream.replacePlain_ofPlain (by simp [Rule.pieces, Matcher.cuts])]
  exact hsplit

/-- The first pass finds the comment, and the other passes do not look into it. -/
theorem exists_differAt (v : Vocabulary) (pre post : Text) :
    ∃ front, ∀ w w', (∀ c ∈ w, isLineBreak c = false) → (∀ c ∈ w', isLineBreak c = false) →
      DifferAt ⟨.comment, front ++ '/' :: '/' :: escape w⟩
        ⟨.comment, front ++ '/' :: '/' :: escape w'⟩
        (runPasses v (escape (withComment pre w post)))
        (runPasses v (escape (withComment pre w' post))) := by
  obtain ⟨done, front, h⟩ := exists_commentBehind (escape pre)
  have hfirst : ∀ w, (∀ c ∈ w, isLineBreak c = false) →
      (SegmentStream.ofSegments ((Rule.wrap lineComment .comment).pieces
        (escape (withComment pre w post)))).segments =
      (SegmentStream.ofSegments done).segments ++ ⟨.comment, front ++ '/' :: '/' :: escape w⟩ ::
        (SegmentStream.ofSegments
          ((Rule.wrap lineComment .comment).pieces ('\n' :: escape post))).segments := by
    intro w hw
    have hends : EndsLine ('\n' :: escape post) := by
      intro c hc
      obtain rfl : '\n' = c := by simpa using hc
      rfl
    have hpieces := h (escape w) ('\n' :: escape post) none (isLineBreak_of_mem_escape hw) hends
    rw [escape_withComment, ← SegmentStream.segments_ofSegments_around done rfl (by simp),
      ← hpieces]
    rfl
  refine ⟨front, fun w w' hw hw' => ?_⟩
  rw [runPasses_eq_applyPasses_tail, runPasses_eq_applyPasses_tail]
  exact DifferAt.applyPasses rfl rfl v _ ⟨_, _, hfirst w hw, hfirst w' hw'⟩

/-! ## What is counted -/

theorem DifferAt.tally_eq {v : Vocabulary} {a b : Text} {t t' : Text} {k : Kind}
    (h : DifferAt ⟨k, t⟩ ⟨k, t'⟩ (runPasses v a) (runPasses v b)) :
    (runPasses v a).tally = (runPasses v b).tally := by
  obtain ⟨front, after, ha, hb⟩ := h
  rw [tally_runPasses, tally_runPasses, Tally.ofStream, Tally.ofStream]
  simp only [SegmentStream.count, ha, hb, List.countP_append, List.countP_cons]

theorem isBlank_withComment (pre w post : Text) : isBlank (withComment pre w post) = false := by
  have hslash : isBlankChar '/' = false := by decide
  simp [isBlank, withComment, hslash]

theorem statistics_withComment (v : Vocabulary) (pre w post : Text) :
    (highlight v (withComment pre w post)).statistics =
      .collect (withComment pre w post) (runPasses v (escape (withComment pre w post))).tally := by
  rw [highlight, isBlank_withComment]
  rfl

theorem count_newline_withComment (pre post : Text) {w : Text} (hw : '\n' ∉ w) :
    (withComment pre w post).count '\n' = pre.count '\n' + (post.count '\n' + 1) := by
  simp [withComment, List.count_eq_zero_of_not_mem hw]

theorem isLineBreak_of_not_mem {w : Text} (hr : '\r' ∉ w) (hn : '\n' ∉ w) :
    ∀ c ∈ w, isLineBreak c = false := by
  intro c hc
  have hcr : c ≠ '\r' := fun h => hr (h ▸ hc)
  have hcn : c ≠ '\n' := fun h => hn (h ▸ hc)
  simp [isLineBreak, hcr, hcn]

/-- **What is written in a comment touches nothing else.**  Two sources that differ in what
    is behind a `//` up to the line feed have the same segments but for the text of one
    comment, and as many lines, keywords and functions. -/
theorem comment_text_touches_nothing_else (v : Vocabulary) (pre post w w' : Text)
    (hr : '\r' ∉ w) (hn : '\n' ∉ w) (hr' : '\r' ∉ w') (hn' : '\n' ∉ w') :
    (∃ before front after,
      (runPasses v (escape (withComment pre w post))).stream.segments =
        before ++ ⟨.comment, front ++ '/' :: '/' :: escape w⟩ :: after ∧
      (runPasses v (escape (withComment pre w' post))).stream.segments =
        before ++ ⟨.comment, front ++ '/' :: '/' :: escape w'⟩ :: after) ∧
    (highlight v (withComment pre w post)).statistics.lines =
      (highlight v (withComment pre w' post)).statistics.lines ∧
    (highlight v (withComment pre w post)).statistics.keywords =
      (highlight v (withComment pre w' post)).statistics.keywords ∧
    (highlight v (withComment pre w post)).statistics.functions =
      (highlight v (withComment pre w' post)).statistics.functions := by
  obtain ⟨front, hfront⟩ := exists_differAt v pre post
  have hdiffer := hfront w w' (isLineBreak_of_not_mem hr hn) (isLineBreak_of_not_mem hr' hn')
  have htally := hdiffer.tally_eq
  obtain ⟨before, after, hsegments, hsegments'⟩ := hdiffer
  rw [statistics_withComment, statistics_withComment]
  refine ⟨⟨before, front, after, hsegments, hsegments'⟩, ?_, ?_, ?_⟩
  · simp only [Statistics.collect, InputSize.ofText, count_newline_withComment pre post hn,
      count_newline_withComment pre post hn']
  · simp only [Statistics.collect, htally]
  · simp only [Statistics.collect, htally]

/-- A vocabulary with a keyword and two operators that can be written in a comment. -/
def varAndTimes : Vocabulary where
  keywords := [⟨['v', 'a', 'r'], by decide⟩]
  globals := []
  operators := [⟨['*'], by decide⟩, ⟨['/'], by decide⟩]
  longest_first := by simp

/-- Quotes, a keyword, a call and the end of a block comment. -/
def quotedCall : Text := "\" var f(1) */ <".toList

/-- The quote and the slash in front of the `//` stay open, and what is behind it is not
    counted. -/
theorem comment_text_touches_nothing_else_of_open_string :
    ('\r' ∉ quotedCall ∧ '\n' ∉ quotedCall) ∧
    (∃ before front after,
      (runPasses varAndTimes
          (escape (withComment "var \"/".toList quotedCall "g(2)".toList))).stream.segments =
        before ++ ⟨.comment, front ++ '/' :: '/' :: escape quotedCall⟩ :: after ∧
      (runPasses varAndTimes
          (escape (withComment "var \"/".toList [] "g(2)".toList))).stream.segments =
        before ++ ⟨.comment, front ++ ['/', '/']⟩ :: after) ∧
    (highlight varAndTimes
        (withComment "var \"/".toList quotedCall "g(2)".toList)).statistics.lines = 2 ∧
    (highlight varAndTimes
        (withComment "var \"/".toList quotedCall "g(2)".toList)).statistics.keywords = 1 ∧
    (highlight varAndTimes
        (withComment "var \"/".toList quotedCall "g(2)".toList)).statistics.functions = 1 := by
  have hr : '\r' ∉ quotedCall := by decide
  have hn : '\n' ∉ quotedCall := by decide
  obtain ⟨hsegments, hlines, hkeywords, hfunctions⟩ :=
    comment_text_touches_nothing_else varAndTimes "var \"/".toList "g(2)".toList
      quotedCall [] hr hn (by simp) (by simp)
  refine ⟨⟨hr, hn⟩, hsegments, hlines.trans ?_, hkeywords.trans ?_, hfunctions.trans ?_⟩
  · decide +kernel
  · decide +kernel
  · decide +kernel

end CodeSnippets

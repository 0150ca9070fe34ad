/-
  Which comments a text holds.

  Both kinds of comment are found by looking for the first occurrence of a text of two
  characters: in every line for `//`, and in the whole text for `/*` and then, behind it,
  for `*/`.

  * `firstOccurrence`: what is in front of the first occurrence of a text and what is behind;
  * `scanLineComments`: in each stretch without line breaks, the part from the first `//` on;
  * `scanBlockComments`: from each `/*` through the next `*/` that does not share its `*`;
  * `comments_found_by_scan`: on a plain text, the passes for comments are these scans.
-/
import CodeSnippets.Proofs.Highlight.CommentTexts

namespace CodeSnippets

open Segment (Alike)

/-! ## First occurrences -/

/-- What is in front of the first occurrence of `u` in a text and what is behind it; none if
    `u`, which is not empty, does not occur. -/
def firstOccurrence (u : Text) : Text → Option (Text × Text)
  | [] => none
  | c :: rest =>
    if u.isPrefixOf (c :: rest) then some ([], (c :: rest).drop u.length)
    else (firstOccurrence u rest).map fun (front, behind) => (c :: front, behind)

section

variable {u t front behind : Text}

theorem firstOccurrence_eq_none_iff (hu : u ≠ []) : firstOccurrence u t = none ↔ ¬ u <:+: t := by
  fun_induction firstOccurrence u t with
  | case1 => simpa [List.infix_nil] using hu
  | case2 c rest hp =>
    rw [List.isPrefixOf_iff_prefix] at hp
    simp [hp.isInfix]
  | case3 c rest hp ih =>
    rw [List.isPrefixOf_iff_prefix] at hp
    rw [Option.map_eq_none_iff, ih, List.infix_cons_iff, not_or]
    exact (and_iff_right hp).symm

/-- Behind the first occurrence there may be more of them, in front of it none begins. -/
theorem firstOccurrence_eq_some (h : firstOccurrence u t = some (front, behind)) :
    t = front ++ (u ++ behind) ∧
      ∀ c q, (c :: q) <:+ front → ¬ u <+: c :: (q ++ (u ++ behind)) := by
  fun_induction firstOccurrence u t generalizing front with
  | case1 => cases h
  | case2 c rest hp =>
    obtain ⟨rfl, rfl⟩ := Prod.mk.inj (Option.some.inj h)
    obtain ⟨r, hr⟩ := List.isPrefixOf_iff_prefix.1 hp
    refine ⟨?_, fun d q hs => ?_⟩
    · rw [← hr, List.drop_left, List.nil_append]
    · cases List.suffix_nil.1 hs
  | case3 c rest hp ih =>
    obtain ⟨⟨front', behind'⟩, hrest, h⟩ := Option.map_eq_some_iff.1 h
    obtain ⟨rfl, rfl⟩ := Prod.mk.inj h
    obtain ⟨rfl, hnone⟩ := ih hrest
    refine ⟨rfl, fun d q hs => ?_⟩
    rcases List.suffix_cons_iff.1 hs with heq | hs
    · obtain ⟨rfl, rfl⟩ := List.cons.inj heq
      rwa [List.isPrefixOf_iff_prefix] at hp
    · exact hnone d q hs

end

/-! ## Comments to the end of a line -/

/-- The rule for comments to the end of a line. -/
def Rule.lineComments : Rule := .wrap lineComment .comment

/-- The maximal stretches of a text without line breaks, and each line break by itself. -/
def lineStretches (t : Text) : List Text :=
  t.splitBy fun c d => !isLineBreak c && !isLineBreak d

/-- A stretch with the part from its first `//` on as a comment. -/
def commentedLine (line : Text) : List Segment :=
  match firstOccurrence ['/', '/'] line with
  | none => [.plain line]
  | some (front, body) => [.plain front, ⟨.comment, '/' :: '/' :: body⟩]

/-- What a scan for comments to the end of a line makes of a text. -/
def scanLineComments (t : Text) : List Segment := (lineStretches t).flatMap commentedLine

section

variable {line u : Text}

theorem lineStretches_break {c : Char} (hc : isLineBreak c = true) (t : Text) :
    lineStretches (c :: t) = [c] :: lineStretches t :=
  splitBy_class_cons (p := fun c => !isLineBreak c) (by rw [hc, Bool.not_true]) t

theorem lineStretches_append (hne : line ≠ []) (hline : ∀ c ∈ line, isLineBreak c = false)
    (hu : EndsLine u) : lineStretches (line ++ u) = line :: lineStretches u := by
  refine splitBy_class_append (p := fun c => !isLineBreak c) hne (fun c hc => ?_) fun c hc => ?_
  · rw [hline c hc, Bool.not_false]
  · rw [hu c hc, Bool.not_true]

theorem lineComment_eq_none_iff {before : Option Char} {c : Char} {rest : Text} :
    lineComment before c rest = none ↔ ¬ ['/', '/'] <+: c :: rest := by
  have hprefix : ['/', '/'] <+: c :: rest ↔ c = '/' ∧ rest.head? = some '/' := by
    cases rest <;> simp [List.cons_prefix_cons, eq_comm]
  rw [lineComment_eq, hprefix]
  split <;> simp_all

/-- A `//` does not go on in the next line. -/
theorem isPrefix_of_endsLine {q : Text} (hu : EndsLine u) {c : Char}
    (h : ['/', '/'] <+: c :: (q ++ u)) : ['/', '/'] <+: c :: q := by
  cases q with
  | nil =>
    obtain ⟨rfl, hu'⟩ := List.cons_prefix_cons.1 h
    obtain ⟨r, rfl⟩ := hu'
    exact absurd (hu '/' rfl) (by simp [isLineBreak_slash])
  | cons d q =>
    simp only [List.cons_append, List.cons_prefix_cons, List.nil_prefix, and_true] at h ⊢
    exact h

/-- **A line has one comment at most, from its first `//` to its end.** -/
theorem alike_pieces_line (hline : ∀ c ∈ line, isLineBreak c = false) (hu : EndsLine u) :
    Alike (Rule.lineComments.pieces (line ++ u))
      (commentedLine line ++ Rule.lineComments.pieces u) := by
  unfold commentedLine
  split
  · rename_i hnone
    rw [firstOccurrence_eq_none_iff (by simp)] at hnone
    have hkept : ∀ c q, (c :: q) <:+ line → lineComment none c (q ++ u) = none := by
      intro c q hs
      refine lineComment_eq_none_iff.2 fun hp => ?_
      exact hnone ((isPrefix_of_endsLine hu hp).isInfix.trans hs.isInfix)
    exact Rule.alike_pieces_append looksAhead_lineComment hkept
  · rename_i front body hsome
    obtain ⟨rfl, hnone⟩ := firstOccurrence_eq_some hsome
    have hkept : ∀ c q, (c :: q) <:+ front →
        lineComment none c (q ++ (['/', '/'] ++ body ++ u)) = none := by
      intro c q hs
      refine lineComment_eq_none_iff.2 fun hp => hnone c q hs ?_
      rw [← List.append_assoc] at hp
      exact isPrefix_of_endsLine hu hp
    have hbody : ∀ c ∈ '/' :: body, isLineBreak c = false := fun c hc => hline c (by simp_all)
    have hm : lineComment none '/' ('/' :: body ++ u) = some ('/' :: body).length := by
      rw [lineComment_eq, if_pos ⟨rfl, rfl⟩, takeWhile_append_eq_left]
      · exact fun c hc => by simp [hbody c hc]
      · exact fun c hc => by simp [hu c hc]
    have hcomment : Rule.lineComments.pieces (['/', '/'] ++ body ++ u) =
        ⟨.comment, '/' :: '/' :: body⟩ :: Rule.lineComments.pieces u :=
      Rule.pieces_of_match looksAhead_lineComment hm
    rw [List.append_assoc]
    refine (Rule.alike_pieces_append looksAhead_lineComment hkept).trans ?_
    rw [hcomment]
    exact Alike.refl _

end

/-- **The rule for comments to the end of a line is the scan.** -/
theorem alike_scanLineComments (t : Text) :
    Alike (Rule.lineComments.pieces t) (scanLineComments t) := by
  -- by the length, since a stretch is taken away as a whole
  induction hn : t.length using Nat.strongRecOn generalizing t with
  | _ n ih =>
    subst hn
    cases t with
    | nil =>
      rw [Rule.pieces_nil]
      exact Alike.refl _
    | cons c t =>
      cases hc : isLineBreak c with
      | true =>
        have hplain : commentedLine [c] = [.plain [c]] := by
          have hnone : firstOccurrence ['/', '/'] [c] = none := by
            simp [firstOccurrence, List.isPrefixOf]
          rw [commentedLine, hnone]
        have hkept : ∀ d q, (d :: q) <:+ [c] → lineComment none d (q ++ t) = none := by
          intro d q hs
          obtain rfl : d = c := by simpa using hs.subset List.mem_cons_self
          refine lineComment_eq_none_iff.2 fun hp => ?_
          obtain ⟨rfl, -⟩ := List.cons_prefix_cons.1 hp
          cases hc
        rw [scanLineComments, lineStretches_break hc, List.flatMap_cons, hplain]
        exact (Rule.alike_pieces_append looksAhead_lineComment hkept).trans
          ((Alike.refl [_]).append (ih _ (by simp) t rfl))
      | false =>
        obtain ⟨line, u, ht, hline, hu⟩ := exists_line (c :: t)
        have hne : line ≠ [] := by
          rintro rfl
          rw [List.nil_append] at ht
          rw [← ht] at hu
          rw [hu c rfl] at hc
          cases hc
        rw [ht, scanLineComments, lineStretches_append hne hline hu, List.flatMap_cons]
        refine (alike_pieces_line hline hu).trans ((Alike.refl _).append (ih _ ?_ u rfl))
        have := List.length_pos_iff.2 hne
        rw [ht, List.length_append]
        omega

/-! ## Comments over several lines -/

/-- The rule for comments between `/*` and `*/`. -/
def Rule.blockComments : Rule := .wrap blockComment .comment

/-- What a scan for comments between `/*` and `*/` makes of a text.  Behind a comment the scan
    goes on, and from a `/*` on that is never closed all is plain. -/
def scanBlockComments (t : Text) : List Segment :=
  match _h : firstOccurrence ['/', '*'] t with
  | none => [.plain t]
  | some (front, opened) =>
    match _h' : firstOccurrence ['*', '/'] opened with
    | none => [.plain t]
    | some (body, behind) =>
      .plain front :: ⟨.comment, '/' :: '*' :: (body ++ ['*', '/'])⟩ :: scanBlockComments behind
termination_by t.length
decreasing_by
  obtain ⟨rfl, -⟩ := firstOccurrence_eq_some ‹firstOccurrence ['/', '*'] _ = _›
  obtain ⟨rfl, -⟩ := firstOccurrence_eq_some ‹firstOccurrence ['*', '/'] _ = _›
  simp only [List.length_append, List.length_cons]
  omega

theorem throughBlockEnd_eq (t : Text) :
    throughBlockEnd t = (firstOccurrence ['*', '/'] t).map fun p => p.1.length + 2 := by
  fun_induction throughBlockEnd t with
  | case1 => rfl
  | case2 rest => simp [firstOccurrence, List.isPrefixOf]
  | case3 c rest hopen ih =>
    have hp : ['*', '/'].isPrefixOf (c :: rest) = false := by
      rw [← Bool.not_eq_true, List.isPrefixOf_iff_prefix]
      rintro ⟨r, hr⟩
      obtain ⟨rfl, rfl⟩ := List.cons.inj hr
      exact hopen r rfl rfl
    rw [firstOccurrence, hp, if_neg Bool.false_ne_true, ih, Option.map_map, Option.map_map]
    congr 1

theorem looksAhead_blockComment : blockComment.LooksAhead := fun _ _ _ _ => rfl

theorem blockComment_open (before : Option Char) (opened : Text) :
    blockComment before '/' ('*' :: opened) =
      (firstOccurrence ['*', '/'] opened).map fun p => p.1.length + 3 := by
  rw [blockComment, throughBlockEnd_eq, Option.map_map]
  congr 1
  funext p
  simp only [Function.comp_apply]
  omega

/-- A comment begins with `/*`, and there is a `*/` behind that. -/
theorem exists_opened_of_blockComment {before : Option Char} {c : Char} {rest : Text}
    (h : blockComment before c rest ≠ none) :
    ∃ opened, c :: rest = '/' :: '*' :: opened ∧ ['*', '/'] <:+: opened := by
  unfold blockComment at h
  split at h
  · rename_i opened
    refine ⟨opened, rfl, ?_⟩
    by_contra hopened
    rw [throughBlockEnd_eq, (firstOccurrence_eq_none_iff (by simp)).2 hopened] at h
    exact h rfl
  · exact absurd rfl h

theorem blockComment_of_not_isPrefix {c : Char} {rest : Text} (h : ¬ ['/', '*'] <+: c :: rest)
    (before : Option Char) : blockComment before c rest = none := by
  by_contra hne
  obtain ⟨opened, hopened, -⟩ := exists_opened_of_blockComment hne
  rw [hopened] at h
  exact h (List.prefix_append ['/', '*'] opened)

/-- A `/*` that is never closed begins no comment, nor does one begin behind it. -/
theorem blockComment_of_unclosed {opened : Text} (hopened : ¬ ['*', '/'] <:+: opened) {c : Char}
    {q : Text} (hs : (c :: q) <:+ '/' :: '*' :: opened) (before : Option Char) :
    blockComment before c q = none := by
  by_contra hne
  obtain ⟨more, hmore, hclosed⟩ := exists_opened_of_blockComment hne
  rw [hmore, List.suffix_cons_iff, List.suffix_cons_iff] at hs
  rcases hs with heq | heq | hs
  · obtain rfl : more = opened := by simpa using heq
    exact hopened hclosed
  · simp at heq
  · have hmore : more <:+ '/' :: '*' :: more := List.suffix_append ['/', '*'] more
    exact hopened (hclosed.trans (hmore.trans hs).isInfix)

theorem pieces_closed {opened body behind : Text}
    (hclosed : firstOccurrence ['*', '/'] opened = some (body, behind)) :
    Rule.blockComments.pieces ('/' :: '*' :: opened) =
      ⟨.comment, '/' :: '*' :: (body ++ ['*', '/'])⟩ :: Rule.blockComments.pieces behind := by
  have hm : blockComment none '/' ('*' :: opened) = some (body.length + 3) := by
    rw [blockComment_open, hclosed]
    rfl
  obtain ⟨rfl, -⟩ := firstOccurrence_eq_some hclosed
  have htext : '*' :: (body ++ (['*', '/'] ++ behind)) = '*' :: (body ++ ['*', '/']) ++ behind := by
    simp
  rw [htext] at hm ⊢
  exact Rule.pieces_of_match looksAhead_blockComment (hm.trans (by simp))

/-- **The rule for comments between `/*` and `*/` is the scan.** -/
theorem alike_scanBlockComments (t : Text) :
    Alike (Rule.blockComments.pieces t) (scanBlockComments t) := by
  fun_induction scanBlockComments t with
  | case1 t hnone =>
    rw [firstOccurrence_eq_none_iff (by simp)] at hnone
    refine Rule.alike_pieces looksAhead_blockComment fun c q hs => ?_
    exact blockComment_of_not_isPrefix (fun hp => hnone (hp.isInfix.trans hs.isInfix)) none
  | case2 t front opened hsome hnone =>
    rw [firstOccurrence_eq_none_iff (by simp)] at hnone
    obtain ⟨rfl, hfront⟩ := firstOccurrence_eq_some hsome
    have hopened : Alike (Rule.blockComments.pieces (['/', '*'] ++ opened))
        [.plain (['/', '*'] ++ opened)] :=
      Rule.alike_pieces looksAhead_blockComment fun c q hs =>
        blockComment_of_unclosed hnone hs none
    refine (Rule.alike_pieces_append looksAhead_blockComment fun c q hs => ?_).trans ?_
    · exact blockComment_of_not_isPrefix (hfront c q hs) none
    · refine ((Alike.refl [.plain front]).append hopened).trans fun m => ?_
      exact Segment.attach_plain_attach_plain _ _ _
  | case3 t front opened hsome body behind hclosed ih =>
    obtain ⟨rfl, hfront⟩ := firstOccurrence_eq_some hsome
    have hcomment : Rule.blockComments.pieces (['/', '*'] ++ opened) =
        ⟨.comment, '/' :: '*' :: (body ++ ['*', '/'])⟩ :: Rule.blockComments.pieces behind :=
      pieces_closed hclosed
    refine (Rule.alike_pieces_append looksAhead_blockComment fun c q hs => ?_).trans ?_
    · exact blockComment_of_not_isPrefix (hfront c q hs) none
    · rw [hcomment]
      exact (Alike.refl [_, _]).append ih

/-! ## The passes -/

theorem tally_run_comment (m : Matcher) (g : Progress) :
    ((Rule.wrap m .comment).run g).tally = g.tally := by
  have hzero : Tally.ofPieces (g.stream.plainTexts.flatMap (Rule.wrap m .comment).pieces) =
      .zero := by
    refine Tally.ofPieces_eq_zero fun x hx => ?_
    obtain ⟨t, -, hx⟩ := List.mem_flatMap.1 hx
    rcases Rule.isPlain_or_of_mem_pieces hx with hx | ⟨w, -, hx⟩
    · rw [Segment.eq_plain_of_isPlain hx]
      simp [Segment.plain]
    · rw [List.mem_singleton.1 hx]
      simp
  rw [Rule.run, hzero, Tally.add_zero]

/-- What a rule with comments makes of a plain text. -/
theorem run_comment_ofPlain {m : Matcher} {l : List Segment} {t : Text} (n : Tally)
    (h : Alike ((Rule.wrap m .comment).pieces t) l) :
    (Rule.wrap m .comment).run ⟨.ofPlain t, n⟩ = ⟨.ofSegments l, n⟩ := by
  have hstream : (SegmentStream.ofPlain t).replacePlain (Rule.wrap m .comment).pieces =
      .ofSegments l :=
    (SegmentStream.replacePlain_ofPlain (Rule.pieces_nil _) t).trans
      (SegmentStream.ofSegments_eq_of_alike h)
  exact congrArg₂ Progress.mk hstream (tally_run_comment m _)

/-- **Comments are found by a scan.**  The pass for line comments makes a comment of the part
    of each line that begins with its first `//`, and of nothing else.  The pass for block
    comments goes from left to right, from a `/*` to the next `*/` behind it, which may not
    share its `*`, and on behind that; if there is no such `*/`, the rest stays plain. -/
theorem comments_found_by_scan (v : Vocabulary) (t : Text) (n : Tally) :
    Pass.lineComments.apply v ⟨.ofPlain t, n⟩ = ⟨.ofSegments (scanLineComments t), n⟩ ∧
    Pass.blockComments.apply v ⟨.ofPlain t, n⟩ = ⟨.ofSegments (scanBlockComments t), n⟩ :=
  ⟨run_comment_ofPlain n (alike_scanLineComments t),
    run_comment_ofPlain n (alike_scanBlockComments t)⟩

/-- A line has one comment at most, and no line break is in it.  A `*` is shared neither by
    `/*/` nor by two comments, and the last one is never closed. -/
theorem comments_found_by_scan_of_shared_delimiters :
    (Pass.lineComments.apply .builtin
        ⟨.ofPlain "a/ /// b // c\r\n//\n*/ d".toList, .zero⟩).stream.segments =
      [.plain "a/ ".toList, ⟨.comment, "/// b // c".toList⟩, .plain "\r\n".toList,
        ⟨.comment, "//".toList⟩, .plain "\n*/ d".toList] ∧
    (Pass.blockComments.apply .builtin
        ⟨.ofPlain "/*/ a */*b/**/ /*".toList, .zero⟩).stream.segments =
      [⟨.comment, "/*/ a */".toList⟩, .plain "*b".toList, ⟨.comment, "/**/".toList⟩,
        .plain " /*".toList] := by
  rw [(comments_found_by_scan .builtin _ .zero).1, (comments_found_by_scan .builtin _ .zero).2]
  exact ⟨by decide +kernel, by decide +kernel⟩

end CodeSnippets

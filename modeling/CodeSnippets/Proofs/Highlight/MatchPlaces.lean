/-
  Where the segments of a stream come from.

  A rule replaces every plain segment of a stream by segments of its own, so a segment of the
  result stands in what has come of a single segment.  A rule that gives a kind moves no
  character, so each segment that it makes is a match between the text in front of it and the
  text behind it, and stays between these texts whatever such rules follow.

  * `Rule.exists_of_segments_run`: the segment that a segment has come of, and what is around
    it there;
  * `Rule.exists_match_of_segmentsOf`: a segment with a kind is a match where it stands;
  * `exists_around_applyPasses`: it stays where it stands.
-/
import CodeSnippets.Proofs.Highlight.CommentTexts
import CodeSnippets.Proofs.Highlight.VisibleText

namespace CodeSnippets

open Segment (textOf)

/-! ## Replaced segments -/

/-- A place in what the members of a list are replaced by is a place in what one of them is
    replaced by. -/
theorem exists_of_flatMap_eq {α β : Type} {f : α → List β} {l : List α} {k m : List β} {x : β}
    (h : l.flatMap f = k ++ x :: m) : ∃ a y b k' m', l = a ++ y :: b ∧ f y = k' ++ x :: m' ∧
      k = a.flatMap f ++ k' ∧ m = m' ++ b.flatMap f := by
  induction l generalizing k with
  | nil => simp at h
  | cons y l ih =>
    rw [List.flatMap_cons, List.append_eq_append_iff] at h
    rcases h with ⟨k', rfl, hl⟩ | ⟨m', hy, hm⟩
    · obtain ⟨a, z, b, p, q, rfl, hz, rfl, rfl⟩ := ih hl
      exact ⟨y :: a, z, b, p, q, rfl, hz, by simp, rfl⟩
    · cases m' with
      | nil =>
        rw [List.append_nil] at hy
        obtain ⟨a, z, b, p, q, rfl, hz, hk, rfl⟩ := ih (k := []) hm.symm
        exact ⟨y :: a, z, b, p, q, rfl, hz, by rw [List.flatMap_cons, hy, List.append_assoc, ← hk,
          List.append_nil], rfl⟩
      | cons z m' =>
        obtain ⟨rfl, rfl⟩ := List.cons.inj hm
        exact ⟨[], y, l, k, m', rfl, hy, rfl, rfl⟩

/-- **A segment of the result stands in what has come of one segment.** -/
theorem Rule.exists_of_segments_run {r : Rule} {g : Progress} {k l : List Segment} {x : Segment}
    (h : (r.run g).stream.segments = k ++ x :: l) :
    ∃ a y b k' l', g.stream.segments = a ++ y :: b ∧ r.segmentsOf y = k' ++ x :: l' ∧
      k = a.flatMap r.segmentsOf ++ k' ∧ l = l' ++ b.flatMap r.segmentsOf := by
  rw [r.segments_run] at h
  exact exists_of_flatMap_eq h

theorem textOf_segmentsOf_wrap (m : Matcher) (kd : Kind) (x : Segment) :
    textOf ((Rule.wrap m kd).segmentsOf x) = x.text := by
  have htext : textOf ((Rule.wrap m kd).segmentsOf x) =
      textOf (SegmentStream.replaced (Rule.wrap m kd).pieces x) :=
    SegmentStream.text_ofSegments _
  rw [htext, SegmentStream.replaced]
  split
  · exact textOf_pieces_wrap m kd x.text
  · simp

theorem textOf_flatMap_segmentsOf_wrap (m : Matcher) (kd : Kind) (l : List Segment) :
    textOf (l.flatMap (Rule.wrap m kd).segmentsOf) = textOf l := by
  rw [Segment.textOf_flatMap]
  simp only [textOf_segmentsOf_wrap]
  rfl

/-! ## Matches -/

/-- In front of a classified segment, plain text is put in front of what is there. -/
theorem exists_of_attach_plain {u : Text} {k l m : List Segment} {x : Segment}
    (hx : x.isPlain = false) (h : (Segment.plain u).attach m = k ++ x :: l) :
    ∃ k', m = k' ++ x :: l ∧ textOf k = u ++ textOf k' := by
  by_cases hu : u = []
  · subst hu
    rw [Segment.attach_plain_nil] at h
    exact ⟨k, h, rfl⟩
  cases m with
  | nil =>
    have hone : (Segment.plain u).attach [] = [.plain u] := by simp [Segment.attach, hu]
    rw [hone] at h
    cases k with
    | nil =>
      obtain ⟨rfl, -⟩ := List.cons.inj h
      cases hx
    | cons z k => simp at h
  | cons y m =>
    cases hy : y.isPlain with
    | true =>
      have hjoin : (Segment.plain u).attach (y :: m) = .plain (u ++ y.text) :: m := by
        simp [Segment.attach, hu, hy]
      rw [hjoin] at h
      cases k with
      | nil =>
        obtain ⟨rfl, -⟩ := List.cons.inj h
        cases hx
      | cons z k =>
        obtain ⟨rfl, rfl⟩ := List.cons.inj h
        exact ⟨y :: k, rfl, by simp⟩
    | false =>
      have hapart : (Segment.plain u).attach (y :: m) = .plain u :: y :: m := by
        simp [Segment.attach, hu, hy]
      rw [hapart] at h
      cases k with
      | nil =>
        obtain ⟨rfl, -⟩ := List.cons.inj h
        cases hx
      | cons z k =>
        obtain ⟨rfl, hm⟩ := List.cons.inj h
        exact ⟨k, hm, by simp⟩

theorem Segment.textOf_concat (k : List Segment) (x : Segment) :
    textOf (k ++ [x]) = textOf k ++ x.text := by
  simp

/-- The last character in front of a place, if there is one. -/
theorem getLast?_cons_or (c : Char) (t : Text) (before : Option Char) :
    (c :: t).getLast?.or before = t.getLast?.or (some c) := by
  rw [List.getLast?_cons]
  cases t.getLast? <;> rfl

theorem getLast?_toList (before : Option Char) : before.toList.getLast? = before := by
  cases before <;> rfl

theorem getLast?_append_cons (s : Text) (c : Char) (t : Text) :
    (s ++ c :: t).getLast? = some (t.getLastD c) := by
  rw [List.getLast?_append, List.getLast?_cons, List.getLastD_eq_getLast?]
  rfl

/-- The last character in front of a place behind a match. -/
theorem getLast?_match_or (c : Char) (w t : Text) (before : Option Char) :
    (c :: w ++ t).getLast?.or before = t.getLast?.or (some (w.getLastD c)) := by
  rw [List.getLast?_append, ← List.nil_append (c :: w), getLast?_append_cons, Option.or_assoc]
  rfl

section

variable {m : Matcher} {kd : Kind} {k l : List Segment} {x : Segment}

theorem textOf_segments_of_cutsFrom (m : Matcher) (kd : Kind) (before : Option Char) (t : Text) :
    textOf (((m.cutsFrom before t []).flatMap (Rule.wrap m kd).ofCut).foldr Segment.attach []) =
      t := by
  have htext := SegmentStream.text_ofSegments
    ((m.cutsFrom before t []).flatMap (Rule.wrap m kd).ofCut)
  rw [textOf_flatMap_ofCut_wrap, m.text_cutsFrom] at htext
  exact htext

theorem exists_match_of_cutsFrom (hkd : kd ≠ .plain) (before : Option Char) (t : Text)
    (hx : x.isPlain = false)
    (h : ((m.cutsFrom before t []).flatMap (Rule.wrap m kd).ofCut).foldr Segment.attach [] =
      k ++ x :: l) :
    x.kind = kd ∧ ∃ c rest n, m ((textOf k).getLast?.or before) c rest = some n ∧
      x.text = c :: rest.take n ∧ textOf l = rest.drop n := by
  revert k
  refine Matcher.cutsFrom_induction
    (P := fun before _ cs => ∀ {k : List Segment},
      (cs.flatMap (Rule.wrap m kd).ofCut).foldr Segment.attach [] = k ++ x :: l →
      x.kind = kd ∧ ∃ c rest n, m ((textOf k).getLast?.or before) c rest = some n ∧
        x.text = c :: rest.take n ∧ textOf l = rest.drop n) ?_ ?_ ?_ before t
  · intro before k h
    simp at h
  · intro before c rest _ ih k h
    obtain ⟨k', hm, htext⟩ := exists_of_attach_plain hx h
    rw [htext, List.singleton_append, getLast?_cons_or]
    exact ih hm
  · intro before c rest n hm ih k h
    have hp : Segment.isPlain ⟨kd, c :: rest.take n⟩ = false := by simpa [Segment.isPlain] using hkd
    have hback := textOf_segments_of_cutsFrom m kd
      (some ((rest.take n).getLastD c)) (rest.drop n)
    rw [List.flatMap_cons, List.foldr_append] at h
    generalize hs : ((m.cutsFrom (some ((rest.take n).getLastD c)) (rest.drop n) []).flatMap
      (Rule.wrap m kd).ofCut).foldr Segment.attach [] = s at h hback ih
    have hattach : (⟨kd, c :: rest.take n⟩ : Segment) :: s = k ++ x :: l := by
      rw [← Segment.attach_of_classified hp (List.cons_ne_nil _ _)]
      exact h
    cases k with
    | nil =>
      obtain ⟨rfl, rfl⟩ := List.cons.inj hattach
      exact ⟨rfl, c, rest, n, hm, rfl, hback⟩
    | cons z k =>
      obtain ⟨rfl, hrest⟩ := List.cons.inj hattach
      rw [Segment.textOf_cons, getLast?_match_or]
      exact ih hrest

/-- **A segment with a kind is a match where it stands.** -/
theorem Rule.exists_match_of_segmentsOf (hkd : kd ≠ .plain) {t : Text} (hx : x.isPlain = false)
    (h : (Rule.wrap m kd).segmentsOf (.plain t) = k ++ x :: l) :
    x.kind = kd ∧ ∃ c rest n, m (textOf k).getLast? c rest = some n ∧
      x.text = c :: rest.take n ∧ textOf l = rest.drop n := by
  have hmatch := exists_match_of_cutsFrom hkd none t hx h
  rwa [Option.or_none] at hmatch

/-- **A match is found** if no match that begins in front of it reaches into it. -/
theorem Matcher.exists_cuts_of_match {a w b : Text} {c : Char}
    (hm : m a.getLast? c (w ++ b) = some w.length)
    (hfree : ∀ p d q n, a = p ++ d :: q → m p.getLast? d (q ++ c :: (w ++ b)) = some n →
      n ≤ q.length) :
    ∃ cs cs', m.cuts (a ++ c :: (w ++ b)) = cs ++ .matched (c :: w) :: cs' ∧
      cs.flatMap Cut.text = a ∧ cs'.flatMap Cut.text = b := by
  -- over the cuts of what is left of the text behind a part `p`
  have hall := Matcher.cutsFrom_induction (m := m)
    (P := fun before s cuts => ∀ p r : Text, p.getLast? = before → a = p ++ r →
      s = r ++ c :: (w ++ b) → ∃ cs cs', cuts = cs ++ .matched (c :: w) :: cs' ∧
        cs.flatMap Cut.text = r ∧ cs'.flatMap Cut.text = b) ?_ ?_ ?_ none (a ++ c :: (w ++ b))
  · exact hall [] a rfl rfl rfl
  · intro before p r _ _ hs
    simp at hs
  · rintro before d rest hnone ih p r rfl ha hs
    cases r with
    | nil =>
      obtain ⟨rfl, rfl⟩ := List.cons.inj hs
      rw [List.append_nil] at ha
      subst ha
      rw [hm] at hnone
      cases hnone
    | cons e r =>
      rw [List.cons_append] at hs
      obtain ⟨rfl, rfl⟩ := List.cons.inj hs
      obtain ⟨cs, cs', hcuts, hfront, hback⟩ :=
        ih (p ++ [d]) r List.getLast?_concat (by simpa using ha) rfl
      exact ⟨.kept d :: cs, cs', by rw [hcuts]; rfl, by rw [List.flatMap_cons, hfront]; rfl, hback⟩
  · rintro before d rest n hsome ih p r rfl ha hs
    cases r with
    | nil =>
      obtain ⟨rfl, rfl⟩ := List.cons.inj hs
      rw [List.append_nil] at ha
      subst ha
      obtain rfl := Option.some.inj (hm.symm.trans hsome)
      refine ⟨[], _, by rw [List.take_left]; rfl, rfl, ?_⟩
      rw [m.text_cutsFrom, List.drop_left]
    | cons e r =>
      rw [List.cons_append] at hs
      obtain ⟨rfl, rfl⟩ := List.cons.inj hs
      have hn := hfree p d r n ha hsome
      have hlast : (p ++ d :: r.take n).getLast? =
          some (((r ++ c :: (w ++ b)).take n).getLastD d) := by
        rw [getLast?_append_cons, List.take_append_of_le_length hn]
      obtain ⟨cs, cs', hcuts, hfront, hback⟩ := ih (p ++ d :: r.take n) (r.drop n) hlast
        (by rw [ha, List.append_assoc, List.cons_append, List.take_append_drop])
        (List.drop_append_of_le_length hn)
      refine ⟨_ :: cs, cs', congrArg _ hcuts, ?_, hback⟩
      rw [List.flatMap_cons, hfront, Cut.text, List.take_append_of_le_length hn, List.cons_append,
        List.take_append_drop]

/-- A match is a segment with a kind. -/
theorem Rule.exists_segmentsOf_of_cuts (hkd : kd ≠ .plain) {t w : Text} {cs cs' : List Cut}
    (hw : w ≠ []) (h : m.cuts t = cs ++ .matched w :: cs') :
    ∃ k l, (Rule.wrap m kd).segmentsOf (.plain t) = k ++ ⟨kd, w⟩ :: l ∧
      textOf k = cs.flatMap Cut.text ∧ textOf l = cs'.flatMap Cut.text := by
  have hp : Segment.isPlain ⟨kd, w⟩ = false := by simpa [Segment.isPlain] using hkd
  have htext : ∀ cuts : List Cut,
      (SegmentStream.ofSegments (cuts.flatMap (Rule.wrap m kd).ofCut)).text =
        cuts.flatMap Cut.text := by
    intro cuts
    rw [SegmentStream.text_ofSegments, textOf_flatMap_ofCut_wrap]
  refine ⟨_, _, ?_, htext cs, htext cs'⟩
  have hpieces : (Rule.wrap m kd).pieces t =
      cs.flatMap (Rule.wrap m kd).ofCut ++ ⟨kd, w⟩ :: cs'.flatMap (Rule.wrap m kd).ofCut := by
    show (m.cuts t).flatMap (Rule.wrap m kd).ofCut = _
    rw [h, List.flatMap_append, List.flatMap_cons]
    rfl
  rw [Rule.segmentsOf_plain, hpieces, SegmentStream.segments_ofSegments_around _ hp hw]

end

/-! ## Whole passes -/

/-- **A segment with a kind stays where it stands**, between the same texts. -/
theorem exists_around_applyPasses {v : Vocabulary} {ps : List Pass} (hps : Pass.operators ∉ ps)
    {g : Progress} {k l : List Segment} {x : Segment} (hx : x.isPlain = false)
    (hg : g.stream.segments = k ++ x :: l) :
    ∃ k' l', (applyPasses v ps g).stream.segments = k' ++ x :: l' ∧ textOf k' = textOf k ∧
      textOf l' = textOf l := by
  refine applyPasses_induction (P := fun h => ∃ k' l', h.stream.segments = k' ++ x :: l' ∧
    textOf k' = textOf k ∧ textOf l' = textOf l) ?_ ⟨k, l, hg, rfl, rfl⟩
  rintro p hp r hr h ⟨k', l', hh, hk, hl⟩
  obtain ⟨m, kd, -, rfl⟩ := eq_wrap_of_mem_rules (fun he => hps (he ▸ hp)) hr
  refine ⟨_, _, Rule.segments_run_around _ hx hh, ?_, ?_⟩
  · rw [textOf_flatMap_segmentsOf_wrap, hk]
  · rw [textOf_flatMap_segmentsOf_wrap, hl]

end CodeSnippets

/-
  What passes leave of a stream.

  A segment that has a kind is sealed: no pass looks into it, moves it or takes it back.
  Passes cut plain text up and nothing else, so the text changes only in the white space
  around operators, and a tally grows by what the stream gains.

  * `SegmentStream.classified`: the segments of a stream that have a kind;
  * `classified_applyPasses`: they stay, in their order, under any passes;
  * `passes_seal_and_tally`: all that any row of passes keeps of any stream.
-/
import CodeSnippets.Proofs.Highlight.Tallies
import CodeSnippets.Proofs.Highlight.VisibleText

namespace CodeSnippets

/-! ## Segments that have a kind -/

namespace SegmentStream

/-- The segments that have a kind, in order. -/
def classified (s : SegmentStream) : List Segment := s.segments.filter fun x => !x.isPlain

theorem count_eq_countP_classified {k : Kind} (hk : k ≠ .plain) (s : SegmentStream) :
    s.count k = s.classified.countP fun x => x.kind == k := by
  rw [count, classified, List.countP_filter]
  refine List.countP_congr fun x _ => ?_
  rw [Bool.and_eq_true, iff_self_and]
  intro hx
  rw [Segment.isPlain, beq_iff_eq.1 hx, beq_false_of_ne hk]
  rfl

/-- A segment that has a kind is kept as it is. -/
theorem segments_replaced_of_classified {s : SegmentStream} {x : Segment} (hx : x ∈ s.segments)
    (hp : x.isPlain = false) (f : Text → List Segment) :
    (ofSegments (replaced f x)).segments = [x] := by
  have hreplaced : replaced f x = [x] := by simp [replaced, hp]
  rw [hreplaced, segments_ofSegments, List.foldr_cons, List.foldr_nil,
    Segment.attach_of_classified hp (s.normal.text_ne_nil x hx)]

/-- Whatever is put in the place of plain text, the segments that have a kind stay. -/
theorem classified_replacePlain (s : SegmentStream) (f : Text → List Segment) :
    s.classified.Sublist (s.replacePlain f).classified := by
  have hkept := fun x (hx : x ∈ s.segments) (hp : x.isPlain = false) =>
    segments_replaced_of_classified hx hp f
  rw [classified, classified, segments_replacePlain, List.filter_flatMap]
  generalize s.segments = l at hkept
  induction l with
  | nil => exact .slnil
  | cons x l ih =>
    obtain ⟨hx, hl⟩ := List.forall_mem_cons.1 hkept
    rw [List.flatMap_cons]
    cases hp : x.isPlain with
    | true =>
      rw [List.filter_cons_of_neg (by simp [hp])]
      exact (ih hl).trans (List.sublist_append_right _ _)
    | false =>
      rw [List.filter_cons_of_pos (by simp [hp]), hx hp, List.filter_singleton, hp]
      exact (ih hl).cons_cons x

end SegmentStream

/-! ## Passes -/

/-- **Segments that have a kind stay**, in their order, whatever passes run. -/
theorem classified_applyPasses (v : Vocabulary) (ps : List Pass) (g : Progress) :
    g.stream.classified.Sublist (applyPasses v ps g).stream.classified :=
  applyPasses_induction
    (P := fun h => g.stream.classified.Sublist h.stream.classified)
    (fun _ _ r _ h hh => hh.trans (h.stream.classified_replacePlain r.pieces)) (.refl _)

theorem count_le_count_applyPasses (v : Vocabulary) (ps : List Pass) (g : Progress) {k : Kind}
    (hk : k ≠ .plain) : g.stream.count k ≤ (applyPasses v ps g).stream.count k := by
  rw [SegmentStream.count_eq_countP_classified hk, SegmentStream.count_eq_countP_classified hk]
  exact (classified_applyPasses v ps g).countP_le

/-- What passes find is what the tally and the stream have more of than before. -/
theorem exists_found (v : Vocabulary) (ps : List Pass) (g : Progress) :
    ∃ found : Tally, (applyPasses v ps g).tally = g.tally.add found ∧
      Tally.ofStream (applyPasses v ps g).stream = (Tally.ofStream g.stream).add found := by
  have hkeywords := count_le_count_applyPasses v ps g (k := .keyword) (by decide)
  have hfunctions := count_le_count_applyPasses v ps g (k := .functionName) (by decide)
  obtain ⟨keywords, hkeywords⟩ := Nat.exists_eq_add_of_le hkeywords
  obtain ⟨functions, hfunctions⟩ := Nat.exists_eq_add_of_le hfunctions
  have hstream : Tally.ofStream (applyPasses v ps g).stream =
      (Tally.ofStream g.stream).add ⟨keywords, functions⟩ := by
    rw [Tally.ofStream, hkeywords, hfunctions]
    rfl
  refine ⟨⟨keywords, functions⟩, ?_, hstream⟩
  refine Tally.add_right_cancel (c := .ofStream g.stream) ?_
  rw [tally_applyPasses, hstream]
  simp only [Tally.add, Tally.mk.injEq]
  omega

/-- **Any passes, in any order and as often as one likes, leave what has a kind.**  The
    segments of the stream that have a kind are among those of the result, the same and
    in the same order.  The text is the same up to white space, and without the pass for
    operators it is the same.  The tally grows by the numbers of keywords and of function
    names that the result has more than the stream. -/
theorem passes_seal_and_tally (v : Vocabulary) (ps : List Pass) (g : Progress) :
    g.stream.classified.Sublist (applyPasses v ps g).stream.classified ∧
    withoutSpace (applyPasses v ps g).stream.text = withoutSpace g.stream.text ∧
    (Pass.operators ∉ ps → (applyPasses v ps g).stream.text = g.stream.text) ∧
    ∃ found : Tally, (applyPasses v ps g).tally = g.tally.add found ∧
      Tally.ofStream (applyPasses v ps g).stream = (Tally.ofStream g.stream).add found :=
  ⟨classified_applyPasses v ps g, withoutSpace_text_applyPasses v ps g,
    fun hps => text_applyPasses v hps g, exists_found v ps g⟩

/-- A keyword that has been found, in front of a call of a call. -/
def keywordAndCalls : Progress :=
  ⟨.ofSegments [⟨.keyword, "if".toList⟩, .plain "(f (g+1)) '//'".toList], ⟨5, 7⟩⟩

/-- Calls, comments, strings and calls once more: an operator keeps the space around it. -/
theorem passes_seal_and_tally_of_calls :
    Pass.operators ∉ [Pass.functionCalls, .lineComments, .strings, .functionCalls] ∧
      (applyPasses plusOnly [.functionCalls, .lineComments, .strings, .functionCalls]
        keywordAndCalls).stream.text = "if(f (g+1)) '//'".toList :=
  ⟨by decide, ((passes_seal_and_tally plusOnly _ keywordAndCalls).2.2.1 (by decide)).trans
    (by decide)⟩

end CodeSnippets

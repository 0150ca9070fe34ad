/-
  What has been found is what is shown.

  The tally of a run counts the keywords and the function names as they are found.  The
  segments of these kinds are never taken back, so at any time the tally has grown by
  what the stream has more of them than at the start.

  * `Tally.ofStream`: the tally of the segments of a stream;
  * `tally_applyPasses`: what passes add to a tally;
  * `tally_runPasses`: the tally of a source is that of its segments.
-/
import CodeSnippets.Proofs.Highlight.Matches
import CodeSnippets.Proofs.Highlight.NormalForm
import CodeSnippets.Proofs.Highlight.Passes

namespace CodeSnippets

namespace SegmentStream

theorem count_ofSegments {k : Kind} (hk : k ≠ .plain) {l : List Segment}
    (hl : ∀ x ∈ l, x.text ≠ []) : (ofSegments l).count k = l.countP fun x => x.kind == k := by
  have hplain : ∀ x : Segment, x.isPlain = true → (x.kind == k) = false := by
    intro x hx
    rw [Segment.eq_plain_of_isPlain hx]
    exact beq_false_of_ne (Ne.symm hk)
  rw [count, List.countP_eq_length_filter, List.countP_eq_length_filter,
    filter_ofSegments hplain hl]

/-- The segments of a kind are those that were there and those that are put in. -/
theorem count_replacePlain {k : Kind} (hk : k ≠ .plain) (s : SegmentStream)
    {f : Text → List Segment} (hf : ∀ t, ∀ x ∈ f t, x.text ≠ []) :
    (s.replacePlain f).count k =
      s.count k + (s.plainTexts.flatMap f).countP fun x => x.kind == k := by
  have hne : ∀ x ∈ s.segments.flatMap (replaced f), x.text ≠ [] := by
    intro x hx
    obtain ⟨y, hy, hxy⟩ := List.mem_flatMap.1 hx
    unfold replaced at hxy
    split at hxy
    · exact hf _ x hxy
    · rw [List.mem_singleton.1 hxy]
      exact s.normal.text_ne_nil y hy
  rw [replacePlain_eq, count_ofSegments hk hne, count, plainTexts]
  induction s.segments with
  | nil => rfl
  | cons x l ih =>
    rw [List.flatMap_cons, List.countP_append, ih, List.countP_cons, List.filter_cons]
    cases hx : x.isPlain with
    | true =>
      have hkind : (x.kind == k) = false := by
        rw [Segment.eq_plain_of_isPlain hx]
        exact beq_false_of_ne (Ne.symm hk)
      simp only [replaced, hx, hkind, if_true, Bool.false_eq_true, if_false, List.map_cons,
        List.flatMap_cons, List.countP_append]
      omega
    | false =>
      simp only [replaced, hx, Bool.false_eq_true, if_false, List.countP_singleton]
      omega

end SegmentStream

/-! ## Rules and passes -/

/-- No rule of a pass puts an empty segment in. -/
theorem text_ne_nil_of_mem_pieces {v : Vocabulary} {p : Pass} {r : Rule} (hr : r ∈ p.rules v)
    (t : Text) : ∀ x ∈ r.pieces t, x.text ≠ [] := by
  intro x hx
  obtain ⟨cut, hcut, hx⟩ := List.mem_flatMap.1 hx
  cases cut with
  | kept c => simp [List.mem_singleton.1 hx]
  | matched u =>
    by_cases hp : p = .operators
    · subst hp
      obtain ⟨o, -, rfl⟩ := List.mem_map.1 hr
      simp only [Rule.ofCut, Rule.spaced, List.mem_cons, List.not_mem_nil, or_false] at hx
      rcases hx with rfl | rfl | rfl
      · simp
      · exact o.escaped_ne_nil
      · simp
    · obtain ⟨m, k, -, rfl⟩ := eq_wrap_of_mem_rules hp hr
      rw [List.mem_singleton.1 hx]
      exact Matcher.text_ne_nil_of_mem_cuts _ hcut

namespace Tally

/-- The numbers of keywords and of function names in a stream. -/
def ofStream (s : SegmentStream) : Tally := ⟨s.count .keyword, s.count .functionName⟩

theorem ofStream_ofSegments {l : List Segment} (hl : ∀ x ∈ l, x.text ≠ []) :
    ofStream (.ofSegments l) = .ofPieces l := by
  rw [ofStream, SegmentStream.count_ofSegments (by decide) hl,
    SegmentStream.count_ofSegments (by decide) hl]
  rfl

/-- Pieces of other kinds do not count. -/
theorem ofPieces_eq_zero {l : List Segment}
    (h : ∀ x ∈ l, x.kind ≠ .keyword ∧ x.kind ≠ .functionName) : ofPieces l = zero := by
  have hkeyword : l.countP (fun x => x.kind == .keyword) = 0 :=
    List.countP_eq_zero.2 fun x hx => by simpa using (h x hx).1
  have hfunction : l.countP (fun x => x.kind == .functionName) = 0 :=
    List.countP_eq_zero.2 fun x hx => by simpa using (h x hx).2
  rw [ofPieces, hkeyword, hfunction]
  rfl

theorem zero_add (a : Tally) : zero.add a = a := by
  simp [zero, add]

theorem add_zero (a : Tally) : a.add zero = a := rfl

theorem add_right_cancel {a b c : Tally} (h : a.add c = b.add c) : a = b := by
  simp only [add, Tally.mk.injEq] at h
  obtain ⟨hk, hf⟩ := h
  cases a
  cases b
  simp only [Tally.mk.injEq]
  exact ⟨Nat.add_right_cancel hk, Nat.add_right_cancel hf⟩

end Tally

theorem tally_run {v : Vocabulary} {p : Pass} {r : Rule} (hr : r ∈ p.rules v) (g : Progress) :
    (r.run g).tally.add (.ofStream g.stream) = g.tally.add (.ofStream (r.run g).stream) := by
  have hcount := fun {k : Kind} (hk : k ≠ .plain) =>
    g.stream.count_replacePlain hk (text_ne_nil_of_mem_pieces hr)
  simp only [Rule.run, Tally.add, Tally.ofStream, Tally.ofPieces, Tally.mk.injEq]
  rw [hcount (by decide), hcount (by decide)]
  omega

/-- **Passes add to a tally what they add to the stream.** -/
theorem tally_applyPasses (v : Vocabulary) (ps : List Pass) (g : Progress) :
    (applyPasses v ps g).tally.add (.ofStream g.stream) =
      g.tally.add (.ofStream (applyPasses v ps g).stream) := by
  refine applyPasses_induction
    (P := fun h => h.tally.add (.ofStream g.stream) = g.tally.add (.ofStream h.stream)) ?_ rfl
  intro p _ r hr h hh
  have hrun := tally_run hr h
  simp only [Tally.add, Tally.mk.injEq] at hh hrun ⊢
  omega

theorem ofStream_ofPlain (t : Text) : Tally.ofStream (.ofPlain t) = .zero := by
  by_cases h : t = [] <;>
    simp [Tally.ofStream, SegmentStream.ofPlain, SegmentStream.count, Segment.plain,
      SegmentStream.segments_ofSegments, Segment.attach, Tally.zero, h]

/-- **The tally of a source is that of its segments.** -/
theorem tally_runPasses (v : Vocabulary) (escaped : Text) :
    (runPasses v escaped).tally = .ofStream (runPasses v escaped).stream := by
  have h := tally_applyPasses v Pass.order ⟨.ofPlain escaped, .zero⟩
  rwa [ofStream_ofPlain, Tally.add_zero, Tally.zero_add] at h

end CodeSnippets

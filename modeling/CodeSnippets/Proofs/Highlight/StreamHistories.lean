/-
  Streams and what has been pushed onto them.

  A stream is put together by pushing segments and by rewriting, again and again.  All
  that it keeps of its history is what the pushes say, wherever they were cut.

  * `segments_push`: a segment is joined to the last one of a stream, appended or dropped;
  * `Segment.atoms`: the smallest parts of a segment; `ofSegments_eq_iff`: two rows of
    segments make the same stream if and only if they have the same atoms;
  * `rewritePlain_recorded`: a rewriter is called once for each plain segment, in order, and
    what it pushes stands in its place; `replacePlain_eq_rewritePlain` and
    `run_eq_rewritePlain`: replacements and rules are rewriters;
  * `streams_keep_what_was_pushed`: what holds of every stream, whatever its history.
-/
import CodeSnippets.Highlight.Pass
import CodeSnippets.Proofs.Highlight.NormalForm

namespace CodeSnippets

/-! ## Atoms -/

namespace Segment

/-- The smallest parts of a segment: the characters of plain text one by one, and any other
    segment as it is, unless it is empty. -/
def atoms (x : Segment) : List Segment :=
  if x.isPlain then x.text.map fun c => plain [c] else if x.text = [] then [] else [x]

theorem atoms_plain (t : Text) : (plain t).atoms = t.map fun c => plain [c] := rfl

theorem atoms_of_text_eq_nil {x : Segment} (hx : x.text = []) : x.atoms = [] := by
  simp [atoms, hx]

theorem atoms_attach (x : Segment) (l : List Segment) :
    (x.attach l).flatMap atoms = x.atoms ++ l.flatMap atoms := by
  by_cases hx : x.text = []
  · rw [attach_of_text_eq_nil hx, atoms_of_text_eq_nil hx, List.nil_append]
  cases l with
  | nil => simp [attach, hx]
  | cons next rest =>
    by_cases hp : (x.isPlain && next.isPlain) = true
    · have hjoin : x.attach (next :: rest) = plain (x.text ++ next.text) :: rest := by
        simp [attach, hx, hp]
      rw [Bool.and_eq_true] at hp
      rw [hjoin, eq_plain_of_isPlain hp.1, eq_plain_of_isPlain hp.2]
      simp [atoms_plain]
    · have happart : x.attach (next :: rest) = x :: next :: rest := by
        simp [attach, hx, hp]
      rw [happart, List.flatMap_cons]

/-- A segment comes out like its atoms. -/
theorem alike_atoms (x : Segment) : Alike x.atoms [x] := by
  intro m
  cases hp : x.isPlain with
  | true =>
    rw [eq_plain_of_isPlain hp, atoms_plain, foldr_attach_chars]
    rfl
  | false =>
    by_cases hx : x.text = []
    · rw [atoms_of_text_eq_nil hx]
      exact (attach_of_text_eq_nil hx m).symm
    · simp [atoms, hp, hx]

theorem alike_flatMap_atoms (l : List Segment) : Alike (l.flatMap atoms) l := by
  have h : Alike (l.flatMap atoms) (l.flatMap fun x => [x]) :=
    Alike.flatMap fun x _ => alike_atoms x
  rwa [List.flatMap_singleton'] at h

end Segment

namespace SegmentStream

variable {s : SegmentStream} {x : Segment} {l : List Segment}

theorem atoms_segments_ofSegments (l : List Segment) :
    (ofSegments l).segments.flatMap Segment.atoms = l.flatMap Segment.atoms := by
  induction l with
  | nil => rfl
  | cons x l ih => rw [segments_ofSegments_cons, Segment.atoms_attach, ih, List.flatMap_cons]

/-- **A stream keeps the atoms of what it is made of, and nothing else.** -/
theorem ofSegments_eq_iff {k l : List Segment} :
    ofSegments k = ofSegments l ↔ k.flatMap Segment.atoms = l.flatMap Segment.atoms := by
  constructor
  · intro h
    rw [← atoms_segments_ofSegments k, h, atoms_segments_ofSegments]
  · intro h
    have hk := Segment.alike_flatMap_atoms k
    rw [h] at hk
    exact ofSegments_eq_of_alike (hk.symm.trans (Segment.alike_flatMap_atoms l))

/-! ## Pushing -/

theorem pushAll_eq (s : SegmentStream) (l : List Segment) :
    s.pushAll l = ofSegments (s.segments ++ l) := by
  induction l generalizing s with
  | nil => rw [List.append_nil, ofSegments_segments]; rfl
  | cons x l ih =>
    have hstep : s.pushAll (x :: l) = (s.push x).pushAll l := rfl
    have hcut : s.segments ++ x :: l = (s.segments ++ [x]) ++ l := by simp
    rw [hstep, ih, hcut]
    exact ofSegments_eq_of_alike ((alike_segments_ofSegments _).append (Segment.Alike.refl l))

theorem pushAll_empty (l : List Segment) : empty.pushAll l = ofSegments l := pushAll_eq empty l

theorem push_ofSegments (l : List Segment) (x : Segment) :
    (ofSegments l).push x = ofSegments (l ++ [x]) :=
  ofSegments_eq_of_alike ((alike_segments_ofSegments l).append (Segment.Alike.refl [x]))

theorem push_of_text_eq_nil (hx : x.text = []) : s.push x = s := by
  refine Eq.trans (ofSegments_eq_iff.2 ?_) (ofSegments_segments s)
  rw [List.flatMap_append, List.flatMap_singleton, Segment.atoms_of_text_eq_nil hx, List.append_nil]

theorem pushPlain_pushPlain (s : SegmentStream) (a b : Text) :
    (s.pushPlain a).pushPlain b = s.pushPlain (a ++ b) := by
  have hfirst : s.pushPlain a = ofSegments (s.segments ++ [.plain a]) := rfl
  rw [hfirst, pushPlain, push_ofSegments]
  refine ofSegments_eq_iff.2 ?_
  simp [Segment.atoms_plain]

/-- The segments in front of the last one stay as they are, whatever comes in its place, if
    that is plain just when the last one is. -/
theorem foldr_attach_of_normal_append {front : List Segment} {last y : Segment}
    (h : Segment.Normal (front ++ [last])) (hplain : y.isPlain = last.isPlain) (l : List Segment) :
    front.foldr Segment.attach (y :: l) = front ++ y :: l := by
  induction front with
  | nil => rfl
  | cons z front ih =>
    obtain ⟨hz, hnext, hrest⟩ := h
    rw [List.foldr_cons, ih hrest, List.cons_append]
    have hne : z.text ≠ [] := hz
    cases front with
    | nil =>
      have hp : (z.isPlain && y.isPlain) = false := by
        rw [hplain]
        simpa using fun hz => hnext hz last rfl
      simp [Segment.attach, hne, hp]
    | cons w front =>
      have hp : (z.isPlain && w.isPlain) = false := by
        simpa using fun hz => hnext hz w rfl
      simp [Segment.attach, hne, hp]

/-- **A segment is dropped if it is empty, joined to the last one if both are plain, and
    appended otherwise.** -/
theorem segments_push (s : SegmentStream) (x : Segment) :
    (s.push x).segments =
      if x.text = [] then s.segments
      else match s.segments.getLast? with
        | some last =>
          if last.isPlain && x.isPlain then s.segments.dropLast ++ [.plain (last.text ++ x.text)]
          else s.segments ++ [x]
        | none => [x] := by
  by_cases hx : x.text = []
  · rw [if_pos hx, push_of_text_eq_nil hx]
  have hpush : (s.push x).segments = s.segments.foldr Segment.attach [x] := by
    simp [push, segments_ofSegments, Segment.attach, hx]
  rw [if_neg hx, hpush]
  rcases List.eq_nil_or_concat s.segments with hnil | ⟨front, last, hlast⟩
  · rw [hnil]
    rfl
  rw [List.concat_eq_append] at hlast
  have hnormal : Segment.Normal (front ++ [last]) := hlast ▸ s.normal
  have hne : last.text ≠ [] := hnormal.text_ne_nil last (by simp)
  rw [hlast, List.getLast?_concat, List.dropLast_concat, List.foldr_append]
  by_cases hp : (last.isPlain && x.isPlain) = true
  · have hjoin : last.attach [x] = [.plain (last.text ++ x.text)] := by
      simp [Segment.attach, hne, hp]
    rw [Bool.and_eq_true] at hp
    simp only [List.foldr_cons, List.foldr_nil, hjoin, hp, Bool.and_self, if_true]
    exact foldr_attach_of_normal_append hnormal (hp.1 ▸ Segment.isPlain_plain _) []
  · have happart : last.attach [x] = [last, x] := by
      simp [Segment.attach, hne, hp]
    rw [List.foldr_cons, List.foldr_nil, happart, foldr_attach_of_normal_append hnormal rfl]
    simp [hp]

/-! ## Rewriting -/

/-- A rewriter that also keeps a record of its calls: the texts, each with what is pushed
    for it. -/
def Rewriter.recorded {σ : Type} (f : Rewriter σ) : Rewriter (σ × List (Text × List Segment)) :=
  fun (memory, calls) t out =>
    let (pushes, memory) := f memory t out
    (pushes, memory, calls ++ [(t, pushes)])

/-- The calls of a rewriter while a stream is rewritten, each with what is pushed. -/
def calls {σ : Type} (s : SegmentStream) (f : Rewriter σ) (memory : σ) :
    List (Text × List Segment) :=
  (s.rewritePlain f.recorded (memory, [])).2.2

/-- Segments with one list of segments after the other in the places of the plain ones. -/
def filled : List Segment → List (List Segment) → List Segment
  | [], _ => []
  | x :: rest, fillings =>
    if x.isPlain then fillings.headD [] ++ filled rest fillings.tail else x :: filled rest fillings

variable {σ : Type} {f : Rewriter σ} {memory : σ}

theorem rewriteOnto_cons_of_plain (hx : x.isPlain = true) (out : SegmentStream) :
    rewriteOnto f (x :: l) out memory =
      rewriteOnto f l (out.pushAll (f memory x.text out).1) (f memory x.text out).2 := by
  simp [rewriteOnto, hx]

theorem rewriteOnto_cons_of_classified (hx : x.isPlain = false) (out : SegmentStream) :
    rewriteOnto f (x :: l) out memory = rewriteOnto f l (out.push x) memory := by
  simp [rewriteOnto, hx]

theorem pushAll_append (s : SegmentStream) (k l : List Segment) :
    s.pushAll (k ++ l) = (s.pushAll k).pushAll l := List.foldl_append

/-- A record of the calls changes nothing; it has the plain texts in order, and what is pushed
    for each stands in its place. -/
theorem rewriteOnto_recorded (f : Rewriter σ) (l : List Segment) (out : SegmentStream) (memory : σ)
    (before : List (Text × List Segment)) :
    ∃ made, rewriteOnto f.recorded l out (memory, before) =
        ((rewriteOnto f l out memory).1, (rewriteOnto f l out memory).2, before ++ made) ∧
      made.map Prod.fst = (l.filter Segment.isPlain).map Segment.text ∧
      (rewriteOnto f l out memory).1 = out.pushAll (filled l (made.map Prod.snd)) := by
  induction l generalizing out memory before with
  | nil => exact ⟨[], by simp [rewriteOnto], rfl, rfl⟩
  | cons x l ih =>
    cases hx : x.isPlain with
    | true =>
      obtain ⟨pushes, hpushes⟩ : ∃ pushes, pushes = (f memory x.text out).1 := ⟨_, rfl⟩
      obtain ⟨made, hrun, htexts, hout⟩ := ih (out.pushAll pushes) (f memory x.text out).2
        (before ++ [(x.text, pushes)])
      refine ⟨(x.text, pushes) :: made, ?_, ?_, ?_⟩
      · rw [rewriteOnto_cons_of_plain hx, rewriteOnto_cons_of_plain hx]
        rw [hpushes, List.append_assoc] at hrun
        rw [hpushes]
        exact hrun
      · rw [List.filter_cons_of_pos hx, List.map_cons, List.map_cons, htexts]
      · rw [rewriteOnto_cons_of_plain hx, ← hpushes, hout, ← pushAll_append]
        simp [filled, hx]
    | false =>
      obtain ⟨made, hrun, htexts, hout⟩ := ih (out.push x) memory before
      refine ⟨made, ?_, ?_, ?_⟩
      · rw [rewriteOnto_cons_of_classified hx, rewriteOnto_cons_of_classified hx, hrun]
      · rw [List.filter_cons_of_neg (by simp [hx]), htexts]
      · have hfilled : filled (x :: l) (made.map Prod.snd) = x :: filled l (made.map Prod.snd) := by
          simp [filled, hx]
        rw [rewriteOnto_cons_of_classified hx, hout, hfilled]
        rfl

/-- **A rewriter is called once for each plain segment, in order**, and the new stream is what
    comes of pushing, in order, the classified segments and in place of each plain one what
    the rewriter pushes for it. -/
theorem rewritePlain_recorded (s : SegmentStream) (f : Rewriter σ) (memory : σ) :
    s.rewritePlain f.recorded (memory, []) =
      ((s.rewritePlain f memory).1, (s.rewritePlain f memory).2, s.calls f memory) ∧
    (s.calls f memory).map Prod.fst = s.plainTexts ∧
    (s.rewritePlain f memory).1 =
      empty.pushAll (filled s.segments ((s.calls f memory).map Prod.snd)) := by
  obtain ⟨made, hrun, htexts, hout⟩ := rewriteOnto_recorded f s.segments empty memory []
  have hcalls : s.calls f memory = made := by
    rw [calls, rewritePlain, hrun]
    rfl
  rw [hcalls]
  exact ⟨hrun, htexts, hout⟩

/-- A rewriter that neither remembers anything nor looks at the new stream is a
    replacement. -/
theorem replacePlain_eq_rewritePlain {g : Text → List Segment}
    (hf : ∀ memory t out, (f memory t out).1 = g t) (s : SegmentStream) (memory : σ) :
    (s.rewritePlain f memory).1 = s.replacePlain g := by
  rw [rewritePlain, replacePlain_eq, ← pushAll_empty]
  generalize empty = out
  induction s.segments generalizing out memory with
  | nil => rfl
  | cons x l ih =>
    rw [List.flatMap_cons, pushAll_append]
    cases hx : x.isPlain with
    | true => rw [rewriteOnto_cons_of_plain hx, ih, hf, replaced, if_pos hx]
    | false =>
      rw [rewriteOnto_cons_of_classified hx, ih, replaced, hx]
      rfl

end SegmentStream

/-- A rule as a rewriter, which remembers what has been found. -/
def Rule.rewriter (r : Rule) : SegmentStream.Rewriter Tally :=
  fun tally t _ => (r.pieces t, tally.add (.ofPieces (r.pieces t)))

/-- **A rule runs as the rewriter that it is.** -/
theorem Rule.run_eq_rewritePlain (r : Rule) (g : Progress) :
    g.stream.rewritePlain r.rewriter g.tally = ((r.run g).stream, (r.run g).tally) := by
  refine Prod.ext (SegmentStream.replacePlain_eq_rewritePlain (f := r.rewriter) (g := r.pieces)
    (fun _ _ _ => rfl) g.stream g.tally) ?_
  rw [SegmentStream.rewritePlain, Rule.run, SegmentStream.plainTexts]
  generalize g.tally = tally, SegmentStream.empty = out
  induction g.stream.segments generalizing out tally with
  | nil => rfl
  | cons x l ih =>
    cases hx : x.isPlain with
    | true =>
      rw [SegmentStream.rewriteOnto_cons_of_plain hx, ih, List.filter_cons_of_pos hx]
      simp [rewriter, Tally.add, Tally.ofPieces, Nat.add_assoc]
    | false =>
      rw [SegmentStream.rewriteOnto_cons_of_classified hx, ih,
        List.filter_cons_of_neg (by simp [hx])]

/-! ## Histories -/

/-- What is done with a stream. -/
inductive StreamStep : Type 1 where
  /-- begins anew, with no segments -/
  | new
  /-- begins anew, with plain text -/
  | ofPlain (t : Text)
  | push (x : Segment)
  | pushPlain (t : Text)
  | pushWrapped (k : Kind) (t : Text)
  | rewritePlain {σ : Type} (f : SegmentStream.Rewriter σ) (memory : σ)

namespace StreamStep

/-- The stream after a step. -/
def run (s : SegmentStream) : StreamStep → SegmentStream
  | .new => .empty
  | .ofPlain t => .ofPlain t
  | .push x => s.push x
  | .pushPlain t => s.pushPlain t
  | .pushWrapped k t => s.pushWrapped k t
  | .rewritePlain f memory => (s.rewritePlain f memory).1

/-- The stream after some steps. -/
def runAll (steps : List StreamStep) : SegmentStream := steps.foldl run .empty

/-- What has been pushed onto the stream after a step, from what had been pushed onto the
    stream before.  A rewritten stream is a new one. -/
def pushed (l : List Segment) : StreamStep → List Segment
  | .new => []
  | .ofPlain t => [.plain t]
  | .push x => l ++ [x]
  | .pushPlain t => l ++ [.plain t]
  | .pushWrapped k t => l ++ [⟨k, t⟩]
  | .rewritePlain f memory =>
    SegmentStream.filled (SegmentStream.ofSegments l).segments
      (((SegmentStream.ofSegments l).calls f memory).map Prod.snd)

/-- What has been pushed onto the stream after some steps. -/
def pushedAll (steps : List StreamStep) : List Segment := steps.foldl pushed []

theorem run_ofSegments (l : List Segment) (a : StreamStep) :
    a.run (.ofSegments l) = .ofSegments (a.pushed l) := by
  cases a with
  | new | ofPlain => rfl
  | push x => exact SegmentStream.push_ofSegments l x
  | pushPlain t => exact SegmentStream.push_ofSegments l (.plain t)
  | pushWrapped k t => exact SegmentStream.push_ofSegments l ⟨k, t⟩
  | rewritePlain f memory =>
    have h := ((SegmentStream.ofSegments l).rewritePlain_recorded f memory).2.2
    rwa [SegmentStream.pushAll_empty] at h

/-- **A stream is what has been pushed onto it.** -/
theorem runAll_eq (steps : List StreamStep) : runAll steps = .ofSegments (pushedAll steps) := by
  have h : ∀ l, steps.foldl run (.ofSegments l) = .ofSegments (steps.foldl pushed l) := by
    induction steps with
    | nil => exact fun l => rfl
    | cons a steps ih =>
      intro l
      rw [List.foldl_cons, List.foldl_cons, run_ofSegments, ih]
  exact h []

end StreamStep

open SegmentStream StreamStep in
/-- **A stream keeps what was pushed onto it**, whatever its history.  No segment is empty, and
    of two neighbours one has a kind.  The stream is what comes of pushing what its history
    pushed onto an empty one, and two histories lead to the same stream if and only if they
    pushed the same characters and classified segments, wherever these were cut.  A rewriter
    is called once for each plain segment, in order, and what it pushes for that stands in
    its place. -/
theorem streams_keep_what_was_pushed (steps others : List StreamStep) :
    (∀ x ∈ (runAll steps).segments, x.text ≠ []) ∧
    (∀ front x y rest, (runAll steps).segments = front ++ x :: y :: rest →
      ¬ (x.isPlain ∧ y.isPlain)) ∧
    runAll steps = SegmentStream.empty.pushAll (pushedAll steps) ∧
    (runAll steps = runAll others ↔
      (pushedAll steps).flatMap Segment.atoms = (pushedAll others).flatMap Segment.atoms) ∧
    (∀ a b, ((runAll steps).pushPlain a).pushPlain b = (runAll steps).pushPlain (a ++ b)) ∧
    (∀ k, (runAll steps).pushWrapped k [] = runAll steps) ∧
    (∀ t, (runAll steps).pushWrapped .plain t = (runAll steps).pushPlain t) ∧
    ∀ {σ : Type} (f : Rewriter σ) (memory : σ),
      (runAll steps).rewritePlain f.recorded (memory, []) =
        (((runAll steps).rewritePlain f memory).1, ((runAll steps).rewritePlain f memory).2,
          (runAll steps).calls f memory) ∧
      ((runAll steps).calls f memory).map Prod.fst = (runAll steps).plainTexts ∧
      ((runAll steps).rewritePlain f memory).1 = SegmentStream.empty.pushAll
        (filled (runAll steps).segments (((runAll steps).calls f memory).map Prod.snd)) := by
  refine ⟨(runAll steps).normal.text_ne_nil, ?_, ?_, ?_, pushPlain_pushPlain _,
    fun k => push_of_text_eq_nil rfl, fun t => rfl,
    fun f memory => rewritePlain_recorded _ f memory⟩
  · rintro front x y rest hsegments ⟨hx, hy⟩
    have hnormal := (runAll steps).normal
    rw [hsegments] at hnormal
    exact absurd hx (by simp [hnormal.not_isPlain_of_append hy])
  · rw [runAll_eq, pushAll_empty]
  · rw [runAll_eq, runAll_eq]
    exact ofSegments_eq_iff

/-- A rewriter that puts the number of its calls in front of every plain text but the first,
    which it takes away. -/
def countingRewriter : SegmentStream.Rewriter Nat := fun calls t out =>
  (if out.segments = [] then [] else [.plain (Text.ofNat calls), ⟨.plain, t⟩], calls + 1)

/-- Plain text around a number, in pieces of all sorts and with the front rewritten away. -/
theorem streams_keep_what_was_pushed_of_pieces :
    StreamStep.runAll [.ofPlain "x = ".toList, .pushWrapped .number "1".toList,
        .pushPlain [], .push (.plain " +".toList), .pushWrapped .plain "y".toList,
        .rewritePlain countingRewriter 0] =
      StreamStep.runAll [.new, .pushWrapped .number "1".toList, .pushPlain "1 +y".toList] :=
  (streams_keep_what_was_pushed _ _).2.2.2.1.2 (by decide)

end CodeSnippets

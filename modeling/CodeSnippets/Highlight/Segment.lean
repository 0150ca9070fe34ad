/-
  Classified pieces of text and the streams they form.

  A segment is a text with a kind.  A stream is a sequence of segments in normal
  form: no segment is empty, and no plain segment follows another one, so plain
  text is cut by nothing but a classified segment.

  * `Segment.attach` puts a segment in front of a sequence in normal form, and
    `SegmentStream.ofSegments` brings any sequence into normal form;
  * `SegmentStream.push` appends a segment;
  * `SegmentStream.replacePlain` replaces every plain segment by the pieces that
    a function makes of its text, and keeps the classified ones as they are;
  * `SegmentStream.rewritePlain` does so segment by segment, with a rewriter that
    remembers things and sees the new stream so far;
  * `text_ofSegments`, `text_push`: normal form changes no text.
-/
import CodeSnippets.Text.Basic

namespace CodeSnippets

/-! ## Segments -/

/-- What a piece of text is. -/
inductive Kind where
  | comment
  | string
  | number
  | platformGlobal
  | keyword
  | functionName
  | bracket
  | operator
  | plain
  deriving DecidableEq, Repr

/-- A piece of text with its kind. -/
structure Segment where
  kind : Kind
  text : Text
  deriving DecidableEq, Repr

namespace Segment

/-- A segment of no particular kind. -/
def plain (t : Text) : Segment := ⟨.plain, t⟩

/-- Whether a segment is of no particular kind. -/
def isPlain (s : Segment) : Bool := s.kind == .plain

@[simp] theorem isPlain_plain (t : Text) : (plain t).isPlain = true := rfl

theorem eq_plain_of_isPlain {s : Segment} (h : s.isPlain = true) : s = plain s.text := by
  obtain ⟨k, t⟩ := s
  simp only [isPlain, beq_iff_eq] at h
  simp [plain, h]

/-- The sequence with `s` in front: an empty segment is dropped, and a plain one
    is joined to a plain one behind it. -/
def attach (s : Segment) : List Segment → List Segment
  | [] => if s.text = [] then [] else [s]
  | next :: rest =>
    if s.text = [] then next :: rest
    else if s.isPlain && next.isPlain then plain (s.text ++ next.text) :: rest
    else s :: next :: rest

/-- The text of a sequence of segments. -/
def textOf (l : List Segment) : Text := l.flatMap Segment.text

@[simp] theorem textOf_nil : textOf [] = [] := rfl

@[simp] theorem textOf_cons (s : Segment) (l : List Segment) :
    textOf (s :: l) = s.text ++ textOf l := by
  simp [textOf]

@[simp] theorem textOf_append (l m : List Segment) : textOf (l ++ m) = textOf l ++ textOf m := by
  simp [textOf]

theorem textOf_attach (s : Segment) (l : List Segment) : textOf (s.attach l) = s.text ++ textOf l := by
  cases l with
  | nil => by_cases h : s.text = [] <;> simp [attach, h]
  | cons next rest =>
    by_cases h : s.text = []
    · simp [attach, h]
    · by_cases hp : s.isPlain && next.isPlain <;> simp [attach, h, hp, plain]

/-- No segment is empty, and no plain segment follows another one. -/
def Normal : List Segment → Prop
  | [] => True
  | s :: rest => s.text ≠ [] ∧ (s.isPlain → ∀ next ∈ rest.head?, ¬ next.isPlain) ∧ Normal rest

theorem normal_attach (s : Segment) {l : List Segment} (h : Normal l) : Normal (s.attach l) := by
  cases l with
  | nil => by_cases hs : s.text = [] <;> simp [attach, Normal, hs]
  | cons next rest =>
    obtain ⟨hne, hnext, hrest⟩ := h
    by_cases hs : s.text = []
    · simp only [attach, hs, if_true]
      exact ⟨hne, hnext, hrest⟩
    · by_cases hp : s.isPlain && next.isPlain
      · simp only [attach, hs, hp, if_true, if_false]
        refine ⟨by simp [plain, hs], fun _ => ?_, hrest⟩
        exact hnext (by simp at hp; exact hp.2)
      · simp only [attach, hs, hp, if_false]
        refine ⟨hs, ?_, hne, hnext, hrest⟩
        intro h1 m hm
        simp at hm
        subst hm
        intro h2
        simp [h1, h2] at hp

end Segment

/-! ## Streams -/

/-- A sequence of segments in normal form. -/
structure SegmentStream where
  segments : List Segment
  normal : Segment.Normal segments

namespace SegmentStream

theorem ext_segments {s t : SegmentStream} (h : s.segments = t.segments) : s = t := by
  cases s
  cases t
  cases h
  rfl

/-- The stream without segments. -/
def empty : SegmentStream := ⟨[], trivial⟩

/-- The normal form of a sequence of segments. -/
def ofSegments : List Segment → SegmentStream
  | l => ⟨l.foldr Segment.attach [], by
      induction l with
      | nil => trivial
      | cons s l ih => exact Segment.normal_attach s ih⟩

@[simp] theorem segments_ofSegments_nil : (ofSegments []).segments = [] := rfl

theorem segments_ofSegments_cons (s : Segment) (l : List Segment) :
    (ofSegments (s :: l)).segments = s.attach (ofSegments l).segments := rfl

/-- The stream of a text without classified segments. -/
def ofPlain (t : Text) : SegmentStream := ofSegments [Segment.plain t]

/-- The text of a stream, classified or not. -/
def text (s : SegmentStream) : Text := Segment.textOf s.segments

theorem text_ofSegments (l : List Segment) : (ofSegments l).text = Segment.textOf l := by
  induction l with
  | nil => rfl
  | cons s l ih =>
    simp only [text] at ih
    simp [text, segments_ofSegments_cons, Segment.textOf_attach, ih]

/-- The stream with a segment appended. -/
def push (s : SegmentStream) (x : Segment) : SegmentStream := ofSegments (s.segments ++ [x])

/-- The stream with plain text appended. -/
def pushPlain (s : SegmentStream) (t : Text) : SegmentStream := s.push (.plain t)

/-- The stream with a text of a kind appended. -/
def pushWrapped (s : SegmentStream) (k : Kind) (t : Text) : SegmentStream := s.push ⟨k, t⟩

/-- The stream with some segments appended, one after the other. -/
def pushAll (s : SegmentStream) (l : List Segment) : SegmentStream := l.foldl push s

theorem text_push (s : SegmentStream) (x : Segment) : (s.push x).text = s.text ++ x.text := by
  rw [push, text_ofSegments]
  simp [text]

/-- The number of segments. -/
def size (s : SegmentStream) : Nat := s.segments.length

/-- The number of segments of a kind. -/
def count (s : SegmentStream) (k : Kind) : Nat := s.segments.countP fun x => x.kind == k

/-- The texts of the plain segments, in order. -/
def plainTexts (s : SegmentStream) : List Text :=
  (s.segments.filter Segment.isPlain).map Segment.text

/-- The stream with every plain segment replaced by the pieces that `f` makes of
    its text. -/
def replacePlain (s : SegmentStream) (f : Text → List Segment) : SegmentStream :=
  ofSegments (s.segments.flatMap fun x => if x.isPlain then f x.text else [x])

/-- What is done with a plain text when a stream is rewritten: what is remembered, the
    text and the new stream so far give the segments to push and what is remembered
    from then on. -/
abbrev Rewriter (σ : Type) := σ → Text → SegmentStream → List Segment × σ

/-- Pushes segments onto a new stream, and in the place of plain ones what a rewriter
    makes of them. -/
def rewriteOnto {σ : Type} (f : Rewriter σ) :
    List Segment → SegmentStream → σ → SegmentStream × σ
  | [], out, memory => (out, memory)
  | x :: rest, out, memory =>
    if x.isPlain then
      let (pushes, memory) := f memory x.text out
      rewriteOnto f rest (out.pushAll pushes) memory
    else rewriteOnto f rest (out.push x) memory

/-- The stream that a rewriter makes of a stream, and what it remembers in the end. -/
def rewritePlain {σ : Type} (s : SegmentStream) (f : Rewriter σ) (memory : σ) :
    SegmentStream × σ :=
  rewriteOnto f s.segments empty memory

end SegmentStream

end CodeSnippets

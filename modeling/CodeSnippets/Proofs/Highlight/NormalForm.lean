/-
  The normal form of segments.

  * `attach_plain_attach_plain`: plain text put in front piece by piece comes out the
    same as put in front at once, so cutting plain text leaves no trace;
  * `ofSegments_segments`: the normal form of a stream is the stream;
  * `forall_foldr_attach`, `forall_segments_replacePlain`: a property of texts
    that holds of the texts put together holds of all segments of a stream, if it is
    kept when two texts are joined;
  * `replacePlain_eq_self`: a replacement that only cuts plain text changes nothing;
  * `Segment.Alike`: two sequences that come out the same in front of every sequence,
    as a sequence and its normal form do (`alike_segments_ofSegments`);
  * `segments_replacePlain`: what is made of a plain segment of a stream does not touch
    what is made of another one.
-/
import CodeSnippets.Highlight.Segment

namespace CodeSnippets

namespace Segment

@[simp] theorem plain_text (t : Text) : (plain t).text = t := rfl

@[simp] theorem attach_plain_nil (l : List Segment) : (plain []).attach l = l := by
  cases l <;> simp [attach]

theorem attach_plain_attach_plain (a b : Text) (l : List Segment) :
    (plain a).attach ((plain b).attach l) = (plain (a ++ b)).attach l := by
  by_cases ha : a = []
  · simp [ha]
  by_cases hb : b = []
  · simp [hb]
  cases l with
  | nil => simp [attach, ha, hb]
  | cons next rest =>
    by_cases hn : next.isPlain = true <;> simp [attach, ha, hb, hn]

theorem foldr_attach_chars (t : Text) (l : List Segment) :
    (t.map fun c => plain [c]).foldr attach l = (plain t).attach l := by
  induction t with
  | nil => simp
  | cons c t ih =>
    rw [List.map_cons, List.foldr_cons, ih, attach_plain_attach_plain]
    rfl

theorem Normal.text_ne_nil {l : List Segment} (h : Normal l) : ∀ x ∈ l, x.text ≠ [] := by
  induction l with
  | nil => simp
  | cons s l ih => exact List.forall_mem_cons.2 ⟨h.1, ih h.2.2⟩

/-- In normal form, a plain segment stands behind a classified one. -/
theorem Normal.not_isPlain_of_append {k l : List Segment} {z x : Segment}
    (h : Normal (k ++ z :: x :: l)) (hx : x.isPlain = true) : z.isPlain = false := by
  induction k with
  | nil =>
    rw [← Bool.not_eq_true]
    intro hz
    exact absurd hx (by simpa using h.2.1 hz x rfl)
  | cons y k ih => exact ih h.2.2

theorem attach_of_normal {s : Segment} {l : List Segment} (h : Normal (s :: l)) :
    s.attach l = s :: l := by
  obtain ⟨hs, hnext, -⟩ := h
  cases l with
  | nil => simp [attach, hs]
  | cons next rest =>
    have hp : (s.isPlain && next.isPlain) = false := by
      rcases hp : s.isPlain with _ | _
      · rfl
      · simpa using hnext hp next rfl
    simp [attach, hs, hp]

theorem foldr_attach_of_normal {l : List Segment} (h : Normal l) : l.foldr attach [] = l := by
  induction l with
  | nil => rfl
  | cons s l ih => rw [List.foldr_cons, ih h.2.2, attach_of_normal h]

/-- Segments may be replaced by sequences that have the same effect in front of every
    sequence. -/
theorem foldr_attach_flatMap {g : Segment → List Segment} {l : List Segment}
    (h : ∀ x ∈ l, ∀ k, (g x).foldr attach k = x.attach k) (k : List Segment) :
    (l.flatMap g).foldr attach k = l.foldr attach k := by
  induction l with
  | nil => rfl
  | cons x l ih =>
    simp only [List.forall_mem_cons] at h
    rw [List.flatMap_cons, List.foldr_append, ih h.2, h.1, List.foldr_cons]

/-- A property of texts that is kept when two texts are joined holds of all texts of
    a sequence with a segment attached if it holds of the parts. -/
theorem forall_attach {P : Text → Prop} (join : ∀ a b, P a → P b → P (a ++ b)) {s : Segment}
    (hs : P s.text) {l : List Segment} (hl : ∀ x ∈ l, P x.text) : ∀ x ∈ s.attach l, P x.text := by
  cases l with
  | nil =>
    intro x hx
    by_cases h : s.text = [] <;> simp only [attach, h, if_true, if_false] at hx
    · simp at hx
    · rw [List.mem_singleton.1 hx]; exact hs
  | cons next rest =>
    simp only [List.forall_mem_cons] at hl
    obtain ⟨hnext, hrest⟩ := hl
    simp only [attach]
    split
    · exact List.forall_mem_cons.2 ⟨hnext, hrest⟩
    · split
      · exact List.forall_mem_cons.2 ⟨join _ _ hs hnext, hrest⟩
      · exact List.forall_mem_cons.2 ⟨hs, List.forall_mem_cons.2 ⟨hnext, hrest⟩⟩

theorem forall_foldr_attach {P : Text → Prop} (join : ∀ a b, P a → P b → P (a ++ b))
    {k l : List Segment} (hk : ∀ x ∈ k, P x.text) (hl : ∀ x ∈ l, P x.text) :
    ∀ x ∈ k.foldr attach l, P x.text := by
  induction k with
  | nil => exact hl
  | cons s k ih =>
    simp only [List.forall_mem_cons] at hk
    exact forall_attach join hk.1 (ih hk.2)

/-! ## Sequences that come out the same -/

/-- Two sequences that come out the same in front of every sequence. -/
def Alike (k l : List Segment) : Prop := ∀ m, k.foldr attach m = l.foldr attach m

theorem Alike.refl (l : List Segment) : Alike l l := fun _ => rfl

theorem Alike.symm {k l : List Segment} (h : Alike k l) : Alike l k := fun m => (h m).symm

theorem Alike.trans {j k l : List Segment} (h : Alike j k) (h' : Alike k l) : Alike j l :=
  fun m => (h m).trans (h' m)

theorem Alike.append {k k' l l' : List Segment} (h : Alike k k') (h' : Alike l l') :
    Alike (k ++ l) (k' ++ l') := by
  intro m
  rw [List.foldr_append, List.foldr_append, h, h']

theorem Alike.flatMap {α : Type} {f g : α → List Segment} {l : List α}
    (h : ∀ a ∈ l, Alike (f a) (g a)) : Alike (l.flatMap f) (l.flatMap g) := by
  induction l with
  | nil => exact Alike.refl _
  | cons a l ih =>
    simp only [List.forall_mem_cons] at h
    rw [List.flatMap_cons, List.flatMap_cons]
    exact h.1.append (ih h.2)

theorem attach_of_text_eq_nil {s : Segment} (hs : s.text = []) (l : List Segment) :
    s.attach l = l := by
  cases l <;> simp [attach, hs]

theorem alike_attach (s : Segment) (l : List Segment) : Alike (s.attach l) (s :: l) := by
  intro m
  by_cases hs : s.text = []
  · rw [attach_of_text_eq_nil hs, List.foldr_cons, attach_of_text_eq_nil hs]
  cases l with
  | nil => simp [attach, hs]
  | cons next rest =>
    by_cases hp : (s.isPlain && next.isPlain) = true
    · have hjoin : s.attach (next :: rest) = plain (s.text ++ next.text) :: rest := by
        simp [attach, hs, hp]
      rw [Bool.and_eq_true] at hp
      rw [hjoin, eq_plain_of_isPlain hp.1, eq_plain_of_isPlain hp.2]
      exact (attach_plain_attach_plain _ _ _).symm
    · simp [attach, hs, hp]

theorem alike_foldr_attach (l : List Segment) : Alike (l.foldr attach []) l := by
  induction l with
  | nil => exact Alike.refl _
  | cons s l ih => exact (alike_attach s _).trans ((Alike.refl [s]).append ih)

/-- Plain segments come out like their text. -/
theorem alike_plain {l : List Segment} (h : ∀ x ∈ l, x.isPlain = true) :
    Alike l [plain (textOf l)] := by
  induction l with
  | nil => exact fun m => (attach_plain_nil m).symm
  | cons x l ih =>
    simp only [List.forall_mem_cons] at h
    intro m
    calc x.attach (l.foldr attach m)
      _ = x.attach ((plain (textOf l)).attach m) := by rw [ih h.2 m]; rfl
      _ = (plain x.text).attach ((plain (textOf l)).attach m) := by
        rw [← eq_plain_of_isPlain h.1]
      _ = (plain (textOf (x :: l))).attach m := by
        rw [attach_plain_attach_plain, textOf_cons]

/-! ## Classified segments keep their neighbours apart -/

theorem attach_of_classified {s : Segment} (hs : s.isPlain = false) (ht : s.text ≠ [])
    (l : List Segment) : s.attach l = s :: l := by
  cases l <;> simp [attach, hs, ht]

/-- Only plain segments are joined. -/
theorem mem_of_mem_attach {s x : Segment} {l : List Segment} (hx : x ∈ s.attach l)
    (hp : x.isPlain = false) : x = s ∨ x ∈ l := by
  by_cases ht : s.text = []
  · rw [attach_of_text_eq_nil ht] at hx
    exact .inr hx
  cases l with
  | nil => exact .inl (by simpa [attach, ht] using hx)
  | cons next rest =>
    by_cases hj : (s.isPlain && next.isPlain) = true
    · simp only [attach, ht, hj, if_true, if_false] at hx
      rcases List.mem_cons.1 hx with rfl | hx
      · cases hp
      · exact .inr (List.mem_cons_of_mem _ hx)
    · simp only [attach, ht, hj, if_false] at hx
      exact List.mem_cons.1 hx

theorem attach_append_cons (s : Segment) (k : List Segment) {x : Segment} (hx : x.isPlain = false)
    (l : List Segment) : s.attach (k ++ x :: l) = s.attach k ++ x :: l := by
  cases k with
  | nil => by_cases hs : s.text = [] <;> simp [attach, hs, hx]
  | cons next rest =>
    by_cases hs : s.text = []
    · simp [attach, hs]
    · by_cases hp : s.isPlain && next.isPlain <;> simp [attach, hs, hp]

/-- The normal form leaves the classified segments of a sequence, in their order. -/
theorem filter_attach {p : Segment → Bool} (hp : ∀ x, x.isPlain = true → p x = false) {s : Segment}
    (hs : s.text ≠ []) (l : List Segment) : (s.attach l).filter p = (s :: l).filter p := by
  cases l with
  | nil => simp [attach, hs]
  | cons next rest =>
    by_cases h : (s.isPlain && next.isPlain) = true
    · have hjoin : s.attach (next :: rest) = plain (s.text ++ next.text) :: rest := by
        simp [attach, hs, h]
      rw [Bool.and_eq_true] at h
      simp [hjoin, hp s h.1, hp next h.2, hp (plain (s.text ++ next.text)) rfl]
    · simp [attach, hs, h]

theorem foldr_attach_append_cons (k : List Segment) {x : Segment} (hx : x.isPlain = false)
    (l : List Segment) : k.foldr attach (x :: l) = k.foldr attach [] ++ x :: l := by
  induction k with
  | nil => rfl
  | cons s k ih => rw [List.foldr_cons, List.foldr_cons, ih, attach_append_cons s _ hx]

end Segment

namespace SegmentStream

theorem segments_ofSegments (l : List Segment) :
    (ofSegments l).segments = l.foldr Segment.attach [] := rfl

theorem alike_segments_ofSegments (l : List Segment) : Segment.Alike (ofSegments l).segments l :=
  Segment.alike_foldr_attach l

theorem ofSegments_eq_of_alike {k l : List Segment} (h : Segment.Alike k l) :
    ofSegments k = ofSegments l :=
  ext_segments (h [])

theorem mem_of_mem_segments {l : List Segment} {x : Segment} (hx : x ∈ (ofSegments l).segments)
    (hp : x.isPlain = false) : x ∈ l := by
  induction l with
  | nil => cases hx
  | cons y l ih => exact List.mem_cons.2 ((Segment.mem_of_mem_attach hx hp).imp id ih)

theorem filter_ofSegments {p : Segment → Bool} (hp : ∀ x, x.isPlain = true → p x = false)
    {l : List Segment} (hl : ∀ x ∈ l, x.text ≠ []) :
    (ofSegments l).segments.filter p = l.filter p := by
  induction l with
  | nil => rfl
  | cons x l ih =>
    simp only [List.forall_mem_cons] at hl
    rw [segments_ofSegments_cons, Segment.filter_attach hp hl.1, List.filter_cons, List.filter_cons,
      ih hl.2]

/-- A stream begins with the character that its first segment begins with. -/
theorem head?_text_of_mem_head? {s : SegmentStream} {x : Segment} (hx : x ∈ s.segments.head?) :
    x.text.head? = s.text.head? := by
  obtain ⟨l, hl⟩ := List.head?_eq_some_iff.1 hx
  have hne : x.text ≠ [] := s.normal.text_ne_nil x (hl ▸ List.mem_cons_self)
  obtain ⟨c, t, ht⟩ := List.exists_cons_of_ne_nil hne
  rw [text, hl, Segment.textOf_cons, ht]
  rfl

theorem segments_ofPlain {t : Text} (ht : t ≠ []) : (ofPlain t).segments = [.plain t] := by
  rw [ofPlain, segments_ofSegments_cons]
  simp [Segment.attach, ht]

theorem isPlain_of_mem_ofPlain {t : Text} {x : Segment} (hx : x ∈ (ofPlain t).segments) :
    x.isPlain = true := by
  rw [← Bool.not_eq_false]
  intro hp
  rw [List.mem_singleton.1 (mem_of_mem_segments hx hp)] at hp
  cases hp

theorem mem_plainTexts_iff {s : SegmentStream} {t : Text} :
    t ∈ s.plainTexts ↔ .plain t ∈ s.segments := by
  constructor
  · intro h
    obtain ⟨x, hx, rfl⟩ := List.mem_map.1 h
    obtain ⟨hmem, hp⟩ := List.mem_filter.1 hx
    rwa [← Segment.eq_plain_of_isPlain hp]
  · intro h
    exact List.mem_map.2 ⟨_, List.mem_filter.2 ⟨h, rfl⟩, rfl⟩

/-- **The normal form of a stream is the stream.** -/
theorem ofSegments_segments (s : SegmentStream) : ofSegments s.segments = s :=
  ext_segments (Segment.foldr_attach_of_normal s.normal)

/-- What a function makes of a segment of a stream: plain text is replaced, any other
    segment is kept. -/
def replaced (f : Text → List Segment) (x : Segment) : List Segment :=
  if x.isPlain then f x.text else [x]

theorem replacePlain_eq (s : SegmentStream) (f : Text → List Segment) :
    s.replacePlain f = ofSegments (s.segments.flatMap (replaced f)) := rfl

theorem replacePlain_ofPlain {f : Text → List Segment} (h : f [] = []) (t : Text) :
    (ofPlain t).replacePlain f = ofSegments (f t) := by
  rw [replacePlain_eq, ofPlain, segments_ofSegments]
  by_cases ht : t = []
  · simp [ht, h]
  · simp [Segment.attach, ht, replaced]

theorem replacePlain_congr {f g : Text → List Segment} (h : ∀ t, Segment.Alike (f t) (g t))
    (s : SegmentStream) : s.replacePlain f = s.replacePlain g := by
  rw [replacePlain_eq, replacePlain_eq]
  refine ofSegments_eq_of_alike (Segment.Alike.flatMap fun x _ => ?_)
  unfold replaced
  split
  · exact h x.text
  · exact Segment.Alike.refl _

/-- If a replacement, put in front of any segments with a property, leaves segments
    with the property, then so does replacing all plain segments of a stream. -/
theorem forall_segments_replacePlain {P : Text → Prop} (join : ∀ a b, P a → P b → P (a ++ b))
    {s : SegmentStream} {f : Text → List Segment} (hs : ∀ x ∈ s.segments, P x.text)
    (hf : ∀ t, P t → ∀ l : List Segment, (∀ x ∈ l, P x.text) →
      ∀ x ∈ (f t).foldr Segment.attach l, P x.text) :
    ∀ x ∈ (s.replacePlain f).segments, P x.text := by
  rw [replacePlain_eq, segments_ofSegments]
  generalize s.segments = l at hs
  induction l with
  | nil => simp
  | cons y l ih =>
    simp only [List.forall_mem_cons] at hs
    rw [List.flatMap_cons, List.foldr_append]
    unfold replaced
    split
    · exact hf _ hs.1 _ (ih hs.2)
    · exact Segment.forall_attach join hs.1 (ih hs.2)

/-- **Cutting plain text leaves no trace.** -/
theorem replacePlain_eq_self {s : SegmentStream} {f : Text → List Segment}
    (h : ∀ t ∈ s.plainTexts, f t = t.map fun c => .plain [c]) : s.replacePlain f = s := by
  have hf : ∀ x ∈ s.segments, ∀ l, (replaced f x).foldr Segment.attach l = x.attach l := by
    intro x hx l
    unfold replaced
    split
    · rename_i hp
      rw [Segment.eq_plain_of_isPlain hp] at hx
      rw [h x.text (mem_plainTexts_iff.2 hx), Segment.foldr_attach_chars,
        ← Segment.eq_plain_of_isPlain hp]
    · rfl
  refine ext_segments ?_
  rw [replacePlain_eq, segments_ofSegments, Segment.foldr_attach_flatMap hf,
    Segment.foldr_attach_of_normal s.normal]

/-- **What is made of a segment does not touch what is made of another one**, since of two
    neighbours in a stream one is classified. -/
theorem segments_replacePlain (s : SegmentStream) (f : Text → List Segment) :
    (s.replacePlain f).segments =
      s.segments.flatMap fun x => (ofSegments (replaced f x)).segments := by
  obtain ⟨l, hl⟩ := s
  rw [replacePlain_eq]
  simp only [segments_ofSegments]
  induction l with
  | nil => rfl
  | cons x l ih =>
    rw [List.flatMap_cons, List.flatMap_cons, List.foldr_append, ih hl.2.2]
    cases hx : x.isPlain with
    | false =>
      have hattach := Segment.attach_of_classified hx hl.1
      simp only [replaced, hx, Bool.false_eq_true, if_false, List.foldr_cons, List.foldr_nil,
        hattach, List.singleton_append]
    | true =>
      cases l with
      | nil => simp
      | cons y l =>
        have hy : y.isPlain = false := by simpa using hl.2.1 hx y rfl
        have hattach := Segment.attach_of_classified hy hl.2.2.1
        simp only [List.flatMap_cons, replaced, hx, hy, if_true, Bool.false_eq_true, if_false,
          List.foldr_cons, List.foldr_nil, hattach, List.singleton_append]
        exact Segment.foldr_attach_append_cons _ hy _

end SegmentStream

end CodeSnippets

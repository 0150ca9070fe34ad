/-
  Places in a text, counted without its white space.

  A rule for an operator adds and removes white space, so the number of characters in front
  of a place changes from rule to rule.  The number of visible ones does not: it tells where
  a text without white space stands, whatever rules have run.

  * `visibleLength`: the number of characters that are no white space;
  * `IsSolid`: a text without white space, as every operator is;
  * `StandsAt`: a text stands in another one behind so many visible characters; between two
    parts put together, `StandsAt.of_append_left` and `.of_append_right` tell in which part
    it stands;
  * `Apart`: two texts at two places do not overlap;
  * `Segment.SomeAt`: some segment of a sequence has a property at a place, and
    `someAt_flatMap`: where it has one after every segment has been replaced;
  * `Segment.HasPlain`, `Segment.IsWrapped`: the two ways in which a text can stand in a
    segment: as a part of plain text, or as an operator.
-/
import CodeSnippets.Proofs.Highlight.VisibleText

namespace CodeSnippets

/-! ## Visible characters -/

/-- The number of characters of a text that are no white space. -/
def visibleLength (t : Text) : Nat := (withoutSpace t).length

@[simp] theorem visibleLength_nil : visibleLength [] = 0 := rfl

@[simp] theorem visibleLength_append (s t : Text) :
    visibleLength (s ++ t) = visibleLength s + visibleLength t := by
  rw [visibleLength, withoutSpace_append, List.length_append]
  rfl

theorem isWhitespace_of_visibleLength {t : Text} (h : visibleLength t = 0) :
    ∀ c ∈ t, isWhitespace c = true := by
  intro c hc
  have hnil := List.filter_eq_nil_iff.1 (List.length_eq_zero_iff.1 h) c hc
  simpa using hnil

theorem visibleLength_eq_zero {t : Text} (h : ∀ c ∈ t, isWhitespace c = true) :
    visibleLength t = 0 := by
  rw [visibleLength, withoutSpace_eq_nil h, List.length_nil]

/-- A text that is not empty and holds no white space. -/
structure IsSolid (u : Text) : Prop where
  ne_nil : u ≠ []
  visible : ∀ c ∈ u, isWhitespace c = false

variable {u : Text}

theorem IsSolid.withoutSpace_eq (hu : IsSolid u) : withoutSpace u = u := by
  rw [withoutSpace, List.filter_eq_self]
  intro c hc
  rw [hu.visible c hc]
  rfl

theorem IsSolid.visibleLength_eq (hu : IsSolid u) : visibleLength u = u.length := by
  rw [visibleLength, hu.withoutSpace_eq]

theorem IsSolid.not_isWhitespace_of_mem {c : Char} (hu : IsSolid u) (hc : c ∈ u) :
    ¬ isWhitespace c = true := by
  rw [hu.visible c hc]
  exact Bool.false_ne_true

/-! ## Where a text stands -/

/-- `u` stands in `t` behind `n` visible characters. -/
def StandsAt (u t : Text) (n : Nat) : Prop := ∃ a b, t = a ++ u ++ b ∧ visibleLength a = n

theorem StandsAt.isInfix {t : Text} {n : Nat} (h : StandsAt u t n) : u <:+: t := by
  obtain ⟨a, b, rfl, -⟩ := h
  exact ⟨a, b, rfl⟩

theorem StandsAt.append_right {p : Text} {n : Nat} (h : StandsAt u p n) (q : Text) :
    StandsAt u (p ++ q) n := by
  obtain ⟨a, b, rfl, hn⟩ := h
  exact ⟨a, b ++ q, by simp, hn⟩

theorem StandsAt.append_left {q : Text} {n : Nat} (h : StandsAt u q n) (p : Text) :
    StandsAt u (p ++ q) (visibleLength p + n) := by
  obtain ⟨a, b, rfl, rfl⟩ := h
  exact ⟨p ++ a, b, by simp, visibleLength_append p a⟩

section

variable {p q t : Text} {n : Nat}

theorem StandsAt.add_length_le (hu : IsSolid u) (h : StandsAt u t n) :
    n + u.length ≤ visibleLength t := by
  obtain ⟨a, b, rfl, rfl⟩ := h
  rw [visibleLength_append, visibleLength_append, hu.visibleLength_eq]
  exact Nat.le_add_right _ _

/-- A text that ends among the visible characters of the first part stands in it. -/
theorem StandsAt.of_append_left (hu : IsSolid u) (h : StandsAt u (p ++ q) n)
    (hn : n + u.length ≤ visibleLength p) : StandsAt u p n := by
  obtain ⟨a, b, hab, rfl⟩ := h
  rcases List.append_eq_append_iff.1 hab with ⟨w, hw, -⟩ | ⟨w, rfl, -⟩
  · -- what `u` had behind the first part would be white space
    have hlength := congrArg visibleLength hw
    rw [visibleLength_append, visibleLength_append, hu.visibleLength_eq] at hlength
    have hwhite := isWhitespace_of_visibleLength (t := w) (by omega)
    rcases List.eq_nil_or_concat' w with rfl | ⟨w, c, rfl⟩
    · exact ⟨a, [], by rw [List.append_nil, hw, List.append_nil], rfl⟩
    · obtain ⟨v, d, rfl⟩ := (List.eq_nil_or_concat' u).resolve_left hu.ne_nil
      rw [← List.append_assoc, ← List.append_assoc] at hw
      obtain rfl : d = c := List.singleton_inj.1 (List.append_inj_right' hw rfl)
      exact absurd (hwhite d (by simp)) (hu.not_isWhitespace_of_mem (by simp))
  · exact ⟨a, w, rfl, rfl⟩

/-- A text that begins behind the visible characters of the first part stands in the
    second. -/
theorem StandsAt.of_append_right (hu : IsSolid u) (h : StandsAt u (p ++ q) n)
    (hn : visibleLength p ≤ n) : ∃ m, StandsAt u q m ∧ n = visibleLength p + m := by
  obtain ⟨a, b, hab, rfl⟩ := h
  rw [List.append_assoc] at hab
  rcases List.append_eq_append_iff.1 hab with ⟨w, rfl, rfl⟩ | ⟨w, rfl, hw⟩
  · exact ⟨visibleLength w, ⟨w, b, by rw [List.append_assoc], rfl⟩, visibleLength_append p w⟩
  · -- what `u` had in the first part would be white space
    rw [visibleLength_append] at hn ⊢
    have hwhite := isWhitespace_of_visibleLength (t := w) (by omega)
    cases w with
    | nil => exact ⟨0, ⟨[], b, hw.symm, rfl⟩, rfl⟩
    | cons c w =>
      obtain ⟨d, v, rfl⟩ := List.exists_cons_of_ne_nil hu.ne_nil
      obtain rfl : d = c := (List.cons.inj hw).1
      exact absurd (hwhite d List.mem_cons_self) (hu.not_isWhitespace_of_mem List.mem_cons_self)

theorem not_standsAt_nil (hu : IsSolid u) : ¬ StandsAt u [] n :=
  fun h => hu.ne_nil (List.infix_nil.1 h.isInfix)

/-- White space in front does not matter. -/
theorem standsAt_space_append (hu : IsSolid u) (hp : ∀ c ∈ p, isWhitespace c = true) :
    StandsAt u (p ++ t) n ↔ StandsAt u t n := by
  have hlength := visibleLength_eq_zero hp
  constructor
  · intro h
    obtain ⟨m, hm, rfl⟩ := h.of_append_right hu (by omega)
    rwa [hlength, Nat.zero_add]
  · intro h
    have := h.append_left p
    rwa [hlength, Nat.zero_add] at this

/-- Nor does white space behind. -/
theorem standsAt_append_space (hu : IsSolid u) (hq : ∀ c ∈ q, isWhitespace c = true) :
    StandsAt u (t ++ q) n ↔ StandsAt u t n := by
  refine ⟨fun h => h.of_append_left hu ?_, fun h => h.append_right q⟩
  have := h.add_length_le hu
  rwa [visibleLength_append, visibleLength_eq_zero hq, Nat.add_zero] at this

end

/-- `u` at the place `n` and `w` at the place `m` do not overlap. -/
def Apart (n : Nat) (u : Text) (m : Nat) (w : Text) : Prop :=
  n + u.length ≤ m ∨ m + w.length ≤ n

instance (n : Nat) (u : Text) (m : Nat) (w : Text) : Decidable (Apart n u m w) :=
  inferInstanceAs (Decidable (_ ∨ _))

theorem apart_add_left {d n m : Nat} {u w : Text} :
    Apart (d + n) u (d + m) w ↔ Apart n u m w := by
  unfold Apart
  omega

/-! ## Places with and without white space -/

section

variable {t w : Text} {i j : Nat}

theorem standsAt_of_isPrefix (h : u <+: t.drop i) : StandsAt u t (visibleLength (t.take i)) := by
  obtain ⟨b, hb⟩ := h
  exact ⟨t.take i, b, by rw [List.append_assoc, hb, List.take_append_drop], rfl⟩

theorem StandsAt.exists_isPrefix {n : Nat} (hu : u ≠ []) (h : StandsAt u t n) :
    ∃ j < t.length, u <+: t.drop j ∧ visibleLength (t.take j) = n := by
  obtain ⟨a, b, rfl, rfl⟩ := h
  have hlength := List.length_pos_iff.2 hu
  refine ⟨a.length, ?_, ?_, ?_⟩
  · simp only [List.length_append]
    omega
  · rw [List.append_assoc, List.drop_left]
    exact List.prefix_append u b
  · rw [List.append_assoc, List.take_left]

theorem visibleLength_take_add_le (hu : IsSolid u) (h : u <+: t.drop i)
    (hj : i + u.length ≤ j) :
    visibleLength (t.take i) + u.length ≤ visibleLength (t.take j) := by
  obtain ⟨b, hb⟩ := h
  obtain ⟨d, rfl⟩ := Nat.exists_eq_add_of_le hj
  have htake : t.take (i + u.length + d) = t.take i ++ (u ++ b.take d) := by
    rw [Nat.add_assoc, List.take_add, ← hb, List.take_length_add_append]
  rw [htake, visibleLength_append, visibleLength_append, hu.visibleLength_eq]
  omega

/-- Texts without white space that do not overlap do not overlap either when only the
    visible characters are counted. -/
theorem Apart.visible (hu : IsSolid u) (hw : IsSolid w) (hi : u <+: t.drop i)
    (hj : w <+: t.drop j) (h : Apart i u j w) :
    Apart (visibleLength (t.take i)) u (visibleLength (t.take j)) w :=
  h.imp (visibleLength_take_add_le hu hi) (visibleLength_take_add_le hw hj)

end

/-! ## Places in a sequence of segments -/

namespace Segment

/-- Some segment of a sequence has the property `P` at a place in its text, and that place
    is behind `n` visible characters of the text of the sequence. -/
def SomeAt (P : Segment → Nat → Prop) (l : List Segment) (n : Nat) : Prop :=
  ∃ k x m i, l = k ++ x :: m ∧ P x i ∧ n = visibleLength (textOf k) + i

variable {P Q R : Segment → Nat → Prop} {k l : List Segment} {x : Segment} {n : Nat}

theorem not_someAt_nil : ¬ SomeAt P [] n := by
  rintro ⟨k, x, m, i, hl, -⟩
  cases k <;> cases hl

theorem someAt_cons :
    SomeAt P (x :: l) n ↔ P x n ∨ ∃ m, SomeAt P l m ∧ n = visibleLength x.text + m := by
  constructor
  · rintro ⟨k, y, m, i, hl, hi, rfl⟩
    cases k with
    | nil =>
      obtain ⟨rfl, rfl⟩ := List.cons.inj hl
      rw [textOf_nil, visibleLength_nil, Nat.zero_add]
      exact .inl hi
    | cons z k =>
      obtain ⟨rfl, rfl⟩ := List.cons.inj hl
      refine .inr ⟨_, ⟨k, y, m, i, rfl, hi, rfl⟩, ?_⟩
      rw [textOf_cons, visibleLength_append, Nat.add_assoc]
  · rintro (h | ⟨j, ⟨k, y, m, i, rfl, hi, rfl⟩, rfl⟩)
    · exact ⟨[], x, l, n, rfl, h, (Nat.zero_add n).symm⟩
    · refine ⟨x :: k, y, m, i, rfl, hi, ?_⟩
      rw [textOf_cons, visibleLength_append, Nat.add_assoc]

theorem someAt_singleton : SomeAt P [x] n ↔ P x n := by
  simp [someAt_cons, not_someAt_nil]

theorem someAt_append : SomeAt P (k ++ l) n ↔
    SomeAt P k n ∨ ∃ m, SomeAt P l m ∧ n = visibleLength (textOf k) + m := by
  induction k generalizing n with
  | nil => simp [not_someAt_nil]
  | cons x k ih =>
    simp only [List.cons_append, someAt_cons, ih, textOf_cons, visibleLength_append, Nat.add_assoc]
    constructor
    · rintro (h | ⟨_, h | ⟨m, hm, rfl⟩, rfl⟩)
      · exact .inl (.inl h)
      · exact .inl (.inr ⟨_, h, rfl⟩)
      · exact .inr ⟨m, hm, rfl⟩
    · rintro ((h | ⟨m, hm, rfl⟩) | ⟨m, hm, rfl⟩)
      · exact .inl h
      · exact .inr ⟨m, .inl hm, rfl⟩
      · exact .inr ⟨_, .inr ⟨m, hm, rfl⟩, rfl⟩

/-- **Replacing every segment by others with as many visible characters** leaves a place where
    it was: it is a place in what some segment has been replaced by. -/
theorem someAt_flatMap {f : Segment → List Segment}
    (hf : ∀ x, visibleLength (textOf (f x)) = visibleLength x.text) :
    SomeAt P (l.flatMap f) n ↔ SomeAt (fun x => SomeAt P (f x)) l n := by
  induction l generalizing n with
  | nil => simp [not_someAt_nil]
  | cons x l ih => simp only [List.flatMap_cons, someAt_append, someAt_cons, ih, hf]

theorem SomeAt.mono (h : ∀ x n, P x n → Q x n) (hl : SomeAt P l n) : SomeAt Q l n := by
  obtain ⟨k, x, m, i, rfl, hi, rfl⟩ := hl
  exact ⟨k, x, m, i, rfl, h x i hi, rfl⟩

/-- What follows, within every segment, from all that has a property there being in the
    relation `A` to a place, follows in a sequence of segments, if only the distance of two
    places matters to `A`. -/
theorem SomeAt.of_forall {A : Nat → Nat → Prop} (shift : ∀ d n m, A (d + n) (d + m) → A n m)
    (h : ∀ x n, P x n → (∀ m, Q x m → A n m) → R x n) (hl : SomeAt P l n)
    (hA : ∀ m, SomeAt Q l m → A n m) : SomeAt R l n := by
  obtain ⟨k, x, m, i, rfl, hi, rfl⟩ := hl
  refine ⟨k, x, m, i, rfl, h x i hi fun j hj => ?_, rfl⟩
  exact shift _ i j (hA _ ⟨k, x, m, j, rfl, hj, rfl⟩)

/-- A property that does not see a space at either end of a plain text, and nothing in a
    plain text that is empty. -/
structure IgnoresSpace (P : Segment → Nat → Prop) : Prop where
  nil : ∀ n, ¬ P (plain []) n
  front : ∀ t n, P (plain (' ' :: t)) n ↔ P (plain t) n
  back : ∀ t n, P (plain (t ++ [' '])) n ↔ P (plain t) n

@[simp] theorem visibleLength_space : visibleLength [' '] = 0 := by decide

theorem someAt_attach_space (hP : IgnoresSpace P) :
    SomeAt P ((plain [' ']).attach l) n ↔ SomeAt P l n := by
  have hspace : ∀ n, ¬ P (plain [' ']) n := fun n h => hP.nil n ((hP.front [] n).1 h)
  cases l with
  | nil => simp [attach, someAt_singleton, not_someAt_nil, hspace]
  | cons next rest =>
    cases hp : next.isPlain with
    | false => simp [attach, hp, someAt_cons (x := plain [' ']), hspace]
    | true =>
      have hjoin : (plain [' ']).attach (next :: rest) = plain (' ' :: next.text) :: rest := by
        simp [attach, hp]
      have hlength : visibleLength (' ' :: next.text) = visibleLength next.text := by
        rw [← List.singleton_append, visibleLength_append, visibleLength_space, Nat.zero_add]
      rw [hjoin, someAt_cons, someAt_cons, hP.front, ← eq_plain_of_isPlain hp, plain_text, hlength]

theorem someAt_ofPlain (hP : IgnoresSpace P) {t : Text} :
    SomeAt P (SegmentStream.ofPlain t).segments n ↔ P (plain t) n := by
  rw [SegmentStream.ofPlain, SegmentStream.segments_ofSegments, List.foldr_cons, List.foldr_nil]
  by_cases ht : t = []
  · subst ht
    rw [attach_plain_nil]
    exact iff_of_false not_someAt_nil (hP.nil n)
  · have hone : (plain t).attach [] = [plain t] := by simp [attach, ht]
    rw [hone, someAt_singleton]

/-! ## Occurrences in segments -/

/-- `u` stands in a plain segment. -/
def HasPlain (u : Text) (x : Segment) (n : Nat) : Prop := x.isPlain = true ∧ StandsAt u x.text n

/-- A segment is `u`, wrapped as an operator. -/
def IsWrapped (u : Text) (x : Segment) (n : Nat) : Prop := x = ⟨.operator, u⟩ ∧ n = 0

@[simp] theorem hasPlain_plain {u t : Text} : (plain t).HasPlain u n ↔ StandsAt u t n :=
  and_iff_right rfl

@[simp] theorem not_hasPlain_operator {u t : Text} : ¬ HasPlain u ⟨.operator, t⟩ n := by
  rintro ⟨h, -⟩
  cases h

@[simp] theorem not_isWrapped_plain {u t : Text} : ¬ (plain t).IsWrapped u n := by
  rintro ⟨h, -⟩
  cases h

theorem ignoresSpace_hasPlain {u : Text} (hu : IsSolid u) : IgnoresSpace (HasPlain u) where
  nil := fun _ h => not_standsAt_nil hu (hasPlain_plain.1 h)
  front := fun t n => by
    rw [hasPlain_plain, hasPlain_plain]
    exact standsAt_space_append (p := [' ']) hu (List.all_eq_true.1 (by decide))
  back := fun t n => by
    rw [hasPlain_plain, hasPlain_plain]
    exact standsAt_append_space hu (List.all_eq_true.1 (by decide))

theorem ignoresSpace_isWrapped (u : Text) : IgnoresSpace (IsWrapped u) where
  nil := fun _ => not_isWrapped_plain
  front := fun _ _ => iff_of_false not_isWrapped_plain not_isWrapped_plain
  back := fun _ _ => iff_of_false not_isWrapped_plain not_isWrapped_plain

end Segment

end CodeSnippets

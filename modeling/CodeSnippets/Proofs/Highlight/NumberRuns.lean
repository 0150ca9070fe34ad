/-
  Which digits are a number.

  A run of digits can be a number if there is no word character on either side of it.  Such a
  run is a whole number, the part in front of a point or, if it has a point in front, the
  part behind it: nothing else can keep a number from beginning or ending where the run does.

  * `IsNumberRun`: a run of digits without a word character on either side;
  * `number_cases`: a number is one such run or two with a point between them;
  * `hasMatchBetween_of_isNumberRun`: every such run is in a number, which begins with it unless
    there is a point in front, and ends with it unless there is a point behind.
-/
import CodeSnippets.Proofs.Highlight.IdentifierRuns

namespace CodeSnippets

/-! ## Runs of digits -/

/-- The text `d` between `a` and `b` consists of digits, and no word character is directly in
    front of it or behind it. -/
structure IsNumberRun (a d b : Text) : Prop where
  ne_nil : d ≠ []
  digits : ∀ c ∈ d, isAsciiDigit c = true
  front : ∀ x ∈ a.getLast?, isWordCharacter x = false
  behind : ∀ x ∈ b.head?, isWordCharacter x = false

theorem isWordCharacter_of_isAsciiDigit {c : Char} (h : isAsciiDigit c = true) :
    isWordCharacter c = true := by
  simp [isWordCharacter, contains_decimalDigit_of_isAsciiDigit h]

theorem not_isAsciiDigit_of_not_isWordCharacter {c : Char} (h : isWordCharacter c = false) :
    isAsciiDigit c = false := by
  rw [← Bool.not_eq_true]
  intro hdigit
  rw [isWordCharacter_of_isAsciiDigit hdigit] at h
  cases h

theorem endsWord_iff {t : Text} :
    endsWord t = true ↔ ∀ x ∈ t.head?, isWordCharacter x = false := by
  cases t <;> simp [endsWord]

section

variable {a b d a' b' d' : Text}

theorem IsNumberRun.not_digit_behind (h : IsNumberRun a d b) :
    ∀ x ∈ b.head?, isAsciiDigit x = false :=
  fun x hx => not_isAsciiDigit_of_not_isWordCharacter (h.behind x hx)

/-- No run of digits goes on in front. -/
theorem IsNumberRun.not_digit_front (h : IsNumberRun a d b) {x : Char} (hx : x ∈ a.getLast?) :
    isAsciiDigit x = false :=
  not_isAsciiDigit_of_not_isWordCharacter (h.front x hx)

/-- Two runs that begin at one place are the same. -/
theorem IsNumberRun.eq_of_append_eq (h : IsNumberRun a d b) (h' : IsNumberRun a' d' b')
    (ht : d ++ b = d' ++ b') : d = d' ∧ b = b' := by
  have hd : d = d' := by
    rw [← takeWhile_append_eq_left h.digits h.not_digit_behind, ht]
    exact takeWhile_append_eq_left h'.digits h'.not_digit_behind
  subst hd
  exact ⟨rfl, List.append_cancel_left ht⟩

/-! ## Numbers -/

theorem fractionLength_cases (t : Text) : fractionLength t = 0 ∨
    ∃ f r, t = '.' :: (f ++ r) ∧ f ≠ [] ∧ (∀ c ∈ f, isAsciiDigit c = true) ∧
      fractionLength t = f.length + 1 := by
  unfold fractionLength
  split
  · rename_i rest
    by_cases hnil : rest.takeWhile isAsciiDigit = []
    · exact .inl (by simp [hnil])
    · refine .inr ⟨rest.takeWhile isAsciiDigit, rest.dropWhile isAsciiDigit, ?_, hnil,
        fun c hc => List.mem_takeWhile_imp hc, by simp [hnil]⟩
      rw [List.takeWhile_append_dropWhile]
  · exact .inl rfl

/-- Digits, a point and digits with no word character around them are two runs, and they end
    where the second one does. -/
theorem runs_of_fraction {c : Char} {f r : Text}
    (hdigits : ∀ x ∈ c :: d, isAsciiDigit x = true)
    (hfront : ∀ x ∈ a.getLast?, isWordCharacter x = false) (hf : f ≠ [])
    (hfdigits : ∀ x ∈ f, isAsciiDigit x = true)
    (hend : ∀ x ∈ r.head?, isWordCharacter x = false) :
    IsNumberRun a (c :: d) ('.' :: (f ++ r)) ∧ IsNumberRun (a ++ (c :: d ++ ['.'])) f r ∧
      (d ++ '.' :: (f ++ r)).take (d.length + (f.length + 1)) = d ++ '.' :: f ∧
      (d ++ '.' :: (f ++ r)).drop (d.length + (f.length + 1)) = r := by
  have hpoint : isWordCharacter '.' = false := by decide
  refine ⟨⟨List.cons_ne_nil _ _, hdigits, hfront, ?_⟩, ⟨hf, hfdigits, ?_, hend⟩, ?_, ?_⟩
  · intro x hx
    obtain rfl : '.' = x := by simpa using hx
    exact hpoint
  · intro x hx
    rw [← List.append_assoc, List.getLast?_concat] at hx
    obtain rfl : '.' = x := by simpa using hx
    exact hpoint
  · rw [List.take_length_add_append, List.take_succ_cons, List.take_left]
  · rw [List.drop_length_add_append, List.drop_succ_cons, List.drop_left]

/-- **A number is a run of digits, or two runs with a point between them.** -/
theorem number_cases {c : Char} {rest : Text} {n : Nat}
    (h : number a.getLast? c rest = some n) :
    ∃ d b, IsNumberRun a d b ∧ c :: rest = d ++ b ∧
      ((c :: rest.take n = d ∧ rest.drop n = b) ∨
        ∃ f r, IsNumberRun (a ++ (d ++ ['.'])) f r ∧ b = '.' :: (f ++ r) ∧
          c :: rest.take n = d ++ '.' :: f ∧ rest.drop n = r) := by
  unfold number at h
  split at h
  · rename_i hc
    simp only [Bool.and_eq_true, Bool.not_eq_true'] at hc
    obtain ⟨hdigit, hbefore⟩ := hc
    have hfront : ∀ x ∈ a.getLast?, isWordCharacter x = false := by
      intro x hx
      rw [Option.mem_def.1 hx] at hbefore
      exact hbefore
    have hdigits : ∀ x ∈ c :: rest.takeWhile isAsciiDigit, isAsciiDigit x = true :=
      List.forall_mem_cons.2 ⟨hdigit, fun x hx => List.mem_takeWhile_imp hx⟩
    have hsplit := List.takeWhile_append_dropWhile (p := isAsciiDigit) (l := rest)
    set d := rest.takeWhile isAsciiDigit
    set b := rest.dropWhile isAsciiDigit
    -- without a fraction the number ends where its digits do
    have hwhole : endsWord b = true → IsNumberRun a (c :: d) b ∧
        c :: rest.take d.length = c :: d ∧ rest.drop d.length = b := by
      intro hend
      rw [← hsplit, List.take_left, List.drop_left]
      exact ⟨⟨List.cons_ne_nil _ _, hdigits, hfront, endsWord_iff.1 hend⟩, rfl, rfl⟩
    refine ⟨c :: d, b, ?_⟩
    rw [List.cons_append, hsplit]
    simp only at h
    split at h
    · rename_i hend
      obtain rfl := Option.some.inj h
      rcases fractionLength_cases b with hnone | ⟨f, r, hb, hf, hfdigits, hlength⟩
      · rw [hnone] at hend ⊢
        obtain ⟨hrun, hends⟩ := hwhole hend
        exact ⟨hrun, rfl, .inl hends⟩
      · have hr : b.drop (f.length + 1) = r := by
          rw [hb, List.drop_succ_cons, List.drop_left]
        rw [hlength, hr] at hend
        obtain ⟨hrun, hfraction, htake, hdrop⟩ :=
          runs_of_fraction hdigits hfront hf hfdigits (endsWord_iff.1 hend)
        rw [← hb, hsplit] at htake hdrop
        rw [hlength, htake, hdrop, hb]
        exact ⟨hrun, rfl, .inr ⟨f, r, hfraction, rfl, rfl, rfl⟩⟩
    · split at h
      · rename_i hend
        obtain rfl := Option.some.inj h
        obtain ⟨hrun, hends⟩ := hwhole hend
        exact ⟨hrun, rfl, .inl hends⟩
      · cases h
  · cases h

/-- A number begins where a run of digits does. -/
theorem number_ne_none {c : Char} (h : IsNumberRun a (c :: d) b) :
    number a.getLast? c (d ++ b) ≠ none := by
  have hdigits := List.forall_mem_cons.1 h.digits
  have htake := takeWhile_append_eq_left hdigits.2 h.not_digit_behind
  have hdrop := dropWhile_append_eq_right hdigits.2 h.not_digit_behind
  have hbefore : a.getLast?.any isWordCharacter = false := by
    cases ha : a.getLast? with
    | none => rfl
    | some x => exact h.front x ha
  unfold number
  rw [hdigits.1, hbefore, htake, hdrop]
  simp only [Bool.not_false, Bool.and_true, if_true]
  split
  · simp
  · rw [if_pos (endsWord_iff.2 h.behind)]
    simp

/-- Digits in front of a run are not directly in front of it. -/
theorem IsNumberRun.eq_nil_of_digits {p u : Text} (h : IsNumberRun (p ++ u) d b)
    (hu : ∀ c ∈ u, isAsciiDigit c = true) : u = [] := by
  rcases List.eq_nil_or_concat' u with rfl | ⟨u, c, rfl⟩
  · rfl
  · have hlast : c ∈ (p ++ (u ++ [c])).getLast? := by simp
    have hdigit := hu c (by simp)
    rw [h.not_digit_front hlast] at hdigit
    cases hdigit

/-- A run that begins within a number begins it or is the part behind its point. -/
theorem IsNumberRun.within_number {p u rest : Text} {c : Char} {n : Nat}
    (h : IsNumberRun (p ++ a) d b) (hm : number p.getLast? c rest = some n)
    (htake : c :: rest.take n = a ++ u) (hdrop : d ++ b = u ++ rest.drop n) :
    (a = [] ∨ a.getLast? = some '.') ∧ (rest.drop n = b ∨ b.head? = some '.') := by
  obtain ⟨d₀, b₀, h₀, hsplit, hforms⟩ := number_cases hm
  by_cases ha : a = []
  · subst ha
    rw [List.append_nil] at h
    rw [List.nil_append] at htake
    have hrest : d₀ ++ b₀ = d ++ b := by
      rw [hdrop, ← htake, ← hsplit, List.cons_append, List.take_append_drop]
    obtain ⟨rfl, rfl⟩ := h₀.eq_of_append_eq h hrest
    refine ⟨.inl rfl, ?_⟩
    rcases hforms with ⟨-, hbehind⟩ | ⟨f, r, -, rfl, -, -⟩
    · exact .inl hbehind
    · exact .inr rfl
  · rcases hforms with ⟨hwhole, -⟩ | ⟨f, r, h₁, -, hwhole, hbehind⟩
    · rw [htake] at hwhole
      subst hwhole
      exact absurd (h.eq_nil_of_digits fun x hx => h₀.digits x (List.mem_append_left _ hx)) ha
    · rw [htake, List.append_eq_append_iff] at hwhole
      rcases hwhole with ⟨q, rfl, -⟩ | ⟨q, rfl, hq⟩
      · exact absurd (h.eq_nil_of_digits fun x hx => h₀.digits x (List.mem_append_left _ hx)) ha
      · cases q with
        | nil =>
          rw [List.append_nil] at h
          exact absurd (h.eq_nil_of_digits h₀.digits) h₀.ne_nil
        | cons e q =>
          obtain ⟨rfl, rfl⟩ := List.cons.inj hq
          have hfront : p ++ (d₀ ++ '.' :: q) = p ++ (d₀ ++ ['.']) ++ q := by simp
          rw [hfront] at h
          obtain rfl : q = [] :=
            h.eq_nil_of_digits fun x hx => h₁.digits x (List.mem_append_left _ hx)
          rw [hbehind] at hdrop ⊢
          exact ⟨.inr (by simp), .inl (h.eq_of_append_eq h₁ hdrop).2.symm⟩

/-- A match among some cuts begins behind the text `a`, or `a` ends with a point; and it ends
    in front of the text `b`, or `b` begins with a point. -/
def HasMatchBetween (a b : Text) (cuts : List Cut) : Prop :=
  ∃ cs w cs', cuts = cs ++ .matched w :: cs' ∧ w ≠ [] ∧
    (cs.flatMap Cut.text = a ∨ a.getLast? = some '.') ∧
    (cs'.flatMap Cut.text = b ∨ b.head? = some '.')

theorem HasMatchBetween.cons {cuts : List Cut} (h : HasMatchBetween a b cuts) (x : Cut) :
    HasMatchBetween (x.text ++ a) b (x :: cuts) := by
  obtain ⟨cs, w, cs', rfl, hw, hfront, hbehind⟩ := h
  refine ⟨x :: cs, w, cs', rfl, hw, hfront.imp ?_ ?_, hbehind⟩
  · rintro rfl
    rfl
  · intro hpoint
    rw [List.getLast?_append, hpoint]
    rfl

/-- **Every run of digits is in a number**, which begins with the run unless there is a point
    in front of it, and ends with it unless there is a point behind it. -/
theorem hasMatchBetween_of_isNumberRun (h : IsNumberRun a d b) :
    HasMatchBetween a b (number.cuts (a ++ (d ++ b))) := by
  -- over the cuts of a text that stands behind a text `p`
  have hall := Matcher.cutsFrom_induction (m := number)
    (P := fun before s cuts => ∀ p a d b : Text, p.getLast? = before → s = a ++ (d ++ b) →
      IsNumberRun (p ++ a) d b → HasMatchBetween a b cuts) ?_ ?_ ?_ none (a ++ (d ++ b))
  · exact hall [] a d b rfl rfl h
  · intro before p a d b _ hs h
    simp only [List.nil_eq, List.append_eq_nil_iff] at hs
    exact absurd hs.2.1 h.ne_nil
  · rintro before c rest hm ih p a d b rfl hs h
    cases a with
    | nil =>
      obtain ⟨e, d, rfl⟩ := List.exists_cons_of_ne_nil h.ne_nil
      obtain ⟨rfl, rfl⟩ := List.cons.inj hs
      rw [List.append_nil] at h
      exact absurd hm (number_ne_none h)
    | cons e a =>
      obtain ⟨rfl, rfl⟩ := List.cons.inj hs
      exact (ih (p ++ [c]) a d b List.getLast?_concat rfl (by simpa using h)).cons (.kept c)
  · rintro before c rest n hm ih p a d b rfl hs h
    have hsplit : c :: rest = (c :: rest.take n) ++ rest.drop n := by
      rw [List.cons_append, List.take_append_drop]
    rw [hsplit, List.append_eq_append_iff] at hs
    rcases hs with ⟨q, rfl, hq⟩ | ⟨u, htake, hdrop⟩
    · -- the run is behind this number
      have hlast : (p ++ (c :: rest.take n)).getLast? = some ((rest.take n).getLastD c) := by
        rw [List.getLast?_append, List.getLast?_cons, List.getLastD_eq_getLast?]
        rfl
      exact (ih _ q d b hlast hq (by rwa [List.append_assoc])).cons (.matched (c :: rest.take n))
    · obtain ⟨hfront, hbehind⟩ := h.within_number hm htake hdrop
      refine ⟨[], _, _, rfl, List.cons_ne_nil _ _, hfront.imp Eq.symm id, ?_⟩
      rwa [Matcher.text_cutsFrom]

end

end CodeSnippets

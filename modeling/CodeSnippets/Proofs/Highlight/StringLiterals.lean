/-
  Where a string literal ends.

  Between its quotes a literal is a row of units: a backslash with the character behind it,
  or a character that is neither a backslash nor the quote.  Read from the opening quote on,
  a text is such a row in one way only, up to the first quote that is not within a unit.

  * `unitsTo`, `unitsTo_eq_some`, `unitsTo_spell_append`: the units behind an opening quote;
  * `throughQuote_eq`: the matcher takes these units, unless a line feed is escaped;
  * `scanLiterals`: a scan from left to right that knows units and nothing else;
  * `strings_found_by_scan`: the pass for strings is this scan, on every text in which no
    line feed is escaped;
  * `first_literal_whole_iff`: a literal is found as written if and only if none of its units
    is an escaped line feed; `literal_lost_at_line_feed` is the shortest one that is not.
-/
import CodeSnippets.Proofs.Highlight.Tallies

namespace CodeSnippets

/-! ## Units -/

/-- A unit of the text between two quotes. -/
inductive LiteralUnit where
  /-- a backslash with the character behind it -/
  | escaped (c : Char)
  /-- a character by itself -/
  | bare (c : Char)
  deriving DecidableEq, Repr

/-- The text of a unit. -/
def LiteralUnit.text : LiteralUnit → Text
  | .escaped c => ['\\', c]
  | .bare c => [c]

/-- Whether a unit can stand in a literal between two quotes `q`: after a backslash any
    character can, by itself any but the quote and the backslash. -/
def LiteralUnit.Fits (q : Char) : LiteralUnit → Prop
  | .escaped _ => True
  | .bare c => c ≠ q ∧ c ≠ '\\'

instance (q : Char) : DecidablePred (LiteralUnit.Fits q)
  | .escaped _ => inferInstanceAs (Decidable True)
  | .bare c => inferInstanceAs (Decidable (c ≠ q ∧ c ≠ '\\'))

/-- The text of a row of units. -/
def spell (us : List LiteralUnit) : Text := us.flatMap LiteralUnit.text

@[simp] theorem spell_nil : spell [] = [] := rfl

@[simp] theorem spell_cons (u : LiteralUnit) (us : List LiteralUnit) :
    spell (u :: us) = u.text ++ spell us := by
  simp [spell]

/-- The units from behind an opening quote `q` to the next `q` that is not within a unit, and
    the text behind that; none if there is no such `q`. -/
def unitsTo (q : Char) : Text → Option (List LiteralUnit × Text)
  | [] => none
  | '\\' :: [] => none
  | '\\' :: c :: rest => (unitsTo q rest).map fun (us, r) => (.escaped c :: us, r)
  | c :: rest =>
    if c = q then some ([], rest)
    else (unitsTo q rest).map fun (us, r) => (.bare c :: us, r)

/-- What is read is a row of units in front of a quote. -/
theorem unitsTo_eq_some {q : Char} {t r : Text} {us : List LiteralUnit}
    (h : unitsTo q t = some (us, r)) : (∀ u ∈ us, u.Fits q) ∧ t = spell us ++ q :: r := by
  fun_induction unitsTo q t generalizing us r with
  | case1 => cases h
  | case2 => cases h
  | case3 c rest ih =>
    obtain ⟨⟨us', r'⟩, hus, h⟩ := Option.map_eq_some_iff.1 h
    obtain ⟨rfl, rfl⟩ := Prod.mk.inj h
    obtain ⟨hfits, rfl⟩ := ih hus
    exact ⟨List.forall_mem_cons.2 ⟨trivial, hfits⟩, rfl⟩
  | case4 rest =>
    obtain ⟨rfl, rfl⟩ := Prod.mk.inj (Option.some.inj h)
    exact ⟨by simp, rfl⟩
  | case5 c rest hlone hpair hc ih =>
    obtain ⟨⟨us', r'⟩, hus, h⟩ := Option.map_eq_some_iff.1 h
    obtain ⟨rfl, rfl⟩ := Prod.mk.inj h
    obtain ⟨hfits, htext⟩ := ih hus
    have hbackslash : c ≠ '\\' := by
      intro hbackslash
      cases rest with
      | nil => exact hlone hbackslash rfl
      | cons d rest => exact hpair d rest hbackslash rfl
    exact ⟨List.forall_mem_cons.2 ⟨⟨hc, hbackslash⟩, hfits⟩, by rw [htext]; rfl⟩

/-- **A row of units in front of a quote is read as this row**, and as no other. -/
theorem unitsTo_spell_append {q : Char} (hq : q ≠ '\\') {us : List LiteralUnit}
    (hus : ∀ u ∈ us, u.Fits q) (r : Text) : unitsTo q (spell us ++ q :: r) = some (us, r) := by
  induction us with
  | nil =>
    show unitsTo q (q :: r) = some ([], r)
    rw [unitsTo]
    · rw [if_pos rfl]
    · intro h
      exact absurd h hq
    · intro c rest h
      exact absurd h hq
  | cons u us ih =>
    simp only [List.forall_mem_cons] at hus
    obtain ⟨hu, hus⟩ := hus
    cases u with
    | escaped c =>
      show unitsTo q ('\\' :: c :: (spell us ++ q :: r)) = _
      rw [unitsTo, ih hus]
      rfl
    | bare c =>
      show unitsTo q (c :: (spell us ++ q :: r)) = _
      rw [unitsTo]
      · rw [if_neg hu.1, ih hus]
        rfl
      · intro h
        exact absurd h hu.2
      · intro d rest h
        exact absurd h hu.2

theorem length_lt_of_unitsTo {q : Char} {t r : Text} {us : List LiteralUnit}
    (h : unitsTo q t = some (us, r)) : r.length < t.length := by
  obtain ⟨-, rfl⟩ := unitsTo_eq_some h
  simp only [List.length_append, List.length_cons]
  omega

/-! ## The matcher -/

theorem ne_backslash_of_isQuote {q : Char} (h : isQuote q = true) : q ≠ '\\' := by
  rintro rfl
  revert h
  decide

/-- **A literal goes through the quote behind its units**, unless one of them is an escaped
    line feed. -/
theorem throughQuote_eq (q : Char) (t : Text) :
    throughQuote q t = (unitsTo q t).bind fun p =>
      if .escaped '\n' ∈ p.1 then none else some ((spell p.1).length + 1) := by
  fun_induction throughQuote q t with
  | case1 => rfl
  | case2 => rfl
  | case3 rest =>
    rw [unitsTo]
    rcases unitsTo q rest with _ | ⟨us, r⟩
    · rfl
    · simp
  | case4 c rest hc ih =>
    rw [unitsTo, ih]
    rcases unitsTo q rest with _ | ⟨us, r⟩
    · rfl
    · by_cases hus : .escaped '\n' ∈ us
      · simp [hus]
      · simp [hus, Ne.symm hc, LiteralUnit.text]
  | case5 rest hlone hpair =>
    rw [unitsTo, if_pos rfl]
    · rfl
    · exact hlone
    · exact hpair
  | case6 c rest hlone hpair hc ih =>
    rw [unitsTo, if_neg hc, ih]
    · rcases unitsTo q rest with _ | ⟨us, r⟩
      · rfl
      · by_cases hus : .escaped '\n' ∈ us
        · simp [hus]
        · simp [hus, LiteralUnit.text, Nat.add_comm]
    · exact hlone
    · exact hpair

theorem stringLiteral_of_quote {q : Char} (hq : isQuote q = true) (before : Option Char)
    (t : Text) : stringLiteral before q t = throughQuote q t := by
  rw [stringLiteral, if_pos hq]

theorem stringLiteral_of_not_quote {c : Char} (hc : isQuote c = false) (before : Option Char)
    (t : Text) : stringLiteral before c t = none := by
  rw [stringLiteral, if_neg (by rw [hc]; exact Bool.false_ne_true)]

theorem stringLiteral_spell {q : Char} (hq : isQuote q = true) {us : List LiteralUnit}
    (hus : ∀ u ∈ us, u.Fits q) (hfeed : .escaped '\n' ∉ us) (before : Option Char) (r : Text) :
    stringLiteral before q (spell us ++ q :: r) = some ((spell us).length + 1) := by
  rw [stringLiteral_of_quote hq, throughQuote_eq,
    unitsTo_spell_append (ne_backslash_of_isQuote hq) hus]
  exact if_neg hfeed

/-- The matcher finds literals only, and no escaped line feed in them. -/
theorem exists_units_of_stringLiteral {before : Option Char} {q : Char} {t : Text} {n : Nat}
    (h : stringLiteral before q t = some n) :
    isQuote q = true ∧ ∃ us r, (∀ u ∈ us, u.Fits q) ∧ .escaped '\n' ∉ us ∧
      t = spell us ++ q :: r ∧ n = (spell us).length + 1 := by
  by_cases hq : isQuote q = true
  · rw [stringLiteral_of_quote hq, throughQuote_eq, Option.bind_eq_some_iff] at h
    obtain ⟨⟨us, r⟩, hus, h⟩ := h
    obtain ⟨hfits, htext⟩ := unitsTo_eq_some hus
    simp only at h
    by_cases hfeed : .escaped '\n' ∈ us
    · rw [if_pos hfeed] at h
      cases h
    · rw [if_neg hfeed] at h
      exact ⟨hq, us, r, hfits, hfeed, htext, (Option.some.inj h).symm⟩
  · rw [stringLiteral_of_not_quote (by simpa using hq)] at h
    cases h

theorem looksAhead_stringLiteral : stringLiteral.LooksAhead := fun _ _ _ _ => rfl

/-! ## The scan -/

/-- What a scan from left to right makes of a text: behind a quote it reads on to the quote
    that closes the literal; where there is none, the opening quote stays plain, and the scan
    goes on behind it. -/
def scanLiterals : Text → List Segment
  | [] => []
  | c :: rest =>
    if isQuote c then
      match _h : unitsTo c rest with
      | some (us, r) => ⟨.string, c :: (spell us ++ [c])⟩ :: scanLiterals r
      | none => .plain [c] :: scanLiterals rest
    else .plain [c] :: scanLiterals rest
termination_by t => t.length
decreasing_by
  · have := length_lt_of_unitsTo ‹unitsTo c rest = _›
    rw [List.length_cons]
    omega
  · simp
  · simp

/-- The rule for string literals. -/
def Rule.strings : Rule := .wrap stringLiteral .string

theorem strings_mem_rules (v : Vocabulary) : Rule.strings ∈ Pass.strings.rules v :=
  List.mem_singleton_self _

theorem pieces_strings_of_none {c : Char} {rest : Text} (h : stringLiteral none c rest = none) :
    Rule.strings.pieces (c :: rest) = .plain [c] :: Rule.strings.pieces rest :=
  Rule.pieces_cons_of_none looksAhead_stringLiteral h

theorem pieces_strings_of_units {q : Char} (hq : isQuote q = true) {us : List LiteralUnit}
    (hus : ∀ u ∈ us, u.Fits q) (hfeed : .escaped '\n' ∉ us) (r : Text) :
    Rule.strings.pieces (q :: (spell us ++ q :: r)) =
      ⟨.string, q :: (spell us ++ [q])⟩ :: Rule.strings.pieces r := by
  have hm : stringLiteral none q (spell us ++ [q] ++ r) = some (spell us ++ [q]).length := by
    rw [List.append_assoc, List.singleton_append, stringLiteral_spell hq hus hfeed none r,
      List.length_append, List.length_singleton]
  rw [List.append_cons]
  exact Rule.pieces_of_match looksAhead_stringLiteral hm

theorem isInfix_spell {c : Char} {us : List LiteralUnit} (h : .escaped c ∈ us) :
    ['\\', c] <:+: spell us := by
  obtain ⟨a, b, rfl⟩ := List.append_of_mem h
  exact ⟨spell a, spell b, by simp [spell, LiteralUnit.text]⟩

/-- **Without an escaped line feed, the rule is the scan.** -/
theorem pieces_strings_eq_scanLiterals {t : Text} (ht : ¬ ['\\', '\n'] <:+: t) :
    Rule.strings.pieces t = scanLiterals t := by
  induction hn : t.length using Nat.strongRecOn generalizing t with
  | _ n ih =>
    subst hn
    cases t with
    | nil => rw [scanLiterals, Rule.pieces_nil]
    | cons c rest =>
      have hrest : ¬ ['\\', '\n'] <:+: rest := by
        intro h
        exact ht (h.trans (List.suffix_cons c rest).isInfix)
      have hplain : Rule.strings.pieces rest = scanLiterals rest := ih _ (by simp) hrest rfl
      rw [scanLiterals]
      cases hq : isQuote c with
      | false =>
        rw [pieces_strings_of_none (stringLiteral_of_not_quote hq none rest), hplain]
        rfl
      | true =>
        rw [if_pos rfl]
        split
        · rename_i us r hus
          obtain ⟨hfits, rfl⟩ := unitsTo_eq_some hus
          have hfeed : .escaped '\n' ∉ us := by
            intro hmem
            exact hrest ((isInfix_spell hmem).trans (List.prefix_append _ _).isInfix)
          have hr : ¬ ['\\', '\n'] <:+: r := by
            intro h
            exact hrest (h.trans ⟨spell us ++ [c], [], by simp⟩)
          rw [pieces_strings_of_units hq hfits hfeed, ih r.length ?_ hr rfl]
          simp only [List.length_cons, List.length_append]
          omega
        · rename_i hnone
          have hmatch : stringLiteral none c rest = none := by
            rw [stringLiteral_of_quote hq, throughQuote_eq, hnone]
            rfl
          rw [pieces_strings_of_none hmatch, hplain]

theorem apply_strings_ofPlain (v : Vocabulary) (t : Text) (n : Tally) :
    (Pass.strings.apply v ⟨.ofPlain t, n⟩).stream = .ofSegments (Rule.strings.pieces t) :=
  SegmentStream.replacePlain_ofPlain (Rule.pieces_nil _) t

/-- **Strings are found by a scan from left to right.**  On a text in which no backslash is
    directly in front of a line feed, the pass makes the segments of the scan that reads from
    a quote to the next quote of its kind that is not within a unit, and passes a quote over
    that is never closed.  A quote in what would have been its literal may open another. -/
theorem strings_found_by_scan (v : Vocabulary) (n : Tally) {t : Text}
    (ht : ¬ ['\\', '\n'] <:+: t) :
    (Pass.strings.apply v ⟨.ofPlain t, n⟩).stream = .ofSegments (scanLiterals t) := by
  rw [apply_strings_ofPlain, pieces_strings_eq_scanLiterals ht]

/-- Quotes that are never closed, in front of a literal and behind it. -/
theorem strings_found_by_scan_of_open_quotes :
    ¬ ['\\', '\n'] <:+: "it's \"a\\\"b\" \\ “".toList ∧
      (Pass.strings.apply .builtin
        ⟨.ofPlain "it's \"a\\\"b\" \\ “".toList, .zero⟩).stream.segments =
        [.plain "it's ".toList, ⟨.string, "\"a\\\"b\"".toList⟩, .plain " \\ “".toList] := by
  have hfeed : ¬ ['\\', '\n'] <:+: "it's \"a\\\"b\" \\ “".toList := by decide +kernel
  refine ⟨hfeed, ?_⟩
  rw [strings_found_by_scan .builtin .zero hfeed]
  decide +kernel

/-! ## The first literal -/

/-- The first string literal of a stream. -/
def SegmentStream.firstLiteral (s : SegmentStream) : Option Segment :=
  s.segments.find? fun x => x.kind == .string

theorem firstLiteral_ofSegments {l : List Segment} (hl : ∀ x ∈ l, x.text ≠ []) :
    (SegmentStream.ofSegments l).firstLiteral = l.find? fun x => x.kind == .string := by
  have hplain : ∀ x : Segment, x.isPlain = true → (x.kind == .string) = false := by
    intro x hx
    rw [Segment.eq_plain_of_isPlain hx]
    rfl
  rw [SegmentStream.firstLiteral, ← List.head?_filter, ← List.head?_filter,
    SegmentStream.filter_ofSegments hplain hl]

theorem pieces_strings_append {p : Text} (hp : ∀ c ∈ p, isQuote c = false) (t : Text) :
    Rule.strings.pieces (p ++ t) = (p.map fun c => .plain [c]) ++ Rule.strings.pieces t :=
  Rule.pieces_append_of_none looksAhead_stringLiteral fun c q hs =>
    stringLiteral_of_not_quote (hp c (hs.subset List.mem_cons_self)) none (q ++ t)

theorem units_of_mem_pieces {t : Text} {x : Segment} (hx : x ∈ Rule.strings.pieces t)
    (hk : x.kind = .string) : ∃ q us, isQuote q = true ∧ (∀ u ∈ us, u.Fits q) ∧
      .escaped '\n' ∉ us ∧ x.text = q :: (spell us ++ [q]) := by
  rcases Rule.isPlain_or_of_mem_pieces hx with hx | ⟨w, hw, hx⟩
  · rw [Segment.eq_plain_of_isPlain hx] at hk
    cases hk
  · rw [List.mem_singleton.1 hx]
    refine Matcher.of_matched_mem_cuts (P := fun w => ∃ q us, isQuote q = true ∧
      (∀ u ∈ us, u.Fits q) ∧ .escaped '\n' ∉ us ∧ w = q :: (spell us ++ [q])) ?_ hw
    intro before q rest n hm
    have hliteral : stringLiteral before q rest = some n := hm
    obtain ⟨hq, us, r, hus, hfeed, rfl, rfl⟩ := exists_units_of_stringLiteral hliteral
    refine ⟨q, us, hq, hus, hfeed, ?_⟩
    rw [List.take_length_add_append]
    rfl

/-- A literal tells its quote and its units. -/
theorem units_injective {q q' : Char} (hq : isQuote q = true) {us us' : List LiteralUnit}
    (hus : ∀ u ∈ us, u.Fits q) (hus' : ∀ u ∈ us', u.Fits q')
    (h : q :: (spell us ++ [q]) = q' :: (spell us' ++ [q'])) : us = us' := by
  obtain ⟨rfl, h⟩ := List.cons.inj h
  have hread := unitsTo_spell_append (ne_backslash_of_isQuote hq) hus []
  rw [h, unitsTo_spell_append (ne_backslash_of_isQuote hq) hus'] at hread
  exact (Prod.mk.inj (Option.some.inj hread)).1.symm

/-- **A literal is found as it is written, unless a line feed is escaped in it.** -/
theorem first_literal_whole_iff (v : Vocabulary) (n : Tally) {q : Char} (hq : isQuote q = true)
    {p : Text} (hp : ∀ c ∈ p, isQuote c = false) {us : List LiteralUnit}
    (hus : ∀ u ∈ us, u.Fits q) (r : Text) :
    (Pass.strings.apply v ⟨.ofPlain (p ++ q :: (spell us ++ q :: r)), n⟩).stream.firstLiteral =
      some ⟨.string, q :: (spell us ++ [q])⟩ ↔ .escaped '\n' ∉ us := by
  rw [apply_strings_ofPlain,
    firstLiteral_ofSegments (text_ne_nil_of_mem_pieces (strings_mem_rules v) _)]
  constructor
  · intro hfirst
    obtain ⟨q', us', -, hus', hfeed, htext⟩ :=
      units_of_mem_pieces (List.mem_of_find?_eq_some hfirst) rfl
    rwa [units_injective hq hus hus' htext]
  · intro hfeed
    have hplain : (p.map fun c => Segment.plain [c]).find? (fun x => x.kind == .string) = none := by
      simp [Segment.plain]
    rw [pieces_strings_append hp, pieces_strings_of_units hq hus hfeed, List.find?_append, hplain]
    rfl

/-- A literal of an escaped quote, an escaped backslash and a line feed that is not escaped. -/
theorem first_literal_whole_of_escapes :
    isQuote '"' = true ∧ (∀ c ∈ ['x', '='], isQuote c = false) ∧
      (∀ u ∈ [LiteralUnit.escaped '"', .escaped '\\', .bare '\n'], u.Fits '"') ∧
      (Pass.strings.apply .builtin
        ⟨.ofPlain "x=\"\\\"\\\\\n\" + 'y'".toList, .zero⟩).stream.firstLiteral =
        some ⟨.string, "\"\\\"\\\\\n\"".toList⟩ := by
  have hfront : ∀ c ∈ ['x', '='], isQuote c = false := by simp [isQuote]
  have hunits : ∀ u ∈ [LiteralUnit.escaped '"', .escaped '\\', .bare '\n'], u.Fits '"' := by
    decide
  exact ⟨rfl, hfront, hunits,
    (first_literal_whole_iff .builtin .zero rfl hfront hunits " + 'y'".toList).2 (by decide)⟩

/-- **A literal with an escaped line feed is not found.** -/
theorem literal_lost_at_line_feed :
    isQuote '"' = true ∧ (∀ u ∈ [LiteralUnit.escaped '\n'], u.Fits '"') ∧
      (Pass.strings.apply .builtin
        ⟨.ofPlain ('"' :: (spell [.escaped '\n'] ++ ['"'])), .zero⟩).stream.firstLiteral =
        none := by
  refine ⟨rfl, by decide, ?_⟩
  rw [apply_strings_ofPlain]
  decide +kernel

end CodeSnippets

/-
  Nothing is left for a pass that has run.

  A pass cuts plain text at its matches, and a matcher that looks around sees less in a part
  than in the whole: the character in front of the part is gone, and so is the text behind
  it.  Yet no match comes into being at such a cut, neither one of the rule that has made it
  nor one of another rule of the same pass.

  * `Matcher.Absent`: no match begins anywhere in a text; `SegmentStream.Lacks`: nor in the
    plain text of a stream;
  * `none_of_segmentsOf`: where a plain character stands in what a rule makes of a text, none of
    its matches begins;
  * `Matcher.SealedBy`: what begins in a part, begun or ended by a match of another matcher,
    begins in the whole;
  * `SegmentStream.Lacks.run`, `SegmentStream.lacks_run_self`: so a rule leaves none of its own
    matches and makes none of those that another rule has not left;
  * `Pass.lacks_apply`: a pass leaves no match of any of its rules;
  * `passes_idempotent`: a pass that runs again changes nothing.
-/
import CodeSnippets.Proofs.Highlight.CommentScans
import CodeSnippets.Proofs.Highlight.OperatorSegments
import CodeSnippets.Proofs.Highlight.StringLiterals
import CodeSnippets.Proofs.Highlight.WordEdges

namespace CodeSnippets

open Segment (textOf)

/-! ## Texts without matches -/

/-- No match begins anywhere in a text that stands alone. -/
def Matcher.Absent (m : Matcher) (t : Text) : Prop :=
  ∀ p c q, t = p ++ c :: q → m p.getLast? c q = none

theorem Matcher.Absent.cuts_eq {m : Matcher} {t : Text} (h : m.Absent t) :
    m.cuts t = t.map .kept := by
  -- over what is left of the text behind a part `p`
  have hbehind : ∀ p u, t = p ++ u → m.cutsFrom p.getLast? u [] = u.map .kept := by
    intro p u
    induction u generalizing p with
    | nil => exact fun _ => Matcher.cutsFrom_nil m _
    | cons c u ih =>
      intro ht
      rw [Matcher.cutsFrom_cons_of_none (h p c u ht), ← List.getLast?_concat (l := p),
        ih (p ++ [c]) (by rw [ht, List.append_cons])]
      rfl
  exact hbehind [] t rfl

theorem Matcher.Absent.occurrences_eq {m : Matcher} {t : Text} (h : m.Absent t) :
    m.occurrences t = [] := by
  have hkept : ∀ (t : Text) (n : Nat), occurrencesFrom n (t.map .kept) = [] := by
    intro t
    induction t with
    | nil => exact fun _ => rfl
    | cons c t ih => exact fun n => ih (n + 1)
  rw [occurrences, h.cuts_eq, hkept]

/-- No match begins anywhere in the plain text of a stream. -/
def SegmentStream.Lacks (s : SegmentStream) (m : Matcher) : Prop :=
  ∀ t ∈ s.plainTexts, m.Absent t

/-- A rule does nothing to a stream without its matches. -/
theorem Rule.run_eq_self {r : Rule} {g : Progress} (h : g.stream.Lacks r.matcher) :
    r.run g = g := by
  have hpieces : ∀ t ∈ g.stream.plainTexts, r.pieces t = t.map fun c => .plain [c] := by
    intro t ht
    rw [pieces, (h t ht).cuts_eq, flatMap_ofCut_kept]
  have hzero : Tally.ofPieces (g.stream.plainTexts.flatMap r.pieces) = .zero := by
    refine Tally.ofPieces_eq_zero fun x hx => ?_
    obtain ⟨t, ht, hx⟩ := List.mem_flatMap.1 hx
    rw [hpieces t ht] at hx
    obtain ⟨c, -, rfl⟩ := List.mem_map.1 hx
    simp [Segment.plain]
  rw [run, SegmentStream.replacePlain_eq_self hpieces, hzero, Tally.add_zero]

/-! ## Plain characters in what a rule makes -/

namespace Segment

/-- The characters of some segments, each with the kind of its segment. -/
def kinds (l : List Segment) : List (Char × Kind) :=
  l.flatMap fun x => x.text.map fun c => (c, x.kind)

theorem kinds_cons (x : Segment) (l : List Segment) :
    kinds (x :: l) = x.text.map (fun c => (c, x.kind)) ++ kinds l := rfl

theorem kinds_append (k l : List Segment) : kinds (k ++ l) = kinds k ++ kinds l := by
  rw [kinds, List.flatMap_append]
  rfl

theorem map_fst_kinds (l : List Segment) : (kinds l).map Prod.fst = textOf l := by
  induction l with
  | nil => rfl
  | cons x l ih =>
    rw [kinds_cons, List.map_append, List.map_map, ih, textOf_cons]
    exact congrArg (· ++ textOf l) (List.map_id x.text)

theorem kinds_attach (s : Segment) (l : List Segment) : kinds (s.attach l) = kinds (s :: l) := by
  cases l with
  | nil => by_cases hs : s.text = [] <;> simp [attach, kinds, hs]
  | cons next rest =>
    by_cases hs : s.text = []
    · simp [attach, kinds, hs]
    · by_cases hp : s.isPlain && next.isPlain
      · simp only [attach, hs, hp, if_true, if_false]
        simp only [isPlain, Bool.and_eq_true, beq_iff_eq] at hp
        simp [kinds, plain, hp]
      · simp [attach, hs, hp]

/-- The normal form changes no kind. -/
theorem kinds_ofSegments (l : List Segment) :
    kinds (SegmentStream.ofSegments l).segments = kinds l := by
  induction l with
  | nil => rfl
  | cons x l ih => rw [SegmentStream.segments_ofSegments_cons, kinds_attach, kinds_cons, ih,
      kinds_cons]

end Segment

open Segment (kinds)

section

variable {m : Matcher} {kd : Kind}

theorem map_fst_kinds_of_cutsFrom (m : Matcher) (kd : Kind) (before : Option Char) (t : Text) :
    (kinds ((m.cutsFrom before t []).flatMap (Rule.wrap m kd).ofCut)).map Prod.fst = t := by
  rw [Segment.map_fst_kinds, textOf_flatMap_ofCut_wrap, m.text_cutsFrom]

/-- **Where a plain character stands, no match begins.** -/
theorem none_of_cutsFrom (hkd : kd ≠ .plain) (before : Option Char) (t : Text) :
    ∀ a c b, kinds ((m.cutsFrom before t []).flatMap (Rule.wrap m kd).ofCut) =
      a ++ (c, .plain) :: b →
      m ((a.map Prod.fst).getLast?.or before) c (b.map Prod.fst) = none := by
  refine Matcher.cutsFrom_induction
    (P := fun before _ cs => ∀ a c b,
      kinds (cs.flatMap (Rule.wrap m kd).ofCut) = a ++ (c, .plain) :: b →
      m ((a.map Prod.fst).getLast?.or before) c (b.map Prod.fst) = none) ?_ ?_ ?_ before t
  · intro before a c b h
    simp [kinds] at h
  · intro before d rest hm ih a c b h
    replace h : (d, Kind.plain) :: kinds ((m.cutsFrom (some d) rest []).flatMap
        (Rule.wrap m kd).ofCut) = a ++ (c, .plain) :: b := h
    cases a with
    | nil =>
      obtain ⟨hd, rfl⟩ := List.cons.inj h
      obtain ⟨rfl, -⟩ := Prod.mk.inj hd
      rwa [map_fst_kinds_of_cutsFrom]
    | cons x a =>
      obtain ⟨rfl, hrest⟩ := List.cons.inj h
      rw [List.map_cons, getLast?_cons_or]
      exact ih a c b hrest
  · intro before d rest n hm ih a c b h
    replace h : (d :: rest.take n).map (fun e => (e, kd)) ++ kinds ((m.cutsFrom
        (some ((rest.take n).getLastD d)) (rest.drop n) []).flatMap (Rule.wrap m kd).ofCut) =
          a ++ (c, .plain) :: b := h
    -- no character of a match is plain
    have hkind : ∀ a', (d :: rest.take n).map (fun e => (e, kd)) ≠ a ++ (c, .plain) :: a' := by
      intro a' ha'
      have hmem : (c, Kind.plain) ∈ (d :: rest.take n).map fun e => (e, kd) := by
        rw [ha']
        exact List.mem_append_cons_self
      obtain ⟨e, -, he⟩ := List.mem_map.1 hmem
      exact hkd (Prod.mk.inj he).2
    obtain ⟨a', rfl, ha'⟩ : ∃ a', a = (d :: rest.take n).map (fun e => (e, kd)) ++ a' ∧
        kinds ((m.cutsFrom (some ((rest.take n).getLastD d)) (rest.drop n) []).flatMap
          (Rule.wrap m kd).ofCut) = a' ++ (c, .plain) :: b := by
      rcases List.append_eq_append_iff.1 h with ⟨a', ha, h⟩ | ⟨_ | ⟨x, a'⟩, hmatch, h⟩
      · exact ⟨a', ha, h⟩
      · exact ⟨[], by rw [hmatch, List.append_nil, List.append_nil], h.symm⟩
      · obtain ⟨rfl, -⟩ := List.cons.inj h
        exact absurd hmatch (hkind a')
    have hfst : ((d :: rest.take n).map fun e => (e, kd)).map Prod.fst = d :: rest.take n := by
      rw [List.map_map]
      exact List.map_id _
    rw [List.map_append, hfst, getLast?_match_or]
    exact ih a' c b ha'

/-- No match begins where a rule has left plain text. -/
theorem none_of_segmentsOf (hkd : kd ≠ .plain) {t p q : Text} {c : Char} {k l : List Segment}
    (h : (Rule.wrap m kd).segmentsOf (.plain t) = k ++ .plain (p ++ c :: q) :: l) :
    m (textOf k ++ p).getLast? c (q ++ textOf l) = none := by
  have hkinds : kinds ((m.cutsFrom none t []).flatMap (Rule.wrap m kd).ofCut) =
      (kinds k ++ p.map fun d => (d, .plain)) ++
        (c, .plain) :: (q.map (fun d => (d, .plain)) ++ kinds l) := by
    have hsegments := congrArg kinds h
    rw [Rule.segmentsOf_plain, Segment.kinds_ofSegments] at hsegments
    refine hsegments.trans ?_
    simp [Segment.kinds_append, Segment.kinds_cons, Segment.plain]
  have hnone := none_of_cutsFrom hkd none t _ _ _ hkinds
  rw [Option.or_none] at hnone
  simpa [Segment.map_fst_kinds, Function.comp_def] using hnone

end

/-! ## Parts between matches -/

/-- What begins in a part of a text begins in the whole, if in front of the part and behind it
    there is nothing or a match of `m'`. -/
structure Matcher.SealedBy (m m' : Matcher) : Prop where
  behind : ∀ {before d rest n c q e}, m' before d rest = some n → rest.drop n = c :: (q ++ e) →
    m none c q ≠ none → m (some ((rest.take n).getLastD d)) c q ≠ none
  front : ∀ {before c q d rest n}, m' (some (q.getLastD c)) d rest = some n →
    m before c q ≠ none → m before c (q ++ d :: rest) ≠ none

section

variable {m m' : Matcher} {kd : Kind} {g : Progress}

theorem Matcher.SealedBy.ne_none (h : m.SealedBy m') (hkd : kd ≠ .plain) {t p q : Text} {c : Char}
    {k l : List Segment}
    (hs : (Rule.wrap m' kd).segmentsOf (.plain t) = k ++ .plain (p ++ c :: q) :: l)
    (hm : m p.getLast? c q ≠ none) : m (textOf k ++ p).getLast? c (q ++ textOf l) ≠ none := by
  have hnormal := (SegmentStream.ofSegments ((Rule.wrap m' kd).pieces t)).normal
  rw [← Rule.segmentsOf_plain, hs] at hnormal
  have hbehind : m (textOf k ++ p).getLast? c q ≠ none := by
    by_cases hp : p = []
    · subst hp
      rw [List.append_nil]
      rcases List.eq_nil_or_concat' k with rfl | ⟨k, z, rfl⟩
      · exact hm
      · rw [List.append_assoc, List.singleton_append] at hs hnormal
        have hz := hnormal.not_isPlain_of_append rfl
        obtain ⟨-, d, rest, n, hmatch, htext, hrest⟩ := Rule.exists_match_of_segmentsOf hkd hz hs
        have hlast : (textOf (k ++ [z])).getLast? = some ((rest.take n).getLastD d) := by
          rw [Segment.textOf_concat, htext, getLast?_append_cons]
        rw [hlast]
        exact h.behind hmatch hrest.symm hm
    · rwa [List.getLast?_append_of_ne_nil _ hp]
  cases l with
  | nil => rwa [Segment.textOf_nil, List.append_nil]
  | cons z l =>
    have hsplit : k ++ .plain (p ++ c :: q) :: z :: l = (k ++ [.plain (p ++ c :: q)]) ++ z :: l := by
      rw [List.append_assoc, List.singleton_append]
    have hz : z.isPlain = false := by
      rw [← Bool.not_eq_true]
      intro hz
      cases hnormal.not_isPlain_of_append hz
    rw [hsplit] at hs
    obtain ⟨-, d, rest, n, hmatch, htext, hrest⟩ := Rule.exists_match_of_segmentsOf hkd hz hs
    have hlast : (textOf (k ++ [.plain (p ++ c :: q)])).getLast? = some (q.getLastD c) := by
      rw [Segment.textOf_concat, Segment.plain_text, ← List.append_assoc, getLast?_append_cons]
    have hback : textOf (z :: l) = d :: rest := by
      rw [Segment.textOf_cons, htext, hrest, List.cons_append, List.take_append_drop]
    rw [hlast] at hmatch
    rw [hback]
    exact h.front hmatch hbehind

/-- Plain text that a rule leaves is a part of plain text. -/
theorem exists_segmentsOf_of_mem_plainTexts {r : Rule} {u : Text}
    (hu : u ∈ (r.run g).stream.plainTexts) :
    ∃ t ∈ g.stream.plainTexts, ∃ k l, r.segmentsOf (.plain t) = k ++ .plain u :: l := by
  obtain ⟨k, l, hsplit⟩ := List.append_of_mem (SegmentStream.mem_plainTexts_iff.1 hu)
  obtain ⟨a, y, b, k', l', hsegments, hy, -, -⟩ := Rule.exists_of_segments_run hsplit
  have hplain : y.isPlain = true := by
    rcases Rule.isPlain_or_eq_of_mem_segmentsOf (hy ▸ List.mem_append_cons_self) with hp | rfl
    · exact hp
    · rfl
  rw [Segment.eq_plain_of_isPlain hplain] at hsegments hy
  refine ⟨y.text, SegmentStream.mem_plainTexts_iff.2 ?_, k', l', hy⟩
  rw [hsegments]
  exact List.mem_append_cons_self

/-- **A rule leaves none of its own matches.** -/
theorem SegmentStream.lacks_run_self (h : m.SealedBy m) (hkd : kd ≠ .plain) :
    ((Rule.wrap m kd).run g).stream.Lacks m := by
  rintro u hu p c q rfl
  obtain ⟨t, -, k, l, hs⟩ := exists_segmentsOf_of_mem_plainTexts hu
  by_contra hm
  exact h.ne_none hkd hs hm (none_of_segmentsOf hkd hs)

/-- **A rule makes no matches of another one.** -/
theorem SegmentStream.Lacks.run (hg : g.stream.Lacks m) (h : m.SealedBy m') (hkd : kd ≠ .plain) :
    ((Rule.wrap m' kd).run g).stream.Lacks m := by
  rintro u hu p c q rfl
  obtain ⟨t, ht, k, l, hs⟩ := exists_segmentsOf_of_mem_plainTexts hu
  by_contra hm
  have htext : t = (textOf k ++ p) ++ c :: (q ++ textOf l) := by
    have hwhole := textOf_segmentsOf_wrap m' kd (.plain t)
    rw [hs] at hwhole
    simpa using hwhole.symm
  exact h.ne_none hkd hs hm (hg t ht _ _ _ htext)

end

/-! ## Each matcher -/

/-- A match stays a match if more text follows. -/
def Matcher.Extends (m : Matcher) : Prop :=
  ∀ before c q e, m before c q ≠ none → m before c (q ++ e) ≠ none

theorem Matcher.SealedBy.of_looksAhead {m m' : Matcher} (hm : m.LooksAhead) (he : m.Extends) :
    m.SealedBy m' where
  behind _ _ h := hm none _ _ _ ▸ h
  front _ h := he _ _ _ _ h

theorem extends_lineComment : lineComment.Extends := by
  intro before c q e h
  obtain ⟨n, hm⟩ := Option.ne_none_iff_exists'.1 h
  obtain ⟨body, rfl, rfl, -, -⟩ := lineComment_eq_some hm
  simp [lineComment]

theorem extends_blockComment : blockComment.Extends := by
  intro before c q e h
  obtain ⟨opened, hopened, hclosed⟩ := exists_opened_of_blockComment h
  obtain ⟨rfl, rfl⟩ := List.cons.inj hopened
  rw [List.cons_append, blockComment_open, Ne, Option.map_eq_none_iff,
    firstOccurrence_eq_none_iff (by simp), not_not]
  exact hclosed.trans (List.prefix_append opened e).isInfix

theorem extends_stringLiteral : stringLiteral.Extends := by
  intro before c q e h
  obtain ⟨n, hm⟩ := Option.ne_none_iff_exists'.1 h
  obtain ⟨hq, us, r, hus, hfeed, rfl, -⟩ := exists_units_of_stringLiteral hm
  rw [List.append_assoc, List.cons_append, stringLiteral_spell hq hus hfeed]
  simp

theorem extends_bracket : bracket.Extends := fun _ _ _ _ h => h

theorem functionCall_ne_none_iff {before : Option Char} {c : Char} {rest : Text} :
    functionCall before c rest ≠ none ↔
      isIdentifierStart c = true ∧ allowsWordAfter before = true ∧
        (Text.trimStart (rest.dropWhile isAsciiIdentifierPart)).head? = some '(' := by
  simp [functionCall, and_assoc]

theorem extends_functionCall : functionCall.Extends := by
  intro before c q e h
  obtain ⟨hc, hbefore, hopen⟩ := functionCall_ne_none_iff.1 h
  refine functionCall_ne_none_iff.2 ⟨hc, hbefore, ?_⟩
  have hbehind : q.dropWhile isAsciiIdentifierPart ≠ [] := by
    intro hnil
    rw [hnil] at hopen
    cases hopen
  have hspace : (q.dropWhile isAsciiIdentifierPart).dropWhile isWhitespace ≠ [] := by
    intro hnil
    rw [Text.trimStart, hnil] at hopen
    cases hopen
  rw [Text.trimStart] at hopen ⊢
  rw [List.dropWhile_append, if_neg (by simpa using hbehind), List.dropWhile_append,
    if_neg (by simpa using hspace), List.head?_append_of_ne_nil _ hspace]
  exact hopen

theorem sealedBy_functionCall : functionCall.SealedBy functionCall where
  behind hm hrest h := by
    obtain ⟨hc, -, -⟩ := functionCall_ne_none_iff.1 h
    have hbetween := beginsBetween_of_functionCall hm
    rw [hrest, beginsBetween_cons] at hbetween
    rw [isIdentifierPart_of_ascii (by rw [isAsciiIdentifierPart, hc, Bool.true_or])] at hbetween
    cases hbetween
  front _ h := extends_functionCall _ _ _ _ h

theorem sealedBy_wholeWord (w w' : Word) :
    (wholeWord w.spelling).SealedBy (wholeWord w'.spelling) where
  behind hm hrest h := by
    obtain ⟨-, -, hbehind⟩ := wholeWord_eq_some w'.spelling_ne_nil hm
    rw [hrest, allowsWordBefore_iff, beginsBetween_cons] at hbehind
    exact absurd (wholeWord_of_other w hbehind) h
  front {before c q d rest n} hm h := by
    obtain ⟨k, hk⟩ := Option.ne_none_iff_exists'.1 h
    obtain ⟨hword, hbefore, hbehind⟩ := wholeWord_eq_some w.spelling_ne_nil hk
    obtain ⟨hedge, hamp⟩ := allowsWordAfter_iff.1 hbefore
    have hid : ∀ x ∈ c :: q.take k, isIdentifierPart x = true := by
      rw [hword]
      exact w.isIdentifierPart_of_mem
    have hends : BeginsBetween (q.drop k ++ d :: rest) := by
      by_cases hdrop : q.drop k = []
      · -- the other word is not directly behind this one
        obtain ⟨-, hafter, -⟩ := wholeWord_eq_some w'.spelling_ne_nil hm
        have hlast := (allowsWordAfter_iff.1 hafter).1 _ rfl
        have htake : q.take k = q := by
          have hq := List.take_append_drop k q
          rwa [hdrop, List.append_nil] at hq
        rw [htake] at hid
        rw [hid _ List.getLastD_mem_cons] at hlast
        cases hlast
      · exact (beginsBetween_append hdrop).2 (allowsWordBefore_iff.1 hbehind)
    have hsplit : q ++ d :: rest = q.take k ++ (q.drop k ++ d :: rest) := by
      rw [← List.append_assoc, List.take_append_drop]
    rw [hsplit, wholeWord_of_run w hid hends hedge, if_pos ⟨hamp, hword⟩]
    simp

theorem number_behind {before : Option Char} {c : Char} {rest : Text} {n : Nat}
    (h : number before c rest = some n) :
    (∀ x ∈ before, isWordCharacter x = false) ∧
      ∀ x ∈ (rest.drop n).head?, isWordCharacter x = false := by
  rw [← getLast?_toList before] at h ⊢
  obtain ⟨d, b, hrun, -, ⟨-, hdrop⟩ | ⟨f, r, hfraction, -, -, hdrop⟩⟩ := number_cases h
  · rw [hdrop]
    exact ⟨hrun.front, hrun.behind⟩
  · rw [hdrop]
    exact ⟨hrun.front, hfraction.behind⟩

theorem sealedBy_number : number.SealedBy number where
  behind hm hrest h := by
    obtain ⟨k, hk⟩ := Option.ne_none_iff_exists'.1 h
    have hword := (number_behind hm).2 _ (by rw [hrest]; rfl)
    rw [isWordCharacter_of_isAsciiDigit (number_eq_some hk).1] at hword
    cases hword
  front {before c q d rest n} hm h := by
    obtain ⟨k, hk⟩ := Option.ne_none_iff_exists'.1 h
    rw [← getLast?_toList before] at hk ⊢
    obtain ⟨e, b, hrun, hsplit, -⟩ := number_cases hk
    obtain ⟨x, u, rfl⟩ := List.exists_cons_of_ne_nil hrun.ne_nil
    rw [List.cons_append] at hsplit
    obtain ⟨rfl, rfl⟩ := List.cons.inj hsplit
    have hb : b ≠ [] := by
      rintro rfl
      -- the other number is not directly behind this one
      have hlast := (number_behind hm).1 _ rfl
      rw [List.append_nil] at hlast
      rw [isWordCharacter_of_isAsciiDigit (hrun.digits _ List.getLastD_mem_cons)] at hlast
      cases hlast
    rw [List.append_assoc]
    refine number_ne_none ⟨hrun.ne_nil, hrun.digits, hrun.front, ?_⟩
    rw [List.head?_append_of_ne_nil b hb]
    exact hrun.behind

/-- **No rule of a pass makes matches of the pass.** -/
theorem sealedBy_of_mem_rules {v : Vocabulary} {p : Pass} (hp : p ≠ .operators) {r r' : Rule}
    (hr : r ∈ p.rules v) (hr' : r' ∈ p.rules v) : r.matcher.SealedBy r'.matcher := by
  cases p with
  | operators => exact absurd rfl hp
  | platformGlobals | keywords =>
    obtain ⟨w, -, rfl⟩ := List.mem_map.1 hr
    obtain ⟨w', -, rfl⟩ := List.mem_map.1 hr'
    exact sealedBy_wholeWord w w'
  | lineComments =>
    rw [List.mem_singleton.1 hr, List.mem_singleton.1 hr']
    exact .of_looksAhead looksAhead_lineComment extends_lineComment
  | blockComments =>
    rw [List.mem_singleton.1 hr, List.mem_singleton.1 hr']
    exact .of_looksAhead looksAhead_blockComment extends_blockComment
  | strings =>
    rw [List.mem_singleton.1 hr, List.mem_singleton.1 hr']
    exact .of_looksAhead looksAhead_stringLiteral extends_stringLiteral
  | numbers =>
    rw [List.mem_singleton.1 hr, List.mem_singleton.1 hr']
    exact sealedBy_number
  | functionCalls =>
    rw [List.mem_singleton.1 hr, List.mem_singleton.1 hr']
    exact sealedBy_functionCall
  | brackets =>
    rw [List.mem_singleton.1 hr, List.mem_singleton.1 hr']
    exact .of_looksAhead (fun _ _ _ _ => rfl) extends_bracket

/-! ## Passes -/

section

variable {v : Vocabulary} {p : Pass} {g : Progress}

/-- What rules without the matches of another one leave. -/
theorem SegmentStream.Lacks.foldl {m : Matcher} {rs : List Rule}
    (hrs : ∀ r ∈ rs, ∃ m' k, k ≠ .plain ∧ r = .wrap m' k)
    (hm : ∀ r ∈ rs, m.SealedBy r.matcher) (hg : g.stream.Lacks m) :
    (rs.foldl (fun g r => r.run g) g).stream.Lacks m := by
  induction rs generalizing g with
  | nil => exact hg
  | cons r rs ih =>
    simp only [List.forall_mem_cons] at hrs hm
    obtain ⟨m', k, hk, rfl⟩ := hrs.1
    exact ih hrs.2 hm.2 (hg.run hm.1 hk)

/-- Rules that make no matches of each other leave none. -/
theorem lacks_foldl {rs : List Rule} (hrs : ∀ r ∈ rs, ∃ m' k, k ≠ .plain ∧ r = .wrap m' k)
    (hm : ∀ r ∈ rs, ∀ r' ∈ rs, r.matcher.SealedBy r'.matcher) :
    ∀ r ∈ rs, (rs.foldl (fun g r => r.run g) g).stream.Lacks r.matcher := by
  induction rs generalizing g with
  | nil => simp
  | cons r rs ih =>
    intro s hs
    rcases List.mem_cons.1 hs with rfl | hs
    · obtain ⟨m', k, hk, rfl⟩ := hrs _ List.mem_cons_self
      have hself : ((Rule.wrap m' k).run g).stream.Lacks m' :=
        SegmentStream.lacks_run_self (hm _ List.mem_cons_self _ List.mem_cons_self) hk
      rw [List.foldl_cons]
      exact hself.foldl (fun _ hr' => hrs _ (List.mem_cons_of_mem _ hr')) fun _ hr' =>
        hm _ List.mem_cons_self _ (List.mem_cons_of_mem _ hr')
    · exact ih (fun r hr => hrs r (List.mem_cons_of_mem _ hr)) (fun r hr r' hr' =>
        hm r (List.mem_cons_of_mem _ hr) r' (List.mem_cons_of_mem _ hr')) s hs

theorem absent_spacedOperator {o : Operator} {t : Text} (h : ¬ o.escaped <:+: t) :
    (spacedOperator o).Absent t := by
  rintro p c q rfl
  refine spacedOperator_eq_none_iff.2 fun hp => h ?_
  exact (hp.isInfix.trans (List.dropWhile_suffix _).isInfix).trans (List.suffix_append p _).isInfix

/-- **A pass leaves no match of any of its rules.** -/
theorem Pass.lacks_apply (v : Vocabulary) (p : Pass) (g : Progress) :
    ∀ r ∈ p.rules v, (p.apply v g).stream.Lacks r.matcher := by
  by_cases hp : p = .operators
  · subst hp
    intro r hr
    obtain ⟨o, ho, rfl⟩ := List.mem_map.1 hr
    exact fun t ht => absent_spacedOperator (not_isInfix_of_mem_plainTexts ho ht)
  · exact lacks_foldl (fun r hr => eq_wrap_of_mem_rules hp hr)
      fun r hr r' hr' => sealedBy_of_mem_rules hp hr hr'

theorem Pass.apply_eq_self (h : ∀ r ∈ p.rules v, g.stream.Lacks r.matcher) : p.apply v g = g := by
  unfold Pass.apply
  generalize p.rules v = rs at h
  induction rs with
  | nil => rfl
  | cons r rs ih =>
    simp only [List.forall_mem_cons] at h
    rw [List.foldl_cons, Rule.run_eq_self h.1, ih h.2]

/-- **A pass that runs again changes nothing.**  Whatever stream a pass runs on, it leaves
    plain text in which none of its rules finds a match, and when it runs again, the stream
    and the tally stay as they are. -/
theorem passes_idempotent (v : Vocabulary) (p : Pass) (g : Progress) :
    p.apply v (p.apply v g) = p.apply v g ∧
    ∀ r ∈ p.rules v, ∀ t ∈ (p.apply v g).stream.plainTexts, r.matcher.occurrences t = [] :=
  ⟨Pass.apply_eq_self (Pass.lacks_apply v p g),
    fun r hr t ht => (Pass.lacks_apply v p g r hr t ht).occurrences_eq⟩

end

/-- The digit behind the point is no number, neither in the text nor in what is left of it. -/
theorem passes_idempotent_of_fraction :
    (Pass.numbers.apply plusOnly ⟨.ofPlain "1.5px".toList, .zero⟩).stream.segments =
      [⟨.number, "1".toList⟩, .plain ".5px".toList] ∧
    Pass.numbers.apply plusOnly (Pass.numbers.apply plusOnly ⟨.ofPlain "1.5px".toList, .zero⟩) =
      Pass.numbers.apply plusOnly ⟨.ofPlain "1.5px".toList, .zero⟩ ∧
    number.occurrences ".5px".toList = [] := by
  have hsegments : (Pass.numbers.apply plusOnly ⟨.ofPlain "1.5px".toList, .zero⟩).stream.segments =
      [⟨.number, "1".toList⟩, .plain ".5px".toList] := by decide +kernel
  have hrule : Rule.wrap number .number ∈ Pass.numbers.rules plusOnly := List.mem_singleton.2 rfl
  have hplain : ".5px".toList ∈
      (Pass.numbers.apply plusOnly ⟨.ofPlain "1.5px".toList, .zero⟩).stream.plainTexts := by
    rw [SegmentStream.mem_plainTexts_iff, hsegments]
    exact List.mem_cons_of_mem _ List.mem_cons_self
  obtain ⟨hsame, hnone⟩ := passes_idempotent plusOnly .numbers ⟨.ofPlain "1.5px".toList, .zero⟩
  exact ⟨hsegments, hsame, hnone _ hrule _ hplain⟩

end CodeSnippets

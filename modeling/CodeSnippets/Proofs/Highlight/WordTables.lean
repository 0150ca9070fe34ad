/-
  What the tables of words decide.

  Words are found before symbols, and a word found cuts the plain text around it.  No
  symbol crosses such a cut, so the passes for symbols make the same of a stream whether
  its words are classified or plain, and the words show in nothing but their colour.

  * `SplitsAlong`: a function on segments that does not see where the normal form of a
    sequence has joined plain texts;
  * `forgetWords`: a stream with its words as plain text;
  * `forgetWords_run_wrap`, `forgetWords_run`: a rule for words leaves a stream with its words
    forgotten, and a rule for symbols makes of it what it makes of the stream;
  * `word_tables_decide_only_colour`: two vocabularies with the same operators.
-/
import CodeSnippets.Proofs.Highlight.SymbolCuts
import CodeSnippets.Proofs.Highlight.VisibleText

namespace CodeSnippets

/-! ## Segments replaced before and after plain texts are joined -/

open Segment (Alike textOf)

namespace SegmentStream

variable {f : Segment → List Segment}

/-- Wherever the normal form of a sequence joins two plain texts, a function on segments
    makes of them what it makes of the two apart. -/
def SplitsAlong (f : Segment → List Segment) : List Segment → Prop
  | [] => True
  | x :: l =>
    (x.isPlain = true → ∀ y ∈ (ofSegments l).segments.head?, y.isPlain = true →
      Alike (f (.plain (x.text ++ y.text))) (f x ++ f y)) ∧ SplitsAlong f l

theorem splitsAlong_of_forall
    (h : ∀ a b, Alike (f (.plain (a ++ b))) (f (.plain a) ++ f (.plain b))) (l : List Segment) :
    SplitsAlong f l := by
  induction l with
  | nil => trivial
  | cons x l ih =>
    refine ⟨fun hx y _ hy => ?_, ih⟩
    rw [Segment.eq_plain_of_isPlain hx, Segment.eq_plain_of_isPlain hy]
    exact h _ _

/-- **The normal form may be taken before or after.** -/
theorem alike_flatMap_segments (hempty : ∀ x, x.text = [] → Alike (f x) []) {l : List Segment}
    (h : SplitsAlong f l) : Alike ((ofSegments l).segments.flatMap f) (l.flatMap f) := by
  induction l with
  | nil => exact Alike.refl _
  | cons x l ih =>
    obtain ⟨hx, hl⟩ := h
    have hback := (Alike.refl (f x)).append (ih hl)
    refine Alike.trans ?_ hback
    rw [segments_ofSegments_cons]
    by_cases ht : x.text = []
    · rw [Segment.attach_of_text_eq_nil ht]
      exact (hempty x ht).symm.append (Alike.refl _)
    generalize (ofSegments l).segments = k at hx
    cases k with
    | nil => simp only [Segment.attach, ht, if_false]; exact Alike.refl _
    | cons y k =>
      by_cases hp : (x.isPlain && y.isPlain) = true
      · simp only [Segment.attach, ht, hp, if_true, if_false, List.flatMap_cons]
        rw [Bool.and_eq_true] at hp
        rw [← List.append_assoc]
        exact (hx hp.1 y rfl hp.2).append (Alike.refl _)
      · simp only [Segment.attach, ht, hp, if_false]
        exact Alike.refl _

end SegmentStream

/-! ## Words as plain text -/

/-- Whether a kind is one that the passes for words give. -/
def Kind.isWord : Kind → Bool
  | .platformGlobal | .keyword | .functionName => true
  | _ => false

/-- A segment, plain if it is a word. -/
def Segment.forgetWord (x : Segment) : Segment := if x.kind.isWord then .plain x.text else x

/-- A stream with its words as plain text. -/
def SegmentStream.forgetWords (s : SegmentStream) : SegmentStream :=
  .ofSegments (s.segments.map Segment.forgetWord)

@[simp] theorem Segment.text_forgetWord (x : Segment) : x.forgetWord.text = x.text := by
  unfold forgetWord
  split <;> rfl

theorem Segment.forgetWord_of_isWord {x : Segment} (h : x.kind.isWord = true) :
    x.forgetWord = .plain x.text := if_pos h

theorem Segment.forgetWord_of_not_isWord {x : Segment} (h : x.kind.isWord = false) :
    x.forgetWord = x := if_neg (by simp [h])

theorem Segment.textOf_map_forgetWord (l : List Segment) :
    textOf (l.map forgetWord) = textOf l := by
  simp [textOf, List.flatMap_map]

namespace SegmentStream

theorem text_forgetWords (s : SegmentStream) : s.forgetWords.text = s.text := by
  rw [forgetWords, text_ofSegments, Segment.textOf_map_forgetWord, text]

theorem forgetWords_ofSegments (l : List Segment) :
    (ofSegments l).forgetWords = ofSegments (l.map Segment.forgetWord) := by
  have hflat : ∀ k : List Segment, k.map Segment.forgetWord = k.flatMap fun x => [x.forgetWord] :=
    fun k => List.map_eq_flatMap
  rw [forgetWords, hflat, hflat]
  refine ofSegments_eq_of_alike (alike_flatMap_segments ?_ (splitsAlong_of_forall ?_ l))
  · intro x hx m
    exact Segment.attach_of_text_eq_nil (by rw [Segment.text_forgetWord, hx]) m
  · intro a b m
    exact (Segment.attach_plain_attach_plain a b m).symm

/-- The segments that are neither plain nor words stay as they are, in their order. -/
theorem filter_forgetWords {p : Segment → Bool} (hp : ∀ x, x.isPlain = true → p x = false)
    (hword : ∀ x, x.kind.isWord = true → p x = false) (s : SegmentStream) :
    s.forgetWords.segments.filter p = s.segments.filter p := by
  have hne : ∀ x ∈ s.segments.map Segment.forgetWord, x.text ≠ [] := by
    intro x hx
    obtain ⟨y, hy, rfl⟩ := List.mem_map.1 hx
    rw [Segment.text_forgetWord]
    exact s.normal.text_ne_nil y hy
  rw [forgetWords, filter_ofSegments hp hne]
  induction s.segments with
  | nil => rfl
  | cons x l ih =>
    rw [List.map_cons, List.filter_cons, List.filter_cons, ih]
    cases hx : x.kind.isWord with
    | true =>
      rw [Segment.forgetWord_of_isWord hx, hp _ rfl, hword x hx]
      simp
    | false => rw [Segment.forgetWord_of_not_isWord hx]

end SegmentStream

/-! ## Rules for words -/

/-- **A rule for words leaves a stream with its words forgotten.** -/
theorem forgetWords_run_wrap (m : Matcher) {k : Kind} (hk : k.isWord = true) (g : Progress) :
    ((Rule.wrap m k).run g).stream.forgetWords = g.stream.forgetWords := by
  rw [Rule.run, SegmentStream.replacePlain_eq, SegmentStream.forgetWords_ofSegments,
    SegmentStream.forgetWords, List.map_flatMap, List.map_eq_flatMap (l := g.stream.segments)]
  refine SegmentStream.ofSegments_eq_of_alike (Alike.flatMap fun x _ => ?_)
  unfold SegmentStream.replaced
  split
  · rename_i hx
    have hplain : ∀ y ∈ ((Rule.wrap m k).pieces x.text).map Segment.forgetWord,
        y.isPlain = true := by
      intro y hy
      obtain ⟨z, hz, rfl⟩ := List.mem_map.1 hy
      rcases Rule.isPlain_or_of_mem_pieces hz with hz | ⟨u, -, hz⟩
      · rw [Segment.eq_plain_of_isPlain hz]
        rfl
      · rw [List.mem_singleton.1 hz, Segment.forgetWord_of_isWord hk]
        rfl
    have htext := (Segment.textOf_map_forgetWord _).trans (textOf_pieces_wrap m k x.text)
    have hback : x.forgetWord = .plain x.text := by
      rw [Segment.eq_plain_of_isPlain hx]
      rfl
    have hsame := Segment.alike_plain hplain
    rwa [htext, ← hback] at hsame
  · exact Alike.refl _

theorem exists_wrap_of_mem_word_rules {v : Vocabulary} {p : Pass}
    (hp : p ∈ [Pass.platformGlobals, .keywords, .functionCalls]) {r : Rule} (hr : r ∈ p.rules v) :
    ∃ m k, k.isWord = true ∧ r = .wrap m k ∧
      ∀ before c rest n, m before c rest = some n →
        ∀ d ∈ c :: rest.take n, isAsciiIdentifierPart d = true := by
  simp only [List.mem_cons, List.not_mem_nil, or_false] at hp
  have hword : ∀ (w : Word) before c rest n, wholeWord w.spelling before c rest = some n →
      ∀ d ∈ c :: rest.take n, isAsciiIdentifierPart d = true := by
    intro w before c rest n hm
    rw [(wholeWord_eq_some w.spelling_ne_nil hm).1]
    exact w.isAsciiIdentifierPart_of_mem
  rcases hp with rfl | rfl | rfl
  · obtain ⟨w, -, rfl⟩ := List.mem_map.1 hr
    exact ⟨_, _, rfl, rfl, hword w⟩
  · obtain ⟨w, -, rfl⟩ := List.mem_map.1 hr
    exact ⟨_, _, rfl, rfl, hword w⟩
  · refine ⟨_, _, rfl, List.mem_singleton.1 hr, fun before c rest n hm => ?_⟩
    obtain ⟨hc, -, htake⟩ := functionCall_eq_some hm
    refine List.forall_mem_cons.2 ⟨by simp [isAsciiIdentifierPart, hc], fun d hd => ?_⟩
    rw [htake] at hd
    exact List.mem_takeWhile_imp hd

theorem Segment.not_isWord_of_isPlain {x : Segment} (h : x.isPlain = true) :
    x.kind.isWord = false := by
  rw [eq_plain_of_isPlain h]
  rfl

theorem Segment.not_isPlain_of_isWord {x : Segment} (h : x.kind.isWord = true) :
    x.isPlain = false := by
  rcases hp : x.isPlain with _ | _
  · rfl
  · rw [not_isWord_of_isPlain hp] at h
    cases h

/-- No pass but those for words gives a kind of word. -/
theorem not_isWord_of_mem_pieces {v : Vocabulary} {p : Pass}
    (hp : p ∉ [Pass.platformGlobals, .keywords, .functionCalls]) {r : Rule} (hr : r ∈ p.rules v)
    {t : Text} {x : Segment} (hx : x ∈ r.pieces t) : x.kind.isWord = false := by
  rcases kind_of_mem_pieces hr hx with hx | hx
  · exact Segment.not_isWord_of_isPlain hx
  · rw [hx]
    cases p with
    | platformGlobals | keywords | functionCalls => simp at hp
    | lineComments | blockComments | strings | numbers | brackets | operators => rfl

theorem isAsciiIdentifierPart_of_mem_pieces {v : Vocabulary} {p : Pass} {r : Rule}
    (hr : r ∈ p.rules v) {t : Text} {x : Segment} (hx : x ∈ r.pieces t)
    (hword : x.kind.isWord = true) : ∀ c ∈ x.text, isAsciiIdentifierPart c = true := by
  by_cases hp : p ∈ [Pass.platformGlobals, .keywords, .functionCalls]
  · obtain ⟨m, k, -, rfl, hmatch⟩ := exists_wrap_of_mem_word_rules hp hr
    rcases Rule.isPlain_or_of_mem_pieces hx with hx | ⟨u, hu, hx⟩
    · rw [Segment.not_isWord_of_isPlain hx] at hword
      cases hword
    · rw [List.mem_singleton.1 hx]
      exact Matcher.of_matched_mem_cuts (P := fun u => ∀ c ∈ u, isAsciiIdentifierPart c = true)
        hmatch hu
  · rw [not_isWord_of_mem_pieces hp hr hx] at hword
    cases hword

/-! ## Streams with words -/

/-- Escaped segments of which the words are made of identifier characters. -/
structure WellSpelled (s : SegmentStream) : Prop where
  escaped : s.IsEscaped
  word : ∀ x ∈ s.segments, x.kind.isWord = true → ∀ c ∈ x.text, isAsciiIdentifierPart c = true

theorem WellSpelled.run {v : Vocabulary} {p : Pass} {r : Rule} (hr : r ∈ p.rules v) {g : Progress}
    (hg : WellSpelled g.stream) : WellSpelled (r.run g).stream where
  escaped := isEscaped_run (keepsEntities_of_mem_rules hr) hg.escaped
  word := by
    intro x hx hword
    have hmem := SegmentStream.mem_of_mem_segments hx (Segment.not_isPlain_of_isWord hword)
    obtain ⟨y, hy, hxy⟩ := List.mem_flatMap.1 hmem
    split at hxy
    · exact isAsciiIdentifierPart_of_mem_pieces hr hxy hword
    · obtain rfl : x = y := List.mem_singleton.1 hxy
      exact hg.word x hy hword

theorem WellSpelled.applyPasses {v : Vocabulary} {ps : List Pass} {g : Progress}
    (hg : WellSpelled g.stream) : WellSpelled (applyPasses v ps g).stream :=
  applyPasses_induction (P := fun g => WellSpelled g.stream) (fun _ _ _ hr _ h => h.run hr) hg

theorem wellSpelled_ofPlain {t : Text} (ht : IsEscaped t) :
    WellSpelled (.ofPlain t) where
  escaped := isEscaped_ofPlain ht
  word := by
    intro x hx hword
    rw [Segment.not_isWord_of_isPlain (SegmentStream.isPlain_of_mem_ofPlain hx)] at hword
    cases hword

/-! ## Rules for symbols -/

open SegmentStream (replaced SplitsAlong)

/-- Behind a plain segment, text becomes plain only if it is a word. -/
theorem isAsciiIdentifierPart_of_mem_head? {x y : Segment} {l : List Segment}
    (hnormal : Segment.Normal (x :: l)) (hx : x.isPlain = true)
    (hword : ∀ z ∈ l, z.kind.isWord = true → ∀ c ∈ z.text, isAsciiIdentifierPart c = true)
    (hy : y ∈ (SegmentStream.ofSegments (l.map Segment.forgetWord)).segments.head?)
    (hplain : y.isPlain = true) : ∀ d ∈ y.text.head?, isAsciiIdentifierPart d = true := by
  intro d hd
  cases l with
  | nil => cases hy
  | cons z l =>
    have hz : z.isPlain = false := by simpa using hnormal.2.1 hx z rfl
    have hne : z.text ≠ [] := hnormal.2.2.1
    cases hzword : z.kind.isWord with
    | false =>
      rw [List.map_cons, Segment.forgetWord_of_not_isWord hzword,
        SegmentStream.segments_ofSegments_cons, Segment.attach_of_classified hz hne] at hy
      obtain rfl : z = y := by simpa using hy
      rw [hz] at hplain
      cases hplain
    | true =>
      rw [SegmentStream.head?_text_of_mem_head? hy, SegmentStream.text_ofSegments,
        Segment.textOf_map_forgetWord, Segment.textOf_cons, List.head?_append] at hd
      obtain ⟨c, t, ht⟩ := List.exists_cons_of_ne_nil hne
      obtain rfl : c = d := by simpa [ht] using hd
      exact hword z List.mem_cons_self hzword c (by simp [ht])

/-- Where forgetting the words joins plain text, no symbol goes on. -/
theorem splitsAlong_forgetWord {r : Rule} (hr : r.IsSymbol) {l : List Segment}
    (hnormal : Segment.Normal l) (hescaped : ∀ x ∈ l, IsEscaped x.text)
    (hword : ∀ x ∈ l, x.kind.isWord = true → ∀ c ∈ x.text, isAsciiIdentifierPart c = true) :
    SplitsAlong (replaced r.pieces) (l.map Segment.forgetWord) := by
  induction l with
  | nil => trivial
  | cons x l ih =>
    have htail := ih hnormal.2.2 (fun z hz => hescaped z (List.mem_cons_of_mem _ hz))
      fun z hz => hword z (List.mem_cons_of_mem _ hz)
    simp only [List.forall_mem_cons] at hescaped hword
    refine ⟨fun hx y hy hplain => ?_, htail⟩
    have hstops : r.matcher.StopsBetween x.text y.text := by
      cases hxword : x.kind.isWord with
      | true =>
        exact Matcher.stopsBetween_of_none
          (fun before c hc rest => hr.none_of_ascii before c rest (hword.1 hxword c hc)) _
      | false =>
        rw [Segment.forgetWord_of_not_isWord hxword] at hx
        have hback : ∀ z ∈ (SegmentStream.ofSegments (l.map Segment.forgetWord)).segments,
            IsEscaped z.text := by
          refine Segment.forall_foldr_attach (fun _ _ => .append) (fun z hz => ?_) (by simp)
          obtain ⟨w, hw, rfl⟩ := List.mem_map.1 hz
          rw [Segment.text_forgetWord]
          exact hescaped.2 w hw
        exact hr.stops _ _ hescaped.1 (hback y (List.mem_of_mem_head? hy))
          (isAsciiIdentifierPart_of_mem_head? hnormal hx hword.2 hy hplain)
    have hjoin : r.pieces (x.text ++ y.text) = r.pieces x.text ++ r.pieces y.text :=
      Rule.pieces_append hr.ahead hstops
    simp only [replaced, hx, hplain, Segment.isPlain_plain, Segment.plain_text,
      Segment.text_forgetWord, if_true, hjoin]
    exact Alike.refl _

/-- **A rule for symbols makes of a stream with its words forgotten what it makes of the
    stream.** -/
theorem forgetWords_run {v : Vocabulary} {p : Pass} (hp : p ∈ [Pass.brackets, .operators])
    {r : Rule} (hr : r ∈ p.rules v) {g : Progress} (hg : WellSpelled g.stream) :
    (r.run g).stream.forgetWords = g.stream.forgetWords.replacePlain r.pieces := by
  have hsymbol := isSymbol_of_mem_rules hp hr
  have hnone : p ∉ [Pass.platformGlobals, .keywords, .functionCalls] := by
    simp only [List.mem_cons, List.not_mem_nil, or_false] at hp
    rcases hp with rfl | rfl <;> decide
  have hempty : ∀ x : Segment, x.text = [] → Alike (replaced r.pieces x) [] := by
    intro x hx
    unfold replaced
    split
    · rw [hx, Rule.pieces, Matcher.cuts, Matcher.cutsFrom_nil]
      exact Alike.refl []
    · exact fun m => Segment.attach_of_text_eq_nil hx m
  have hone : ∀ x ∈ g.stream.segments, Alike ((replaced r.pieces x).map Segment.forgetWord)
      (replaced r.pieces x.forgetWord) := by
    intro x hx
    cases hword : x.kind.isWord with
    | true =>
      have hplain : x.isPlain = false := Segment.not_isPlain_of_isWord hword
      rw [replaced, replaced, hplain, if_neg Bool.false_ne_true, List.map_singleton,
        Segment.forgetWord_of_isWord hword]
      exact (hsymbol.pieces_of_ascii (hg.word x hx hword)).symm
    | false =>
      have hkept : ∀ y ∈ replaced r.pieces x, y.forgetWord = y := by
        intro y hy
        unfold replaced at hy
        split at hy
        · exact Segment.forgetWord_of_not_isWord (not_isWord_of_mem_pieces hnone hr hy)
        · rw [List.mem_singleton.1 hy, Segment.forgetWord_of_not_isWord hword]
      rw [Segment.forgetWord_of_not_isWord hword, List.map_congr_left hkept, List.map_id']
      exact Alike.refl _
  have hsplits := splitsAlong_forgetWord hsymbol g.stream.normal hg.escaped hg.word
  rw [Rule.run, SegmentStream.replacePlain_eq, SegmentStream.forgetWords_ofSegments,
    SegmentStream.replacePlain_eq, SegmentStream.forgetWords, List.map_flatMap]
  refine SegmentStream.ofSegments_eq_of_alike ?_
  refine Alike.trans ?_ (SegmentStream.alike_flatMap_segments hempty hsplits).symm
  rw [List.flatMap_map]
  exact Alike.flatMap hone

/-! ## Two vocabularies -/

/-- The passes for words leave a stream with its words forgotten. -/
theorem forgetWords_applyPasses (v : Vocabulary) (g : Progress) :
    (applyPasses v [.platformGlobals, .keywords, .functionCalls] g).stream.forgetWords =
      g.stream.forgetWords := by
  refine applyPasses_induction (P := fun h => h.stream.forgetWords = g.stream.forgetWords) ?_ rfl
  intro p hp r hr h hh
  obtain ⟨m, k, hk, rfl, -⟩ := exists_wrap_of_mem_word_rules hp hr
  rw [forgetWords_run_wrap m hk, hh]

/-- Streams that are the same with their words forgotten stay so under the passes for
    symbols. -/
theorem forgetWords_applyPasses_symbols (v : Vocabulary) {g g' : Progress}
    (hg : WellSpelled g.stream) (hg' : WellSpelled g'.stream)
    (hsame : g.stream.forgetWords = g'.stream.forgetWords) :
    (applyPasses v [.brackets, .operators] g).stream.forgetWords =
      (applyPasses v [.brackets, .operators] g').stream.forgetWords := by
  refine (applyPasses_induction₂ (R := fun h h' => WellSpelled h.stream ∧
    WellSpelled h'.stream ∧ h.stream.forgetWords = h'.stream.forgetWords) ?_
    ⟨hg, hg', hsame⟩).2.2
  rintro p hp r hr h h' ⟨hh, hh', hsame⟩
  refine ⟨hh.run hr, hh'.run hr, ?_⟩
  rw [forgetWords_run hp hr hh, forgetWords_run hp hr hh', hsame]

theorem forgetWords_runPasses {v v' : Vocabulary} (h : v.operators = v'.operators)
    (source : Text) : (runPasses v (escape source)).stream.forgetWords =
      (runPasses v' (escape source)).stream.forgetWords := by
  have horder : Pass.order = [.lineComments, .blockComments, .strings, .numbers] ++
      ([.platformGlobals, .keywords, .functionCalls] ++ [.brackets, .operators]) := rfl
  have hfront : applyPasses v [.lineComments, .blockComments, .strings, .numbers]
      ⟨.ofPlain (escape source), .zero⟩ =
      applyPasses v' [.lineComments, .blockComments, .strings, .numbers]
      ⟨.ofPlain (escape source), .zero⟩ := rfl
  have hsymbols : ∀ g, applyPasses v' [.brackets, .operators] g =
      applyPasses v [.brackets, .operators] g := by
    intro g
    simp [applyPasses, Pass.apply, Pass.rules, h]
  have hspelled : WellSpelled (applyPasses v' [.lineComments, .blockComments, .strings, .numbers]
      ⟨.ofPlain (escape source), .zero⟩).stream :=
    (wellSpelled_ofPlain (isEscaped_escape source)).applyPasses
  rw [runPasses, runPasses, horder, applyPasses_append, applyPasses_append, applyPasses_append,
    applyPasses_append, hfront, hsymbols]
  refine forgetWords_applyPasses_symbols v hspelled.applyPasses hspelled.applyPasses ?_
  rw [forgetWords_applyPasses, forgetWords_applyPasses]

/-- **The tables of words decide only how words are coloured.**  Two vocabularies with the
    same operators find the same comments, strings, numbers, brackets and operators in a
    source, and show the same text: with the words as plain text, their streams are equal. -/
theorem word_tables_decide_only_colour (v v' : Vocabulary) (h : v.operators = v'.operators)
    (source : Text) :
    (runPasses v (escape source)).stream.text = (runPasses v' (escape source)).stream.text ∧
    (runPasses v (escape source)).stream.segments.filter (fun x =>
        [Kind.comment, .string, .number, .bracket, .operator].contains x.kind) =
      (runPasses v' (escape source)).stream.segments.filter (fun x =>
        [Kind.comment, .string, .number, .bracket, .operator].contains x.kind) ∧
    (runPasses v (escape source)).stream.forgetWords =
      (runPasses v' (escape source)).stream.forgetWords := by
  have hsame := forgetWords_runPasses h source
  have hplain : ∀ x : Segment, x.isPlain = true →
      [Kind.comment, .string, .number, .bracket, .operator].contains x.kind = false := by
    intro x hx
    rw [Segment.eq_plain_of_isPlain hx]
    rfl
  have hword : ∀ x : Segment, x.kind.isWord = true →
      [Kind.comment, .string, .number, .bracket, .operator].contains x.kind = false := by
    rintro ⟨k, t⟩ hk
    cases k <;> first | rfl | cases hk
  refine ⟨?_, ?_, hsame⟩
  · rw [← SegmentStream.text_forgetWords, hsame, SegmentStream.text_forgetWords]
  · rw [← SegmentStream.filter_forgetWords hplain hword, hsame,
      SegmentStream.filter_forgetWords hplain hword]

/-- A vocabulary with an operator that is escaped. -/
def withAmpersand (keywords globals : List Word) : Vocabulary where
  keywords := keywords
  globals := globals
  operators := [⟨['&'], by decide⟩]
  longest_first := by simp

/-- Two words with it, one of them spelled like the name of its entity. -/
def ampWords : Vocabulary := withAmpersand [⟨['a', 'm', 'p'], by decide⟩] [⟨['a'], by decide⟩]

/-- Words on both sides of an operator do not change the white space around it. -/
theorem word_tables_decide_only_colour_of_entity :
    ampWords.operators = (withAmpersand [] []).operators ∧
    (runPasses ampWords (escape "a &amp".toList)).stream.segments =
      [⟨.platformGlobal, "a".toList⟩, .plain " ".toList, ⟨.operator, "&amp;".toList⟩,
        .plain " ".toList, ⟨.keyword, "amp".toList⟩] ∧
    (runPasses (withAmpersand [] []) (escape "a &amp".toList)).stream.text =
      "a &amp; amp".toList ∧
    (runPasses (withAmpersand [] []) (escape "a &amp".toList)).stream.segments.filter (fun x =>
        [Kind.comment, .string, .number, .bracket, .operator].contains x.kind) =
      [⟨.operator, "&amp;".toList⟩] := by
  have hoperators : (withAmpersand [] []).operators = ampWords.operators := rfl
  have hsegments : (runPasses ampWords (escape "a &amp".toList)).stream.segments =
      [⟨.platformGlobal, "a".toList⟩, .plain " ".toList, ⟨.operator, "&amp;".toList⟩,
        .plain " ".toList, ⟨.keyword, "amp".toList⟩] := by decide +kernel
  obtain ⟨htext, hfilter, -⟩ := word_tables_decide_only_colour _ _ hoperators "a &amp".toList
  refine ⟨hoperators.symm, hsegments, htext.trans ?_, hfilter.trans ?_⟩
  · rw [SegmentStream.text, hsegments]
    rfl
  · rw [hsegments]
    rfl

end CodeSnippets

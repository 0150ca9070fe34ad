/-
  The passes for words.

  Each word of a vocabulary has a rule of its own, and the rules run one after the other
  over what the earlier ones have left.  Yet their number and order leave no trace: a
  whole word is a run of identifier characters, and no rule cuts a run in two.

  * `searchWord`: a search for a word from left to right that goes on behind each place
    where the word stands, whole or not;
  * `alike_searchWord`, `alike_pieces_wholeWord`: the rule for a word makes what the
    search makes, and what a scan for this word alone makes;
  * `stream_words`: the passes for globals and keywords scan each plain segment once;
  * `highlight_congr`: highlighting depends on the words as sets;
  * `words_found_by_one_scan`: the passes on a text, and words in another order.
-/
import CodeSnippets.Highlight.Highlighter
import CodeSnippets.Proofs.Highlight.EscapedSegments
import CodeSnippets.Proofs.Highlight.IdentifierRuns
import CodeSnippets.Proofs.Highlight.Tallies

namespace CodeSnippets

theorem Word.isIdentifierPart_of_mem (w : Word) : ∀ c ∈ w.spelling, isIdentifierPart c = true :=
  fun c hc => isIdentifierPart_of_ascii (w.isAsciiIdentifierPart_of_mem c hc)

theorem allowsWordAfter_iff {before : Option Char} :
    allowsWordAfter before = true ↔
      (∀ x ∈ before, isIdentifierPart x = false) ∧ before ≠ some '&' := by
  cases before <;> simp [allowsWordAfter]

theorem allowsWordBefore_iff {t : Text} : allowsWordBefore t = true ↔ BeginsBetween t := by
  cases t <;> simp [allowsWordBefore, BeginsBetween]

/-! ## A single word -/

/-- Within a run no word begins. -/
theorem cutsFrom_wholeWord_within (w : Text) {x : Char} {q : Text}
    (hq : ∀ c ∈ x :: q, isIdentifierPart c = true) (t : Text) :
    (wholeWord w).cutsFrom (some x) (q ++ t) [] =
      q.map .kept ++ (wholeWord w).cutsFrom (some (q.getLastD x)) t [] := by
  refine Matcher.cutsFrom_of_isChain (R := fun x _ => isIdentifierPart x = true) ?_ ?_ t
  · intro x c rest hx
    simp [wholeWord, allowsWordAfter, hx]
  · exact List.Pairwise.isChain (List.pairwise_of_forall_mem_list fun x hx _ _ => hq x hx)

/-- What the search for a word makes of a text behind a character, if there is one.  It
    goes on behind a place where the word stands, whether it stands there as a whole word
    or not. -/
def searchWord (w : Word) (k : Kind) (before : Option Char) (t : Text) : List Segment :=
  match t with
  | [] => []
  | c :: rest =>
    if w.spelling.isPrefixOf (c :: rest) then
      let behind := (c :: rest).drop w.spelling.length
      let whole := allowsWordAfter before && allowsWordBefore behind
      ⟨if whole then k else .plain, w.spelling⟩ :: searchWord w k w.spelling.getLast? behind
    else .plain [c] :: searchWord w k (some c) rest
termination_by t.length
decreasing_by
  · have := List.length_pos_iff.2 w.spelling_ne_nil
    simp only [List.length_drop, List.length_cons]
    omega
  · simp

theorem searchWord_append (w : Word) (k : Kind) (before : Option Char) (behind : Text) :
    searchWord w k before (w.spelling ++ behind) =
      ⟨if allowsWordAfter before && allowsWordBefore behind then k else .plain, w.spelling⟩ ::
        searchWord w k w.spelling.getLast? behind := by
  have hp : w.spelling.isPrefixOf (w.spelling ++ behind) = true :=
    List.isPrefixOf_iff_prefix.2 (List.prefix_append _ _)
  have hdrop : (w.spelling ++ behind).drop w.spelling.length = behind := List.drop_left
  obtain ⟨c, rest, ht⟩ := List.exists_cons_of_ne_nil
    (List.append_ne_nil_of_left_ne_nil w.spelling_ne_nil behind)
  rw [ht] at hp hdrop ⊢
  rw [searchWord, if_pos hp, hdrop]

/-- Where a word stands, the cuts are those of the text behind it, whether it stands there
    as a whole word or not. -/
theorem cutsFrom_wholeWord_append (w : Word) (before : Option Char) (behind : Text) :
    (wholeWord w.spelling).cutsFrom before (w.spelling ++ behind) [] =
      (if allowsWordAfter before && allowsWordBefore behind then [.matched w.spelling]
        else w.spelling.map .kept) ++
        (wholeWord w.spelling).cutsFrom w.spelling.getLast? behind [] := by
  have hp : w.spelling.isPrefixOf (w.spelling ++ behind) = true :=
    List.isPrefixOf_iff_prefix.2 (List.prefix_append _ _)
  have hdrop : (w.spelling ++ behind).drop w.spelling.length = behind := List.drop_left
  obtain ⟨x, q, hw⟩ := List.exists_cons_of_ne_nil w.spelling_ne_nil
  have hlength : w.spelling.length - 1 = q.length := by simp [hw]
  have hlast : w.spelling.getLast? = some (q.getLastD x) := by
    rw [hw, List.getLast?_cons, List.getLastD_eq_getLast?]
  have ht : w.spelling ++ behind = x :: (q ++ behind) := by simp [hw]
  rw [ht] at hp hdrop ⊢
  by_cases hwhole : (allowsWordAfter before && allowsWordBefore behind) = true
  · have hm : wholeWord w.spelling before x (q ++ behind) = some q.length := by
      rw [wholeWord, hp, hdrop, Bool.true_and, if_pos hwhole, hlength]
    rw [Matcher.cutsFrom_cons_of_some hm, List.take_left, List.drop_left, if_pos hwhole, hlast,
      ← hw]
    rfl
  · have hm : wholeWord w.spelling before x (q ++ behind) = none := by
      rw [wholeWord, hp, hdrop, Bool.true_and, if_neg hwhole]
    rw [Matcher.cutsFrom_cons_of_none hm,
      cutsFrom_wholeWord_within _ (hw ▸ w.isIdentifierPart_of_mem), if_neg hwhole, hlast,
      ← List.cons_append, ← List.map_cons, ← hw]

/-- **A place that the search passes over hides no whole word.** -/
theorem alike_searchWord (w : Word) (k : Kind) (before : Option Char) (t : Text) :
    Segment.Alike (searchWord w k before t)
      (((wholeWord w.spelling).cutsFrom before t []).flatMap
        (Rule.wrap (wholeWord w.spelling) k).ofCut) := by
  induction hn : t.length using Nat.strongRecOn generalizing before t with
  | _ n ih =>
    subst hn
    cases t with
    | nil =>
      rw [searchWord, Matcher.cutsFrom_nil]
      exact Segment.Alike.refl _
    | cons c rest =>
      by_cases hp : w.spelling.isPrefixOf (c :: rest) = true
      · obtain ⟨behind, hbehind⟩ := List.isPrefixOf_iff_prefix.1 hp
        have hlt : behind.length < (c :: rest).length := by
          have := List.length_pos_iff.2 w.spelling_ne_nil
          rw [← hbehind, List.length_append]
          omega
        rw [← hbehind, searchWord_append, cutsFrom_wholeWord_append, List.flatMap_append]
        refine Segment.Alike.append (k := [_]) ?_ (ih _ hlt _ behind rfl)
        split
        · exact Segment.Alike.refl _
        · rw [flatMap_ofCut_kept]
          exact fun m => (Segment.foldr_attach_chars w.spelling m).symm
      · have hm : wholeWord w.spelling before c rest = none := by
          simp [wholeWord, hp]
        rw [searchWord, if_neg hp, Matcher.cutsFrom_cons_of_none hm]
        exact (Segment.Alike.refl [.plain [c]]).append (ih _ (by simp) _ rest rfl)

theorem wholeWord_of_other (w : Word) {before : Option Char} {c : Char} {t : Text}
    (hc : isIdentifierPart c = false) : wholeWord w.spelling before c t = none := by
  rcases hm : wholeWord w.spelling before c t with _ | n
  · rfl
  · obtain ⟨hword, -⟩ := wholeWord_eq_some w.spelling_ne_nil hm
    rw [w.isIdentifierPart_of_mem c (by rw [← hword]; exact List.mem_cons_self)] at hc
    cases hc

/-- At the beginning of a run, a word is found if it is the whole run. -/
theorem wholeWord_of_run (w : Word) {before : Option Char} {c : Char} {q t : Text}
    (hid : ∀ d ∈ c :: q, isIdentifierPart d = true) (ht : BeginsBetween t)
    (hbefore : ∀ x ∈ before, isIdentifierPart x = false) :
    wholeWord w.spelling before c (q ++ t) =
      if before ≠ some '&' ∧ c :: q = w.spelling then some q.length else none := by
  split
  · rename_i hword
    have hp : w.spelling.isPrefixOf (c :: (q ++ t)) = true := by
      rw [List.isPrefixOf_iff_prefix, ← hword.2]
      exact List.prefix_append (c :: q) t
    have hdrop : (c :: (q ++ t)).drop w.spelling.length = t := by
      rw [← hword.2]
      exact @List.drop_left _ (c :: q) _
    rw [wholeWord, hp, hdrop, allowsWordAfter_iff.2 ⟨hbefore, hword.1⟩,
      allowsWordBefore_iff.2 ht, ← hword.2]
    rfl
  · rename_i hword
    rcases hm : wholeWord w.spelling before c (q ++ t) with _ | n
    · rfl
    · obtain ⟨hw, ha, hbehind⟩ := wholeWord_eq_some w.spelling_ne_nil hm
      -- what matches is the run that is cut off in front of `t`
      have hrun : c :: q = c :: (q ++ t).take n := by
        have hsplit : c :: q ++ t = c :: (q ++ t).take n ++ (q ++ t).drop n := by
          rw [List.cons_append, List.cons_append, List.take_append_drop]
        rw [← takeWhile_append_eq_left hid ht, hsplit]
        refine takeWhile_append_eq_left ?_ (allowsWordBefore_iff.1 hbehind)
        rw [hw]
        exact w.isIdentifierPart_of_mem
      exact absurd ⟨(allowsWordAfter_iff.1 ha).2, hrun.trans hw⟩ hword

/-- The cuts for a word in front of the rest of a text: a part is the word, or it is kept.
    A run does not go on what stands before it. -/
theorem cutsFrom_wholeWord_part (w : Word) {r t : Text} (hr : IsPart r t) {before : Option Char}
    (hb : ∀ x ∈ before, isIdentifierPart x = true → BeginsBetween (r ++ t)) :
    (wholeWord w.spelling).cutsFrom before (r ++ t) [] =
      (if before ≠ some '&' ∧ r = w.spelling then [.matched r] else r.map .kept) ++
        (wholeWord w.spelling).cutsFrom r.getLast? t [] := by
  cases hr with
  | @other c t hc =>
    have hne : [c] ≠ w.spelling := by
      intro h
      rw [w.isIdentifierPart_of_mem c (by rw [← h]; exact List.mem_cons_self)] at hc
      cases hc
    rw [List.singleton_append, Matcher.cutsFrom_cons_of_none (wholeWord_of_other w hc),
      if_neg fun h => hne h.2]
    rfl
  | run hne hid ht =>
    obtain ⟨c, q, rfl⟩ := List.exists_cons_of_ne_nil hne
    have hlast : (c :: q).getLast? = some (q.getLastD c) := by
      rw [List.getLast?_cons, List.getLastD_eq_getLast?]
    have hbefore : ∀ x ∈ before, isIdentifierPart x = false := by
      intro x hx
      rcases h : isIdentifierPart x with _ | _
      · rfl
      · have hc : isIdentifierPart c = false := hb x hx h c rfl
        rw [hid c List.mem_cons_self] at hc
        cases hc
    have hm := wholeWord_of_run w hid ht hbefore
    rw [hlast, List.cons_append]
    split
    · rename_i hword
      rw [if_pos hword] at hm
      rw [Matcher.cutsFrom_cons_of_some hm, List.take_left, List.drop_left]
      rfl
    · rename_i hword
      rw [if_neg hword] at hm
      rw [Matcher.cutsFrom_cons_of_none hm, cutsFrom_wholeWord_within _ hid]
      rfl

/-- The kind that the rules for some words give to a run. -/
def kindAmong (ws : List Word) (k : Kind) (run : Text) : Kind :=
  if ws.any fun w => w.spelling == run then k else .plain

theorem namesRuns_kindAmong (ws : List Word) (k : Kind) : NamesRuns (kindAmong ws k) := by
  intro u hu
  unfold kindAmong at hu
  split at hu
  · rename_i hany
    obtain ⟨w, -, hw⟩ := List.any_eq_true.1 hany
    rw [← eq_of_beq hw]
    exact w.isIdentifierPart_of_mem
  · exact absurd rfl hu

theorem kindAmong_singleton (w : Word) (k : Kind) (run : Text) :
    kindAmong [w] k run = if run = w.spelling then k else .plain := by
  by_cases h : run = w.spelling
  · simp [kindAmong, h]
  · have hne : w.spelling ≠ run := fun he => h he.symm
    simp [kindAmong, h, hne]

theorem alike_cutsFrom_wholeWord (w : Word) (k : Kind) (t : Text) (before : Option Char)
    (hb : ∀ x ∈ before, isIdentifierPart x = true → BeginsBetween t) :
    Segment.Alike
      (((wholeWord w.spelling).cutsFrom before t []).flatMap
        (Rule.wrap (wholeWord w.spelling) k).ofCut)
      (labelRuns (kindAmong [w] k) before (identifierRuns t)) := by
  induction t using identifierRuns_induction generalizing before with
  | nil =>
    rw [Matcher.cutsFrom_nil]
    exact Segment.Alike.refl _
  | part r t hr ih =>
    have hkind : (if before = some '&' then Kind.plain else kindAmong [w] k r) =
        if before ≠ some '&' ∧ r = w.spelling then k else .plain := by
      by_cases hamp : before = some '&' <;> simp [kindAmong_singleton, hamp]
    rw [cutsFrom_wholeWord_part w hr hb, identifierRuns_append hr, labelRuns, hkind,
      List.flatMap_append, ← List.singleton_append (l := labelRuns _ _ _)]
    refine Segment.Alike.append ?_ (ih _ fun x => hr.beginsBetween_of_getLast?)
    split
    · exact Segment.Alike.refl _
    · rw [flatMap_ofCut_kept]
      exact fun m => Segment.foldr_attach_chars r m

/-- **The rule for a word makes what a scan for this word makes.** -/
theorem alike_pieces_wholeWord (w : Word) (k : Kind) (t : Text) :
    Segment.Alike ((Rule.wrap (wholeWord w.spelling) k).pieces t)
      (scanRuns (kindAmong [w] k) t) :=
  alike_cutsFrom_wholeWord w k t none (by simp)

/-! ## All words -/

/-- The rules for some words scan each plain segment once. -/
theorem stream_foldl_words (ws : List Word) (k : Kind) (g : Progress) :
    ((ws.map fun w => Rule.wrap (wholeWord w.spelling) k).foldl (fun g r => r.run g) g).stream =
      g.stream.replacePlain (scanRuns (kindAmong ws k)) := by
  induction ws generalizing g with
  | nil => exact (replacePlain_scanRuns_plain g.stream).symm
  | cons w ws ih =>
    have hkind : (fun u => (kindAmong [w] k u).orElse (kindAmong ws k u)) =
        kindAmong (w :: ws) k := by
      funext u
      by_cases hw : w.spelling = u <;> by_cases hk : k = .plain <;>
        simp [kindAmong, Kind.orElse, hw, hk]
    rw [List.map_cons, List.foldl_cons, ih]
    have hrun : ((Rule.wrap (wholeWord w.spelling) k).run g).stream =
        g.stream.replacePlain (scanRuns (kindAmong [w] k)) :=
      SegmentStream.replacePlain_congr (alike_pieces_wholeWord w k) g.stream
    rw [hrun, replacePlain_scanRuns_scanRuns (namesRuns_kindAmong [w] k) (namesRuns_kindAmong ws k),
      hkind]

/-- The kind of a run of identifier characters: globals come before keywords. -/
def Vocabulary.kindOf (v : Vocabulary) (run : Text) : Kind :=
  if v.isGlobal run then .platformGlobal else if v.isKeyword run then .keyword else .plain

/-- **The passes for words scan each plain segment once.** -/
theorem stream_words (v : Vocabulary) (g : Progress) :
    (applyPasses v [.platformGlobals, .keywords] g).stream =
      g.stream.replacePlain (scanRuns v.kindOf) := by
  have hkind : (fun u => (kindAmong v.globals .platformGlobal u).orElse
      (kindAmong v.keywords .keyword u)) = v.kindOf := by
    funext u
    by_cases hu : v.isGlobal u = true <;>
      simp_all [kindAmong, Kind.orElse, Vocabulary.kindOf, Vocabulary.isGlobal,
        Vocabulary.isKeyword]
  have happly : applyPasses v [.platformGlobals, .keywords] g =
      Pass.keywords.apply v (Pass.platformGlobals.apply v g) := rfl
  rw [happly, Pass.apply, Pass.rules, stream_foldl_words, Pass.apply, Pass.rules,
    stream_foldl_words,
    replacePlain_scanRuns_scanRuns (namesRuns_kindAmong _ _) (namesRuns_kindAmong _ _), hkind]

/-- On a text, the passes for words add to the tally what the scan finds. -/
theorem applyPasses_words_ofPlain (v : Vocabulary) (t : Text) (n : Tally) :
    applyPasses v [.platformGlobals, .keywords] ⟨.ofPlain t, n⟩ =
      ⟨.ofSegments (scanRuns v.kindOf t), n.add (.ofPieces (scanRuns v.kindOf t))⟩ := by
  have hstream := stream_words v ⟨.ofPlain t, n⟩
  have htally := tally_applyPasses v [.platformGlobals, .keywords] ⟨.ofPlain t, n⟩
  rw [SegmentStream.replacePlain_ofPlain rfl] at hstream
  rw [hstream, ofStream_ofPlain, Tally.add_zero,
    Tally.ofStream_ofSegments text_ne_nil_of_mem_scanRuns] at htally
  generalize applyPasses v [.platformGlobals, .keywords] ⟨.ofPlain t, n⟩ = a at hstream htally ⊢
  obtain ⟨s, m⟩ := a
  obtain rfl : s = _ := hstream
  obtain rfl : m = _ := htally
  rfl

/-- Passes that leave the same stream leave the same tally. -/
theorem applyPasses_eq_of_stream_eq {v v' : Vocabulary} {ps : List Pass} {g : Progress}
    (h : (applyPasses v ps g).stream = (applyPasses v' ps g).stream) :
    applyPasses v ps g = applyPasses v' ps g := by
  have htally := tally_applyPasses v ps g
  rw [h, ← tally_applyPasses v' ps g] at htally
  generalize applyPasses v ps g = a at h htally
  generalize applyPasses v' ps g = b at h htally
  obtain ⟨s, n⟩ := a
  obtain ⟨s', n'⟩ := b
  obtain rfl : s = s' := h
  obtain rfl : n = n' := Tally.add_right_cancel htally
  rfl

/-- **Highlighting depends on the words as sets.** -/
theorem highlight_congr {v v' : Vocabulary} (hwords : v.kindOf = v'.kindOf)
    (hoperators : v.operators = v'.operators) (source : Text) :
    highlight v source = highlight v' source := by
  have hrun : runPasses v (escape source) = runPasses v' (escape source) := by
    have horder : Pass.order = [.lineComments, .blockComments, .strings, .numbers] ++
        ([.platformGlobals, .keywords] ++ [.functionCalls, .brackets, .operators]) := rfl
    have hfront : ∀ g, applyPasses v [.lineComments, .blockComments, .strings, .numbers] g =
        applyPasses v' [.lineComments, .blockComments, .strings, .numbers] g := fun _ => rfl
    have hwordPasses : ∀ g, applyPasses v [.platformGlobals, .keywords] g =
        applyPasses v' [.platformGlobals, .keywords] g := by
      intro g
      refine applyPasses_eq_of_stream_eq ?_
      rw [stream_words, stream_words, hwords]
    have hback : ∀ g, applyPasses v [.functionCalls, .brackets, .operators] g =
        applyPasses v' [.functionCalls, .brackets, .operators] g := by
      intro g
      simp [applyPasses, Pass.apply, Pass.rules, hoperators]
    rw [runPasses, runPasses, horder, applyPasses_append, applyPasses_append, applyPasses_append,
      applyPasses_append, hfront, hwordPasses, hback]
  rw [highlight, highlight, hrun]

/-! ## Words in another order -/

namespace Vocabulary

theorem checked_of_isSome {α : Type} {check : Text → Option α} {l : List Text}
    (h : ∀ t ∈ l, (check t).isSome = true) : checked check l = .ok (l.filterMap check) := by
  induction l with
  | nil => rfl
  | cons t l ih =>
    simp only [List.forall_mem_cons] at h
    obtain ⟨a, ha⟩ := Option.isSome_iff_exists.1 h.1
    rw [checked, ha, ih h.2, List.filterMap_cons_some ha]
    rfl

theorem isSome_of_checked {α : Type} {check : Text → Option α} {l : List Text} {as : List α}
    (h : checked check l = .ok as) : ∀ t ∈ l, (check t).isSome = true := by
  induction l generalizing as with
  | nil => simp
  | cons t l ih =>
    cases ht : check t with
    | none => simp [checked, ht] at h
    | some a =>
      cases hl : checked check l with
      | error e => simp [checked, ht, hl, Except.map] at h
      | ok bs => exact List.forall_mem_cons.2 ⟨by rw [ht]; rfl, ih hl⟩

/-- The check of a list in another order gives the same entries in another order. -/
theorem checked_of_perm {α : Type} {check : Text → Option α} {l l' : List Text} {as : List α}
    (hl : l.Perm l') (h : checked check l = .ok as) :
    ∃ as', checked check l' = .ok as' ∧ as.Perm as' := by
  have hsome := isSome_of_checked h
  rw [checked_of_isSome hsome, Except.ok.injEq] at h
  refine ⟨l'.filterMap check, checked_of_isSome fun t ht => hsome t (hl.mem_iff.2 ht), ?_⟩
  rw [← h]
  exact hl.filterMap check

theorem ofLists_eq_ok {ks gs os : List Text} {v : Vocabulary} (h : ofLists ks gs os = .ok v) :
    ∃ keywords globals operators, checked Word.ofText? ks = .ok keywords ∧
      checked Word.ofText? gs = .ok globals ∧ checked Operator.ofText? os = .ok operators ∧
      v = ofEntries keywords globals operators := by
  unfold ofLists at h
  cases hks : checked Word.ofText? ks with
  | error e => simp [hks, Except.mapError, bind, Except.bind] at h
  | ok keywords =>
    cases hgs : checked Word.ofText? gs with
    | error e => simp [hks, hgs, Except.mapError, bind, Except.bind] at h
    | ok globals =>
      cases hos : checked Operator.ofText? os with
      | error e => simp [hks, hgs, hos, Except.mapError, bind, Except.bind] at h
      | ok operators =>
        simp only [hks, hgs, hos, Except.mapError, bind, Except.bind, pure, Except.pure,
          Except.ok.injEq] at h
        exact ⟨keywords, globals, operators, rfl, rfl, rfl, h.symm⟩

theorem ofLists_of_checked {ks gs os : List Text} {keywords globals : List Word}
    {operators : List Operator} (hk : checked Word.ofText? ks = .ok keywords)
    (hg : checked Word.ofText? gs = .ok globals)
    (ho : checked Operator.ofText? os = .ok operators) :
    ofLists ks gs os = .ok (ofEntries keywords globals operators) := by
  rw [ofLists, hk, hg, ho]
  rfl

theorem kindOf_ofEntries {keywords keywords' globals globals' : List Word}
    (operators : List Operator) (hk : keywords.Perm keywords') (hg : globals.Perm globals') :
    (ofEntries keywords globals operators).kindOf =
      (ofEntries keywords' globals' operators).kindOf := by
  have hany : ∀ {ws ws' : List Word}, ws.Perm ws' → ∀ u : Text,
      ws.eraseDups.any (fun w => w.spelling == u) =
        ws'.eraseDups.any (fun w => w.spelling == u) := by
    intro ws ws' h u
    rw [Bool.eq_iff_iff]
    simp only [List.any_eq_true, List.mem_eraseDups, h.mem_iff]
  funext u
  have hglobal : (ofEntries keywords globals operators).isGlobal u =
      (ofEntries keywords' globals' operators).isGlobal u := hany hg u
  have hkeyword : (ofEntries keywords globals operators).isKeyword u =
      (ofEntries keywords' globals' operators).isKeyword u := hany hk u
  rw [kindOf, kindOf, hglobal, hkeyword]

end Vocabulary

/-- **Words are found by one scan.**  On any text, the passes for globals and keywords make
    the segments, and add the tally, of a single scan from left to right that looks each
    run of identifier characters up that is not directly behind an `&`, first among the
    globals, then among the keywords.  The rule for a word is a search for it that goes on
    behind each place where the word stands, and no such place hides a whole word.  Hence
    the words of a vocabulary may be given in any order. -/
theorem words_found_by_one_scan (v : Vocabulary) :
    (∀ (t : Text) (n : Tally), applyPasses v [.platformGlobals, .keywords] ⟨.ofPlain t, n⟩ =
      ⟨.ofSegments (scanRuns v.kindOf t), n.add (.ofPieces (scanRuns v.kindOf t))⟩) ∧
    (∀ (w : Word) (k : Kind) (t : Text), SegmentStream.ofSegments (searchWord w k none t) =
      .ofSegments ((Rule.wrap (wholeWord w.spelling) k).pieces t)) ∧
    ∀ keywords keywords' globals globals' operators : List Text,
      Vocabulary.ofLists keywords globals operators = .ok v →
      keywords.Perm keywords' → globals.Perm globals' →
      ∃ v', Vocabulary.ofLists keywords' globals' operators = .ok v' ∧
        ∀ source, highlight v' source = highlight v source := by
  refine ⟨applyPasses_words_ofPlain v,
    fun w k t => SegmentStream.ofSegments_eq_of_alike (alike_searchWord w k none t), ?_⟩
  intro keywords keywords' globals globals' operators hgiven hkeywords hglobals
  obtain ⟨ks, gs, os, hks, hgs, hos, rfl⟩ := Vocabulary.ofLists_eq_ok hgiven
  obtain ⟨ks', hks', hkperm⟩ := Vocabulary.checked_of_perm hkeywords hks
  obtain ⟨gs', hgs', hgperm⟩ := Vocabulary.checked_of_perm hglobals hgs
  refine ⟨_, Vocabulary.ofLists_of_checked hks' hgs' hos, fun source => ?_⟩
  exact highlight_congr (Vocabulary.kindOf_ofEntries os hkperm.symm hgperm.symm) rfl source

/-- Words that are parts of others and names of entities. -/
def entityWords : Vocabulary :=
  .ofEntries [⟨['l', 't'], by decide⟩, ⟨['l', 'e', 't'], by decide⟩] [⟨['g', 't'], by decide⟩] []

/-- The name of an entity is no word, nor is the beginning of another word; there are two
    keywords more than before. -/
theorem words_found_by_one_scan_of_entity :
    Vocabulary.ofLists ["lt".toList, "let".toList] ["gt".toList] [] = .ok entityWords ∧
      (applyPasses entityWords [.platformGlobals, .keywords]
        ⟨.ofPlain "let gt&lt;lt lets".toList, ⟨1, 0⟩⟩).stream.segments =
        [⟨.keyword, "let".toList⟩, .plain " ".toList, ⟨.platformGlobal, "gt".toList⟩,
          .plain "&lt;".toList, ⟨.keyword, "lt".toList⟩, .plain " lets".toList] ∧
      (applyPasses entityWords [.platformGlobals, .keywords]
        ⟨.ofPlain "let gt&lt;lt lets".toList, ⟨1, 0⟩⟩).tally = ⟨3, 0⟩ ∧
      ∃ v', Vocabulary.ofLists ["let".toList, "lt".toList] ["gt".toList] [] = .ok v' ∧
        ∀ source, highlight v' source = highlight entityWords source := by
  have hgiven : Vocabulary.ofLists ["lt".toList, "let".toList] ["gt".toList] [] =
      .ok entityWords := rfl
  obtain ⟨hscan, -, horder⟩ := words_found_by_one_scan entityWords
  have hsame := horder _ _ _ _ _ hgiven (List.Perm.swap _ _ _) (List.Perm.refl _)
  rw [hscan]
  exact ⟨hgiven, by decide, by decide, hsame⟩

end CodeSnippets

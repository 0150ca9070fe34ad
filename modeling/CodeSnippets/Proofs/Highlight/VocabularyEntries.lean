/-
  What vocabularies are built from.

  * `IsName` and `IsSymbolic`: the words `[A-Za-z_$][A-Za-z0-9_$]*` and the operators that
    a vocabulary takes;
  * `Refuses`: the first entry that is neither, keywords before globals before operators;
  * `Vocabulary.BuiltFrom`: words and operators are the given ones without later
    duplicates, and the operators are in a stable order by decreasing length;
  * `Vocabulary.checked_eq_ok_iff`, `Vocabulary.checked_eq_error_iff`: how the check of a
    list ends;
  * `vocabulary_of_lists`: how the building of a vocabulary ends, and with what.
-/
import CodeSnippets.Proofs.Highlight.WordPasses

namespace CodeSnippets

/-! ## Entries -/

/-- An ASCII letter or digit, `_` or `$`. -/
def IsNamePart (c : Char) : Prop := c.isAlphanum ∨ c ∈ ['_', '$']

/-- A text of the form `[A-Za-z_$][A-Za-z0-9_$]*`. -/
def IsName (t : Text) : Prop :=
  ∃ c rest, t = c :: rest ∧ (c.isAlpha ∨ c ∈ ['_', '$']) ∧ ∀ d ∈ rest, IsNamePart d

/-- A text that is not empty and holds no alphanumeric character, no `_`, `$` or `;`, and
    no white space. -/
def IsSymbolic (t : Text) : Prop :=
  t ≠ [] ∧ ∀ c ∈ t, isAlphanumeric c = false ∧ c ∉ ['_', '$', ';'] ∧ isWhitespace c = false

/-- The first entry of a list that is not valid. -/
def IsFirstBad (Valid : Text → Prop) (l : List Text) (t : Text) : Prop :=
  ∃ a b, l = a ++ t :: b ∧ (∀ u ∈ a, Valid u) ∧ ¬ Valid t

/-- Why three lists make no vocabulary. -/
inductive Refuses (keywords globals operators : List Text) : VocabularyError → Prop
  | word {t} : IsFirstBad IsName (keywords ++ globals) t →
      Refuses keywords globals operators (.invalidWord t)
  | operator {t} : (∀ u ∈ keywords ++ globals, IsName u) → IsFirstBad IsSymbolic operators t →
      Refuses keywords globals operators (.invalidOperator t)

theorem isAlpha_eq (c : Char) : c.isAlpha = isAsciiLetter c := by
  have hupper : c.isUpper = ('A' ≤ c && c ≤ 'Z') := Bool.decide_and _ _
  have hlower : c.isLower = ('a' ≤ c && c ≤ 'z') := rfl
  rw [isAsciiLetter, ← hupper, ← hlower, Bool.or_comm]
  rfl

theorem isDigit_eq (c : Char) : c.isDigit = isAsciiDigit c := rfl

theorem isIdentifierStart_iff {c : Char} :
    isIdentifierStart c = true ↔ c.isAlpha ∨ c ∈ ['_', '$'] := by
  simp [isIdentifierStart, isAlpha_eq, or_assoc]

theorem isAsciiIdentifierPart_iff {c : Char} : isAsciiIdentifierPart c = true ↔ IsNamePart c := by
  rw [isAsciiIdentifierPart, Bool.or_eq_true, isIdentifierStart_iff, IsNamePart, Char.isAlphanum,
    Bool.or_eq_true, isDigit_eq, or_right_comm]

theorem isIdentifier_iff {t : Text} : isIdentifier t = true ↔ IsName t := by
  cases t with
  | nil => simp [isIdentifier, IsName]
  | cons c rest =>
    rw [isIdentifier, Bool.and_eq_true, isIdentifierStart_iff, List.all_eq_true]
    simp only [isAsciiIdentifierPart_iff]
    constructor
    · exact fun h => ⟨c, rest, rfl, h⟩
    · rintro ⟨d, more, heq, hd, hmore⟩
      obtain ⟨rfl, rfl⟩ := List.cons.inj heq
      exact ⟨hd, hmore⟩

theorem isOperatorSpelling_iff {t : Text} : isOperatorSpelling t = true ↔ IsSymbolic t := by
  simp only [isOperatorSpelling, isBarredFromOperators, isIdentifierPart, IsSymbolic,
    Bool.and_eq_true, Bool.not_eq_true', List.isEmpty_eq_false_iff, List.all_eq_true,
    Bool.or_eq_false_iff, beq_eq_false_iff_ne, List.mem_cons, List.not_mem_nil, or_false, not_or]
  grind

theorem Word.isSome_ofText? {t : Text} : (Word.ofText? t).isSome = true ↔ IsName t := by
  rw [← isIdentifier_iff, Word.ofText?]
  split <;> simp_all

theorem Operator.isSome_ofText? {t : Text} :
    (Operator.ofText? t).isSome = true ↔ IsSymbolic t := by
  rw [← isOperatorSpelling_iff, Operator.ofText?]
  split <;> simp_all

theorem Operator.spelling_of_ofText? {t : Text} {o : Operator} (h : Operator.ofText? t = some o) :
    o.spelling = t := by
  unfold Operator.ofText? at h
  split at h
  · cases h
    rfl
  · simp at h

theorem Word.spelling_injective : Function.Injective Word.spelling := by
  rintro ⟨s, _⟩ ⟨t, _⟩ rfl
  rfl

theorem Operator.spelling_injective : Function.Injective Operator.spelling := by
  rintro ⟨s, _⟩ ⟨t, _⟩ rfl
  rfl

/-! ## The first bad entry -/

section
variable {Valid : Text → Prop} {l l' : List Text} {t u : Text}

theorem not_isFirstBad_nil : ¬ IsFirstBad Valid [] t := by
  rintro ⟨a, b, h, -⟩
  simp at h

theorem isFirstBad_cons :
    IsFirstBad Valid (u :: l) t ↔ (¬ Valid u ∧ t = u) ∨ (Valid u ∧ IsFirstBad Valid l t) := by
  constructor
  · rintro ⟨a, b, h, ha, ht⟩
    cases a with
    | nil =>
      obtain ⟨rfl, -⟩ := List.cons.inj h
      exact .inl ⟨ht, rfl⟩
    | cons x a =>
      obtain ⟨rfl, rfl⟩ := List.cons.inj h
      obtain ⟨hx, ha⟩ := List.forall_mem_cons.1 ha
      exact .inr ⟨hx, a, b, rfl, ha, ht⟩
  · rintro (⟨hu, rfl⟩ | ⟨hu, a, b, rfl, ha, ht⟩)
    · exact ⟨[], l, rfl, by simp, hu⟩
    · exact ⟨u :: a, b, rfl, List.forall_mem_cons.2 ⟨hu, ha⟩, ht⟩

theorem isFirstBad_append :
    IsFirstBad Valid (l ++ l') t ↔
      IsFirstBad Valid l t ∨ ((∀ u ∈ l, Valid u) ∧ IsFirstBad Valid l' t) := by
  induction l with
  | nil => simp [not_isFirstBad_nil]
  | cons u l ih =>
    rw [List.cons_append, isFirstBad_cons, isFirstBad_cons, ih, List.forall_mem_cons]
    tauto

end

namespace Vocabulary

section
variable {α : Type} {check : Text → Option α} {l : List Text}

theorem checked_eq_ok_iff {as : List α} :
    checked check l = .ok as ↔ (∀ t ∈ l, (check t).isSome = true) ∧ as = l.filterMap check := by
  constructor
  · intro h
    have hsome := isSome_of_checked h
    rw [checked_of_isSome hsome, Except.ok.injEq] at h
    exact ⟨hsome, h.symm⟩
  · rintro ⟨hsome, rfl⟩
    exact checked_of_isSome hsome

theorem exists_checked_eq_ok_iff :
    (∃ as, checked check l = .ok as) ↔ ∀ t ∈ l, (check t).isSome = true :=
  ⟨fun ⟨_, h⟩ => isSome_of_checked h, fun h => ⟨_, checked_of_isSome h⟩⟩

theorem checked_eq_error_iff {t : Text} :
    checked check l = .error t ↔ IsFirstBad (fun u => (check u).isSome = true) l t := by
  induction l with
  | nil => simp [checked, not_isFirstBad_nil]
  | cons u l ih =>
    rw [isFirstBad_cons, ← ih]
    cases hu : check u with
    | none => simp [checked, hu, eq_comm]
    | some a => cases hl : checked check l <;> simp [checked, hu, hl, Except.map]

/-- Checked entries are spelled as they were given. -/
theorem map_of_checked {spelling : α → Text} {as : List α}
    (hspelling : ∀ {t a}, check t = some a → spelling a = t) (h : checked check l = .ok as) :
    as.map spelling = l := by
  obtain ⟨hsome, rfl⟩ := checked_eq_ok_iff.1 h
  clear h
  induction l with
  | nil => rfl
  | cons t l ih =>
    obtain ⟨ht, hl⟩ := List.forall_mem_cons.1 hsome
    obtain ⟨a, ha⟩ := Option.isSome_iff_exists.1 ht
    rw [List.filterMap_cons_some ha, List.map_cons, hspelling ha, ih hl]

end

/-! ## How the building ends -/

variable {keywords globals operators : List Text}

theorem exists_ofLists_eq_ok_iff :
    (∃ v, ofLists keywords globals operators = .ok v) ↔
      (∀ t ∈ keywords ++ globals, IsName t) ∧ ∀ t ∈ operators, IsSymbolic t := by
  simp only [← Word.isSome_ofText?, ← Operator.isSome_ofText?, List.forall_mem_append]
  constructor
  · rintro ⟨v, hv⟩
    obtain ⟨ks, gs, os, hk, hg, ho, -⟩ := ofLists_eq_ok hv
    exact ⟨⟨isSome_of_checked hk, isSome_of_checked hg⟩, isSome_of_checked ho⟩
  · rintro ⟨⟨hk, hg⟩, ho⟩
    exact ⟨_, ofLists_of_checked (checked_of_isSome hk) (checked_of_isSome hg)
      (checked_of_isSome ho)⟩

/-- Keywords are checked first, and operators only when all words are valid. -/
theorem refuses_iff {e : VocabularyError} :
    Refuses keywords globals operators e ↔
      (∃ t, checked Word.ofText? keywords = .error t ∧ e = .invalidWord t) ∨
      (∃ ks, checked Word.ofText? keywords = .ok ks) ∧
        ((∃ t, checked Word.ofText? globals = .error t ∧ e = .invalidWord t) ∨
        (∃ gs, checked Word.ofText? globals = .ok gs) ∧
          ∃ t, checked Operator.ofText? operators = .error t ∧ e = .invalidOperator t) := by
  simp only [checked_eq_error_iff, exists_checked_eq_ok_iff, Word.isSome_ofText?,
    Operator.isSome_ofText?]
  constructor
  · rintro (h | ⟨hwords, h⟩)
    · rcases isFirstBad_append.1 h with h | ⟨hk, h⟩
      · exact .inl ⟨_, h, rfl⟩
      · exact .inr ⟨hk, .inl ⟨_, h, rfl⟩⟩
    · obtain ⟨hk, hg⟩ := List.forall_mem_append.1 hwords
      exact .inr ⟨hk, .inr ⟨hg, _, h, rfl⟩⟩
  · rintro (⟨t, h, rfl⟩ | ⟨hk, ⟨t, h, rfl⟩ | ⟨hg, t, h, rfl⟩⟩)
    · exact .word (isFirstBad_append.2 (.inl h))
    · exact .word (isFirstBad_append.2 (.inr ⟨hk, h⟩))
    · exact .operator (List.forall_mem_append.2 ⟨hk, hg⟩) h

theorem ofLists_eq_error_iff {e : VocabularyError} :
    ofLists keywords globals operators = .error e ↔ Refuses keywords globals operators e := by
  rw [refuses_iff, ofLists]
  cases checked Word.ofText? keywords with
  | error t => simp [Except.mapError, bind, Except.bind, eq_comm]
  | ok ks =>
    cases checked Word.ofText? globals with
    | error t => simp [Except.mapError, bind, Except.bind, eq_comm]
    | ok gs =>
      cases checked Operator.ofText? operators with
      | error t => simp [Except.mapError, bind, Except.bind, eq_comm]
      | ok os => simp [Except.mapError, bind, Except.bind, pure, Except.pure]

end Vocabulary

/-! ## Entries in their order -/

theorem map_eraseDups {α β : Type} [BEq α] [LawfulBEq α] [BEq β] [LawfulBEq β] {f : α → β}
    (hf : Function.Injective f) (l : List α) : l.eraseDups.map f = (l.map f).eraseDups := by
  induction hn : l.length using Nat.strongRecOn generalizing l with
  | _ n ih =>
    subst hn
    cases l with
    | nil => rfl
    | cons a l =>
      have hfilter : (l.filter fun b => !b == a).map f = (l.map f).filter fun b => !b == f a := by
        rw [List.filter_map]
        congr 2
        funext b
        simp [hf.eq_iff]
      rw [List.map_cons, List.eraseDups_cons, List.eraseDups_cons, List.map_cons, ← hfilter,
        ih _ (Nat.lt_succ_of_le (List.length_filter_le _ _)) _ rfl]

theorem nodup_eraseDups {α : Type} [BEq α] [LawfulBEq α] (l : List α) : l.eraseDups.Nodup := by
  induction hn : l.length using Nat.strongRecOn generalizing l with
  | _ n ih =>
    subst hn
    cases l with
    | nil => simp
    | cons a l =>
      rw [List.eraseDups_cons, List.nodup_cons]
      refine ⟨by simp [List.mem_eraseDups], ih _ ?_ _ rfl⟩
      exact Nat.lt_succ_of_le (List.length_filter_le _ _)

/-- Operators of one length stay in their order. -/
theorem filter_sortOperators (os : List Operator) (n : Nat) :
    (sortOperators os).filter (·.spelling.length == n) = os.filter (·.spelling.length == n) := by
  have hperm : (sortOperators os).Perm os := List.mergeSort_perm _ _
  have hlevel : (os.filter (·.spelling.length == n)).Pairwise fun a b =>
      decide (b.spelling.length ≤ a.spelling.length) = true := by
    refine List.pairwise_of_forall_mem_list fun a ha b hb => ?_
    simp only [List.mem_filter, beq_iff_eq] at ha hb
    simp [ha.2, hb.2]
  have hsub : (os.filter (·.spelling.length == n)).Sublist (sortOperators os) :=
    List.sublist_mergeSort (fun a b c hab hbc => by simp at *; omega) (fun a b => by simp; omega)
      hlevel List.filter_sublist
  have h := hsub.filter (·.spelling.length == n)
  rw [List.filter_filter] at h
  simp only [Bool.and_self] at h
  exact (h.eq_of_length (hperm.filter _).length_eq.symm).symm

/-- Where texts are in an order by decreasing length, none stands behind a part of it. -/
theorem pairwise_not_isInfix {l : List Text} (hl : l.Pairwise fun a b => b.length ≤ a.length)
    (hnodup : l.Nodup) : l.Pairwise fun a b => ¬ a <:+: b := by
  refine (hl.and hnodup).imp ?_
  rintro a b ⟨hle, hne⟩ hab
  exact hne (hab.eq_of_length (le_antisymm hab.length_le hle))

/-- What a vocabulary holds of the lists that it is built from.  In the row of operators
    none stands behind one that is a part of it. -/
structure Vocabulary.BuiltFrom (v : Vocabulary) (keywords globals operators : List Text) :
    Prop where
  keywords : v.keywords.map Word.spelling = keywords.eraseDups
  globals : v.globals.map Word.spelling = globals.eraseDups
  perm : (v.operators.map Operator.spelling).Perm operators.eraseDups
  longest_first : (v.operators.map Operator.spelling).Pairwise fun a b => b.length ≤ a.length
  stable : ∀ n, (v.operators.map Operator.spelling).filter (·.length == n) =
    operators.eraseDups.filter (·.length == n)
  parts_last : (v.operators.map Operator.spelling).Pairwise fun a b => ¬ a <:+: b

theorem Vocabulary.builtFrom_of_ofLists {keywords globals operators : List Text} {v : Vocabulary}
    (h : ofLists keywords globals operators = .ok v) : v.BuiltFrom keywords globals operators := by
  obtain ⟨ks, gs, os, hk, hg, ho, rfl⟩ := ofLists_eq_ok h
  have hkeywords := map_of_checked Word.spelling_of_ofText? hk
  have hglobals := map_of_checked Word.spelling_of_ofText? hg
  have hoperators := map_of_checked Operator.spelling_of_ofText? ho
  have hperm : ((sortOperators os.eraseDups).map Operator.spelling).Perm operators.eraseDups := by
    rw [← hoperators, ← map_eraseDups Operator.spelling_injective]
    exact (List.mergeSort_perm _ _).map _
  have hsorted : ((sortOperators os.eraseDups).map Operator.spelling).Pairwise
      fun a b => b.length ≤ a.length :=
    List.pairwise_map.2 (sortOperators_pairwise _)
  exact
    { keywords := by
        rw [← hkeywords]
        exact map_eraseDups Word.spelling_injective ks
      globals := by
        rw [← hglobals]
        exact map_eraseDups Word.spelling_injective gs
      perm := hperm
      longest_first := hsorted
      stable := by
        intro n
        rw [← hoperators, ← map_eraseDups Operator.spelling_injective, List.filter_map,
          List.filter_map]
        exact congrArg _ (filter_sortOperators os.eraseDups n)
      parts_last := pairwise_not_isInfix hsorted (hperm.nodup_iff.2 (nodup_eraseDups _)) }

/-- **What a vocabulary is built from.**  Three lists make a vocabulary if and only if every
    word has the form `[A-Za-z_$][A-Za-z0-9_$]*` and every operator is not empty and free of
    alphanumeric characters, `_`, `$`, `;` and white space.  The error names the first entry
    that is not so, of keywords, then globals, then operators.  Otherwise the words are those
    given without later duplicates, and so are the operators up to their order: longer ones
    first, those of one length as they were given, and none behind one of its parts. -/
theorem vocabulary_of_lists (keywords globals operators : List Text) :
    ((∃ v, Vocabulary.ofLists keywords globals operators = .ok v) ↔
      (∀ t ∈ keywords ++ globals, IsName t) ∧ ∀ t ∈ operators, IsSymbolic t) ∧
    (∀ e, Vocabulary.ofLists keywords globals operators = .error e ↔
      Refuses keywords globals operators e) ∧
    ∀ v, Vocabulary.ofLists keywords globals operators = .ok v →
      v.BuiltFrom keywords globals operators :=
  ⟨Vocabulary.exists_ofLists_eq_ok_iff, fun _ => Vocabulary.ofLists_eq_error_iff,
    fun _ => Vocabulary.builtFrom_of_ofLists⟩

/-- Two operators of one length stay in their order, and the longer one comes first. -/
theorem vocabulary_of_lists_with_repeats :
    ∃ v, Vocabulary.ofLists ["let".toList, "let".toList] [] ["=".toList, "+".toList, "==".toList,
        "=".toList] = .ok v ∧
      v.keywords.map Word.spelling = ["let".toList] ∧
      v.BuiltFrom ["let".toList, "let".toList] [] ["=".toList, "+".toList, "==".toList,
        "=".toList] ∧
      v.operators.map Operator.spelling = ["==".toList, "=".toList, "+".toList] := by
  have hgiven : Vocabulary.ofLists ["let".toList, "let".toList] [] ["=".toList, "+".toList,
      "==".toList, "=".toList] = .ok (.ofEntries [⟨"let".toList, by decide⟩] []
        [⟨"=".toList, by decide⟩, ⟨"+".toList, by decide⟩, ⟨"==".toList, by decide⟩]) := rfl
  obtain ⟨-, -, hbuilt⟩ := vocabulary_of_lists ["let".toList, "let".toList] [] ["=".toList,
    "+".toList, "==".toList, "=".toList]
  refine ⟨_, hgiven, rfl, hbuilt _ hgiven, ?_⟩
  simp [Vocabulary.ofEntries, sortOperators, List.eraseDups_cons, List.mergeSort]

end CodeSnippets

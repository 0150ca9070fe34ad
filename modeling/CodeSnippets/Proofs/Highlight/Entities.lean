/-
  Entities in escaped text.

  Escaping is a code: every character stands for itself or for an entity, and no code
  of a character begins the code of another.  Hence escaped text is read back without
  loss, and what follows an escaped beginning of an escaped text is escaped too.

  * `decodeEntities`, `decodeEntities_escape`: reading escaped text back;
  * `escape_append_cancel`: what is left behind an escaped beginning;
  * `isWithinEntity`: two characters between which an entity may go on; a cut
    anywhere else leaves two escaped texts (`exists_escape_of_append`).
-/
import CodeSnippets.Highlight.Escape
import Mathlib.Data.List.Chain

namespace CodeSnippets

/-! ## Reading back -/

/-- The text with the three entities read as the characters they stand for. -/
def decodeEntities : Text → Text
  | '&' :: 'a' :: 'm' :: 'p' :: ';' :: rest => '&' :: decodeEntities rest
  | '&' :: 'l' :: 't' :: ';' :: rest => '<' :: decodeEntities rest
  | '&' :: 'g' :: 't' :: ';' :: rest => '>' :: decodeEntities rest
  | c :: rest => c :: decodeEntities rest
  | [] => []

theorem escapeChar_of_ne {c : Char} (h₁ : c ≠ '&') (h₂ : c ≠ '<') (h₃ : c ≠ '>') :
    escapeChar c = [c] := by
  simp [escapeChar, h₁, h₂, h₃]

theorem decodeEntities_cons_of_ne {c : Char} (h : c ≠ '&') (rest : Text) :
    decodeEntities (c :: rest) = c :: decodeEntities rest := by
  conv_lhs => unfold decodeEntities
  split <;> simp_all

theorem decodeEntities_escapeChar (c : Char) (rest : Text) :
    decodeEntities (escapeChar c ++ rest) = c :: decodeEntities rest := by
  by_cases h₁ : c = '&'
  · subst h₁; simp [escapeChar, decodeEntities]
  by_cases h₂ : c = '<'
  · subst h₂; simp [escapeChar, decodeEntities]
  by_cases h₃ : c = '>'
  · subst h₃; simp [escapeChar, decodeEntities]
  rw [escapeChar_of_ne h₁ h₂ h₃, List.singleton_append, decodeEntities_cons_of_ne h₁]

theorem decodeEntities_escape_append (u rest : Text) :
    decodeEntities (escape u ++ rest) = u ++ decodeEntities rest := by
  induction u with
  | nil => rfl
  | cons c u ih =>
    rw [escape_cons, List.append_assoc, decodeEntities_escapeChar, ih]
    rfl

/-- **Escaped text is read back without loss.** -/
theorem decodeEntities_escape (u : Text) : decodeEntities (escape u) = u := by
  have h := decodeEntities_escape_append u []
  rwa [List.append_nil, decodeEntities, List.append_nil] at h

theorem escape_injective {u v : Text} (h : escape u = escape v) : u = v := by
  rw [← decodeEntities_escape u, h, decodeEntities_escape]

/-- **What follows an escaped beginning of an escaped text is escaped.** -/
theorem escape_append_cancel {s w r : Text} (h : escape s = escape w ++ r) :
    ∃ u, s = w ++ u ∧ r = escape u := by
  have hs : s = w ++ decodeEntities r := by
    rw [← decodeEntities_escape_append, ← h, decodeEntities_escape]
  refine ⟨decodeEntities r, hs, ?_⟩
  rw [hs, escape_append] at h
  exact (List.append_cancel_left h).symm

/-! ## Characters of escaped text -/

theorem ne_of_all {l : Text} (h : (l.all fun d => d != '<' && d != '>') = true) {d : Char}
    (hd : d ∈ l) : d ≠ '<' ∧ d ≠ '>' := by
  simpa using List.all_eq_true.1 h d hd

theorem ne_of_mem_escapeChar {c d : Char} (h : d ∈ escapeChar c) : d ≠ '<' ∧ d ≠ '>' := by
  unfold escapeChar at h
  split_ifs at h with h₁ h₂ h₃
  · exact ne_of_all rfl h
  · exact ne_of_all rfl h
  · exact ne_of_all rfl h
  · rw [List.mem_singleton.1 h]
    exact ⟨h₂, h₃⟩

/-- **Escaped text holds no `<` and no `>`.** -/
theorem ne_of_mem_escape {u : Text} {d : Char} (h : d ∈ escape u) : d ≠ '<' ∧ d ≠ '>' := by
  obtain ⟨c, -, hc⟩ := List.mem_flatMap.1 h
  exact ne_of_mem_escapeChar hc

theorem escape_eq_self {p : Char → Bool} (h₁ : p '&' = false) (h₂ : p '<' = false)
    (h₃ : p '>' = false) {w : Text} (hw : ∀ c ∈ w, p c = true) : escape w = w := by
  induction w with
  | nil => rfl
  | cons c w ih =>
    simp only [List.forall_mem_cons] at hw
    have hc : escapeChar c = [c] := by
      refine escapeChar_of_ne ?_ ?_ ?_
      all_goals
        rintro rfl
        simp_all
    rw [escape_cons, hc, ih hw.2]
    rfl

/-! ## Cuts of escaped text -/

/-- The characters of entities behind which an entity goes on. -/
def entityFront : Text := ['&', 'a', 'm', 'p', 'l', 't', 'g']

/-- The characters of entities in front of which an entity goes on. -/
def entityBack : Text := ['a', 'm', 'p', 'l', 't', 'g', ';']

/-- Whether an entity may go on between two characters. -/
def isWithinEntity (x c : Char) : Bool := entityFront.contains x && entityBack.contains c

theorem not_within_of_front {p : Char → Bool} (hp : entityFront.all (fun d => !p d) = true)
    {x : Char} (hx : p x = true) (c : Char) : isWithinEntity x c = false := by
  unfold isWithinEntity
  rcases h : entityFront.contains x with _ | _
  · rfl
  · have := List.all_eq_true.1 hp x (List.contains_iff_mem.1 h)
    simp [hx] at this

theorem not_within_of_back {p : Char → Bool} (hp : entityBack.all (fun d => !p d) = true)
    {c : Char} (hc : p c = true) (x : Char) : isWithinEntity x c = false := by
  unfold isWithinEntity
  rcases h : entityBack.contains c with _ | _
  · simp
  · have := List.all_eq_true.1 hp c (List.contains_iff_mem.1 h)
    simp [hc] at this

theorem isChain_escapeChar (c : Char) :
    (escapeChar c).IsChain fun x d => isWithinEntity x d = true := by
  unfold escapeChar
  split
  · decide
  · split
    · decide
    · split
      · decide
      · exact .singleton _

/-- **A cut between two characters that are not within an entity leaves two escaped
    texts.** -/
theorem exists_escape_of_append {s p r : Text} (h : escape s = p ++ r)
    (hcut : ∀ x ∈ p.getLast?, ∀ c ∈ r.head?, isWithinEntity x c = false) :
    ∃ w, p = escape w := by
  induction s generalizing p with
  | nil =>
    have hp : p = [] := (List.append_eq_nil_iff.1 h.symm).1
    exact ⟨[], hp⟩
  | cons c s ih =>
    rw [escape_cons] at h
    rcases List.append_eq_append_iff.1 h with ⟨q, rfl, hq⟩ | ⟨q, hc, rfl⟩
    · -- the cut is behind the first character
      have hcut' : ∀ x ∈ q.getLast?, ∀ d ∈ r.head?, isWithinEntity x d = false := by
        intro x hx
        refine hcut x ?_
        rw [List.getLast?_append, Option.mem_def.1 hx]
        rfl
      obtain ⟨w, rfl⟩ := ih hq hcut'
      exact ⟨c :: w, (escape_cons c w).symm⟩
    · -- the cut is in front of it or within its entity
      by_cases hp : p = []
      · exact ⟨[], hp⟩
      by_cases hq : q = []
      · exact ⟨[c], by simpa [hq] using hc.symm⟩
      exfalso
      have hchain := isChain_escapeChar c
      rw [hc, List.isChain_append] at hchain
      obtain ⟨x, hx⟩ := List.getLast?_isSome.2 hp |> Option.isSome_iff_exists.1
      obtain ⟨d, q', rfl⟩ := List.exists_cons_of_ne_nil hq
      have := hchain.2.2 x hx d rfl
      rw [hcut x hx d rfl] at this
      simp at this

end CodeSnippets

/-
  Runs of identifier characters, and scans that give kinds to them.

  A text is cut into its maximal runs of identifier characters and the other
  characters, each by itself.  A scan goes over the parts from left to right and gives
  each a kind by its spelling, except behind an `&`, where an entity has its name.

  * `identifierRuns`, `identifierRuns_append`: the parts of a text;
  * `identifierRuns_induction`: to prove a property of every text, go over its parts;
  * `scanRuns`: the segments that a scan makes;
  * `replacePlain_scanRuns_scanRuns`: two scans, one after the other, make what a single
    scan makes that looks a spelling up in the first table and then in the second.  No
    scan cuts a run in two, so the second one meets the same runs.
-/
import CodeSnippets.Proofs.Highlight.Matches
import CodeSnippets.Proofs.Highlight.NormalForm

namespace CodeSnippets

/-! ## Identifier characters -/

theorem contains_alphabetic_of_isAsciiLetter {c : Char} (h : isAsciiLetter c = true) :
    alphabetic.contains c.toNat = true := by
  have hrange : (65 ≤ c.toNat ∧ c.toNat ≤ 90) ∨ (97 ≤ c.toNat ∧ c.toNat ≤ 122) := by
    simp only [isAsciiLetter, Bool.or_eq_true, Bool.and_eq_true, decide_eq_true_iff] at h
    exact h.symm
  unfold alphabetic
  rcases hrange with hrange | hrange
  · rw [CodeRanges.contains, if_neg (by omega), if_pos (by omega)]
  · rw [CodeRanges.contains, if_neg (by omega), if_neg (by omega), CodeRanges.contains,
      if_neg (by omega), if_pos (by omega)]

theorem contains_decimalDigit_of_isAsciiDigit {c : Char} (h : isAsciiDigit c = true) :
    decimalDigit.contains c.toNat = true := by
  have hrange : 48 ≤ c.toNat ∧ c.toNat ≤ 57 := by
    simp only [isAsciiDigit, Bool.and_eq_true, decide_eq_true_iff] at h
    exact h
  unfold decimalDigit
  rw [CodeRanges.contains, if_neg (by omega), if_pos (by omega)]

theorem isIdentifierPart_of_ascii {c : Char} (h : isAsciiIdentifierPart c = true) :
    isIdentifierPart c = true := by
  simp only [isAsciiIdentifierPart, isIdentifierStart, Bool.or_eq_true] at h
  simp only [isIdentifierPart, isAlphanumeric, Bool.or_eq_true]
  rcases h with ((h | h) | h) | h
  · exact .inl (.inl (.inl (.inl (contains_alphabetic_of_isAsciiLetter h))))
  · exact .inl (.inr h)
  · exact .inr h
  · exact .inl (.inl (.inl (.inr (contains_decimalDigit_of_isAsciiDigit h))))

/-! ## Runs -/

/-- The maximal runs of identifier characters in a text, and every other character by
    itself. -/
def identifierRuns (t : Text) : List Text :=
  t.splitBy fun c d => isIdentifierPart c && isIdentifierPart d

/-- A text does not begin with an identifier character. -/
def BeginsBetween (t : Text) : Prop := ∀ c ∈ t.head?, isIdentifierPart c = false

/-- A part of a text in front of the rest of it: a character that is in no run, or a run
    that the rest does not go on with. -/
inductive IsPart : Text → Text → Prop
  | other {c : Char} (t : Text) : isIdentifierPart c = false → IsPart [c] t
  | run {r t : Text} : r ≠ [] → (∀ c ∈ r, isIdentifierPart c = true) → BeginsBetween t → IsPart r t

theorem IsPart.ne_nil {r t : Text} (h : IsPart r t) : r ≠ [] := by
  cases h with
  | other t hc => simp
  | run hne => exact hne

/-- Of the rest, only its first character matters. -/
theorem IsPart.of_head? {r t u : Text} (h : IsPart r t) (hu : ∀ c ∈ u.head?, c ∈ t.head?) :
    IsPart r u := by
  cases h with
  | other t hc => exact .other u hc
  | run hne hr ht => exact .run hne hr fun c hc => ht c (hu c hc)

theorem IsPart.beginsBetween {r t : Text} (h : IsPart r t)
    (hr : ∀ c ∈ r, isIdentifierPart c = true) : BeginsBetween t := by
  cases h with
  | @other c t hc =>
    rw [hr c List.mem_cons_self] at hc
    cases hc
  | run _ _ ht => exact ht

/-- Behind an identifier character, the rest begins between runs. -/
theorem IsPart.beginsBetween_of_getLast? {r t : Text} (h : IsPart r t) {x : Char}
    (hx : x ∈ r.getLast?) (hid : isIdentifierPart x = true) : BeginsBetween t := by
  cases h with
  | @other c _ hc =>
    obtain rfl : c = x := by simpa using hx
    rw [hc] at hid
    cases hid
  | run _ _ ht => exact ht

theorem identifierRuns_append {r t : Text} (h : IsPart r t) :
    identifierRuns (r ++ t) = r :: identifierRuns t := by
  cases h with
  | other t hc => exact splitBy_class_cons hc t
  | run hne hr ht => exact splitBy_class_append hne hr ht

/-- A property holds of every text if it holds of the empty one and is kept by a part in
    front. -/
theorem identifierRuns_induction {P : Text → Prop} (nil : P [])
    (part : ∀ r t, IsPart r t → P t → P (r ++ t)) (t : Text) : P t := by
  induction hn : t.length using Nat.strongRecOn generalizing t with
  | _ n ih =>
    subst hn
    cases t with
    | nil => exact nil
    | cons c t =>
      cases hc : isIdentifierPart c with
      | false => exact part [c] t (.other t hc) (ih _ (by simp) t rfl)
      | true =>
        have hle := (List.dropWhile_suffix isIdentifierPart (l := t)).length_le
        rw [← List.takeWhile_append_dropWhile (p := isIdentifierPart) (l := t), ← List.cons_append]
        refine part _ _ (.run (by simp) ?_ fun d hd => head?_dropWhile_neg hd) (ih _ ?_ _ rfl)
        · exact List.forall_mem_cons.2 ⟨hc, fun d hd => List.mem_takeWhile_imp hd⟩
        · rw [List.length_cons]
          omega

/-! ## Scans -/

/-- The parts of a text with their kinds, behind a character, if there is one.  A part
    directly behind an `&` stays plain. -/
def labelRuns (kindOf : Text → Kind) (before : Option Char) : List Text → List Segment
  | [] => []
  | run :: runs =>
    ⟨if before = some '&' then .plain else kindOf run, run⟩ ::
      labelRuns kindOf run.getLast? runs

/-- What a single scan makes of a text. -/
def scanRuns (kindOf : Text → Kind) (t : Text) : List Segment :=
  labelRuns kindOf none (identifierRuns t)

/-- A table that gives kinds to runs of identifier characters only. -/
def NamesRuns (kindOf : Text → Kind) : Prop :=
  ∀ u, kindOf u ≠ .plain → ∀ c ∈ u, isIdentifierPart c = true

theorem textOf_labelRuns (kindOf : Text → Kind) (before : Option Char) (runs : List Text) :
    Segment.textOf (labelRuns kindOf before runs) = runs.flatten := by
  induction runs generalizing before with
  | nil => rfl
  | cons run runs ih => rw [labelRuns, Segment.textOf_cons, ih, List.flatten_cons]

theorem flatten_identifierRuns (t : Text) : (identifierRuns t).flatten = t :=
  List.flatten_splitBy _ t

theorem text_ne_nil_of_mem_scanRuns {kindOf : Text → Kind} {t : Text} :
    ∀ x ∈ scanRuns kindOf t, x.text ≠ [] := by
  have hruns : ∀ run ∈ identifierRuns t, run ≠ [] := fun run => List.ne_nil_of_mem_splitBy
  unfold scanRuns
  generalize none = before
  generalize identifierRuns t = runs at hruns
  induction runs generalizing before with
  | nil => simp [labelRuns]
  | cons run runs ih =>
    simp only [List.forall_mem_cons] at hruns
    exact List.forall_mem_cons.2 ⟨hruns.1, ih _ hruns.2⟩

/-- A scan that gives no kinds changes nothing. -/
theorem replacePlain_scanRuns_plain (s : SegmentStream) :
    s.replacePlain (scanRuns fun _ => .plain) = s := by
  have hplain : ∀ (runs : List Text) (before : Option Char),
      ∀ x ∈ labelRuns (fun _ => .plain) before runs, x.isPlain = true := by
    intro runs
    induction runs with
    | nil => simp [labelRuns]
    | cons run runs ih =>
      exact fun before => List.forall_mem_cons.2 ⟨by simp [Segment.isPlain], ih _⟩
  have hchars : ∀ t : Text,
      Segment.Alike (scanRuns (fun _ => .plain) t) (t.map fun c => .plain [c]) := by
    intro t m
    rw [scanRuns, Segment.alike_plain (hplain _ none) m, textOf_labelRuns, flatten_identifierRuns,
      Segment.foldr_attach_chars]
    rfl
  rw [SegmentStream.replacePlain_congr hchars, SegmentStream.replacePlain_eq_self fun _ _ => rfl]

/-- What stands in front does not matter to a text that begins between runs. -/
theorem labelRuns_of_beginsBetween {kindOf : Text → Kind} (h : NamesRuns kindOf) {t : Text}
    (ht : BeginsBetween t) (before : Option Char) :
    labelRuns kindOf before (identifierRuns t) = scanRuns kindOf t := by
  unfold scanRuns
  cases t with
  | nil => rfl
  | cons c t =>
    have hc : isIdentifierPart c = false := ht c rfl
    have hplain : kindOf [c] = .plain := by
      by_contra hne
      rw [h [c] hne c List.mem_cons_self] at hc
      cases hc
    have hruns : identifierRuns (c :: t) = [c] :: identifierRuns t :=
      identifierRuns_append (.other t hc)
    rw [hruns, labelRuns, labelRuns, hplain, ite_self, ite_self]

/-! ## One scan after another -/

/-- A kind, or another one in place of none. -/
def Kind.orElse (k k' : Kind) : Kind := if k = .plain then k' else k

/-- What a scan makes of segments behind a character, if there is one. -/
def rescan (kindOf : Text → Kind) (before : Option Char) : List Segment → List Segment
  | [] => []
  | x :: rest =>
    (if x.isPlain then labelRuns kindOf before (identifierRuns x.text) else [x]) ++
      rest.flatMap (SegmentStream.replaced (scanRuns kindOf))

theorem rescan_none (kindOf : Text → Kind) (l : List Segment) :
    rescan kindOf none l = l.flatMap (SegmentStream.replaced (scanRuns kindOf)) := by
  cases l <;> rfl

section

variable {kindOf : Text → Kind} {s : SegmentStream}

theorem rescan_of_beginsBetween (h : NamesRuns kindOf) (hs : BeginsBetween s.text)
    (before : Option Char) : rescan kindOf before s.segments = rescan kindOf none s.segments := by
  cases hl : s.segments with
  | nil => rfl
  | cons x rest =>
    have hx : BeginsBetween x.text := by
      rw [BeginsBetween, SegmentStream.head?_text_of_mem_head? (s := s) (by rw [hl]; rfl)]
      exact hs
    rw [rescan, rescan, labelRuns_of_beginsBetween h hx, labelRuns_of_beginsBetween h hx]

/-- A plain part in front is scanned like a part of its own. -/
theorem rescan_attach_plain {r : Text} (hr : IsPart r s.text) (before : Option Char) :
    rescan kindOf before ((Segment.plain r).attach s.segments) =
      ⟨if before = some '&' then .plain else kindOf r, r⟩ ::
        rescan kindOf r.getLast? s.segments := by
  have hone : identifierRuns r = [r] := by
    have h := identifierRuns_append (hr.of_head? (u := []) (by simp))
    rwa [List.append_nil] at h
  cases hl : s.segments with
  | nil => simp [Segment.attach, hr.ne_nil, rescan, hone, labelRuns]
  | cons x rest =>
    cases hx : x.isPlain with
    | false =>
      simp [Segment.attach, hr.ne_nil, rescan, hone, labelRuns, hx, SegmentStream.replaced]
    | true =>
      have hhead : x.text.head? = s.text.head? :=
        SegmentStream.head?_text_of_mem_head? (by rw [hl]; rfl)
      have hruns : identifierRuns (r ++ x.text) = r :: identifierRuns x.text :=
        identifierRuns_append (hr.of_head? fun c hc => hhead ▸ hc)
      simp [Segment.attach, hr.ne_nil, rescan, hruns, labelRuns, hx]

end

/-- A scan of what another scan has left makes what a single scan makes that looks up
    both tables. -/
theorem alike_rescan {kindOf kindOf' : Text → Kind} (h : NamesRuns kindOf)
    (h' : NamesRuns kindOf') (t : Text) (before : Option Char) :
    Segment.Alike
      (rescan kindOf' before
        (SegmentStream.ofSegments (labelRuns kindOf before (identifierRuns t))).segments)
      (labelRuns (fun u => (kindOf u).orElse (kindOf' u)) before (identifierRuns t)) := by
  induction t using identifierRuns_induction generalizing before with
  | nil => exact Segment.Alike.refl _
  | part r t hr ih =>
    rw [identifierRuns_append hr, labelRuns, labelRuns, SegmentStream.segments_ofSegments_cons]
    have htext : (SegmentStream.ofSegments
        (labelRuns kindOf r.getLast? (identifierRuns t))).text = t := by
      rw [SegmentStream.text_ofSegments, textOf_labelRuns, flatten_identifierRuns]
    have hrest := (Segment.Alike.refl
      [⟨if before = some '&' then .plain else (kindOf r).orElse (kindOf' r), r⟩]).append
      (ih r.getLast?)
    by_cases hk : (if before = some '&' then Kind.plain else kindOf r) = .plain
    · rw [hk]
      have hkind : (if before = some '&' then Kind.plain else (kindOf r).orElse (kindOf' r)) =
          if before = some '&' then .plain else kindOf' r := by
        split
        · rfl
        · rename_i hb
          rw [if_neg hb] at hk
          rw [hk]
          rfl
      rw [hkind] at hrest ⊢
      rw [← Segment.plain, rescan_attach_plain (by rwa [htext])]
      exact hrest
    · have hb : before ≠ some '&' := fun hb => hk (if_pos hb)
      rw [if_neg hb] at hk hrest ⊢
      rw [if_neg hb]
      have hbetween : BeginsBetween t := hr.beginsBetween (h r hk)
      rw [Segment.attach_of_classified (by simpa [Segment.isPlain] using hk) hr.ne_nil]
      rw [rescan_of_beginsBetween h' (by rwa [htext]) r.getLast?, rescan_none] at hrest
      have hkind : (kindOf r).orElse (kindOf' r) = kindOf r := if_neg hk
      rw [hkind] at hrest ⊢
      simpa [rescan, Segment.isPlain, hk] using hrest

/-- **Two scans make what a single scan makes**, on every plain segment of a stream. -/
theorem replacePlain_scanRuns_scanRuns {kindOf kindOf' : Text → Kind} (h : NamesRuns kindOf)
    (h' : NamesRuns kindOf') (s : SegmentStream) :
    (s.replacePlain (scanRuns kindOf)).replacePlain (scanRuns kindOf') =
      s.replacePlain (scanRuns fun u => (kindOf u).orElse (kindOf' u)) := by
  rw [SegmentStream.replacePlain_eq (s.replacePlain _), SegmentStream.segments_replacePlain,
    SegmentStream.replacePlain_eq, List.flatMap_assoc]
  refine SegmentStream.ofSegments_eq_of_alike (Segment.Alike.flatMap fun x hx => ?_)
  rw [← rescan_none]
  cases hp : x.isPlain with
  | true =>
    simp only [SegmentStream.replaced, hp, if_true]
    exact alike_rescan h h' x.text none
  | false =>
    have hone : (SegmentStream.ofSegments [x]).segments = [x] := by
      rw [SegmentStream.segments_ofSegments_cons,
        Segment.attach_of_classified hp (s.normal.text_ne_nil x hx)]
      rfl
    simp only [SegmentStream.replaced, hp, Bool.false_eq_true, if_false, hone, rescan]
    exact Segment.Alike.refl _

end CodeSnippets

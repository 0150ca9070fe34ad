/-
  Numbers and arrays of a TOML document are read back as they were written.

  * `integer_ofNat`, `value_ofNat`: a number at the end of its line.  Its digits are no
    date, no time of day and no float (`moment_digits`, `float_ofNat`);
  * `valueTo_string`: a string, at any depth;
  * `value_strings`: an array of strings, on one line or with a line for each.
-/
import CodeSnippets.Proofs.Toml.WrittenStrings
import CodeSnippets.Toml.Reader

namespace CodeSnippets.Toml

open Reader

/-! ## Decimal digits -/

theorem isAsciiDigit_of_mem_ofNat {n : Nat} {c : Char} (h : c ∈ Text.ofNat n) :
    isAsciiDigit c = true := by
  have hdigit := Nat.isDigit_of_mem_toDigits (by decide) (by decide) h
  simpa only [isAsciiDigit, Char.isDigit, Char.le_def, ge_iff_le] using hdigit

/-- Only the number zero begins with a zero. -/
theorem head?_ofNat {n : Nat} (h : n ≠ 0) : (Text.ofNat n).head? ≠ some '0' := by
  have hdigit : ∀ d < 10, d ≠ 0 → Nat.digitChar d ≠ '0' := by decide
  unfold Text.ofNat
  induction n using Nat.strongRecOn with
  | _ n ih =>
    rw [Nat.toDigits_eq_if (by decide)]
    split
    · rename_i hlt
      simpa using hdigit n hlt h
    · rename_i hge
      rw [List.head?_append, List.head?_eq_some_head Nat.toDigits_ne_nil, Option.some_or,
        ← List.head?_eq_some_head]
      exact ih (n / 10) (by omega) (by omega)

/-- A number is read from its digits. -/
theorem valueIn_ofNat (n : Nat) : valueIn 10 (Text.ofNat n) = n := by
  have hdigit : ∀ d < 10, (hexValue? (Nat.digitChar d)).getD 0 = d := by decide
  unfold Text.ofNat
  induction n using Nat.strongRecOn with
  | _ n ih =>
    rw [Nat.toDigits_eq_if (by decide)]
    split
    · rename_i hlt
      exact (Nat.zero_add _).trans (hdigit n hlt)
    · rename_i hge
      have hhigh := ih (n / 10) (by omega)
      rw [valueIn, List.foldl_append, ← valueIn, hhigh, List.foldl_cons, List.foldl_nil,
        hdigit _ (Nat.mod_lt n (by decide))]
      omega

theorem exists_ofNat_eq_cons (n : Nat) :
    ∃ c digits, Text.ofNat n = c :: digits ∧ isAsciiDigit c = true ∧
      ∀ d ∈ digits, isAsciiDigit d = true := by
  obtain ⟨c, digits, h⟩ : ∃ c digits, Text.ofNat n = c :: digits :=
    List.exists_cons_of_ne_nil Nat.toDigits_ne_nil
  have hall : ∀ d ∈ c :: digits, isAsciiDigit d = true :=
    fun d hd => isAsciiDigit_of_mem_ofNat (n := n) (h ▸ hd)
  exact ⟨c, digits, h, hall c (.head _), fun d hd => hall d (.tail _ hd)⟩

/-! ## Integers

An integer stands at the end of its line. -/

section

variable {t rest : Text}

theorem ne_of_digit {c d : Char} (hc : isAsciiDigit c = true) (hd : isAsciiDigit d = false) :
    c ≠ d := by
  rintro rfl
  rw [hc] at hd
  cases hd

theorem char_digits (ht : ∀ c ∈ t, isAsciiDigit c = true) {c : Char} (hc : isAsciiDigit c = false)
    (hline : c ≠ '\n') : char c (t ++ '\n' :: rest) = none := by
  cases t with
  | nil => exact char_of_ne hline.symm rest
  | cons d t => exact char_of_ne (ne_of_digit (ht d (.head _)) hc) _

theorem digits_digits (ht : ∀ c ∈ t, isAsciiDigit c = true) (hne : t ≠ []) :
    digits isAsciiDigit (t ++ '\n' :: rest) = some (t, '\n' :: rest) := by
  obtain ⟨c, t, rfl⟩ := List.exists_cons_of_ne_nil hne
  have hmore : repeatedly (do let _ ← optionally (char '_'); charIf isAsciiDigit)
      (t ++ '\n' :: rest) = some (t, '\n' :: rest) := by
    have hread : ∀ d ∈ t, ∀ s, True →
        (do let _ ← optionally (char '_'); charIf isAsciiDigit : Reader Char) ([d] ++ s) =
          some (id d, s) := by
      intro d hd s _
      have hdigit := ht d (.tail _ hd)
      have hscore : optionally (char '_') (d :: s) = some (none, d :: s) :=
        optionally_of_none (char_of_ne (ne_of_digit hdigit rfl) s)
      exact (bind_of_some hscore).trans (charIf_cons hdigit s)
    have hitems := repeatedly_items (fun c => [c]) id (fun _ => True) (by simp) hread
      (fun _ _ _ => trivial) trivial (repeatedly_of_none (t := '\n' :: rest) rfl)
    rwa [List.flatMap_singleton', List.map_id] at hitems
  rw [digits, List.cons_append, bind_of_some (charIf_cons (ht c (.head _)) _), bind_of_some hmore]
  rfl

theorem decimalDigits_ofNat (n : Nat) :
    decimalDigits (Text.ofNat n ++ '\n' :: rest) = some (Text.ofNat n, '\n' :: rest) := by
  by_cases hn : n = 0
  · subst hn
    have hzero : (do let t ← digits isAsciiDigit
                     if t.head? = some '0' then Reader.fail else return t : Reader Text)
        (['0'] ++ '\n' :: rest) = none :=
      bind_of_some (digits_digits (t := ['0']) (List.all_eq_true.1 (by decide)) (by decide))
    exact (orElse_of_none hzero).trans rfl
  · have hdigits : digits isAsciiDigit (Text.ofNat n ++ '\n' :: rest) =
        some (Text.ofNat n, '\n' :: rest) :=
      digits_digits (fun c => isAsciiDigit_of_mem_ofNat) Nat.toDigits_ne_nil
    refine orElse_of_some ((bind_of_some hdigits).trans ?_)
    rw [if_neg (head?_ofNat hn)]
    rfl

/-- A number is written without a sign. -/
theorem sign_ofNat (n : Nat) (s : Text) :
    sign (Text.ofNat n ++ s) = some (false, Text.ofNat n ++ s) := by
  obtain ⟨c, t, h, hc, -⟩ := exists_ofNat_eq_cons n
  have hnone : charIf (fun c => c == '+' || c == '-') (Text.ofNat n ++ s) = none := by
    rw [h]
    refine charIf_of_not ?_ (t ++ s)
    simp [ne_of_digit hc (d := '+') rfl, ne_of_digit hc (d := '-') rfl]
  exact bind_of_some (optionally_of_none hnone)

theorem decimalInteger_ofNat (n : Nat) :
    decimalInteger (Text.ofNat n ++ '\n' :: rest) = some ((n : Int), '\n' :: rest) := by
  rw [decimalInteger, bind_of_some (sign_ofNat n _), bind_of_some (decimalDigits_ofNat n),
    valueIn_ofNat]
  rfl

theorem markedInteger_ofNat (n : Nat) {mark : Char} (hmark : isAsciiDigit mark = false)
    (hline : mark ≠ '\n') (base : Nat) :
    markedInteger mark base (Text.ofNat n ++ '\n' :: rest) = none := by
  obtain ⟨c, t, h, hc, ht⟩ := exists_ofNat_eq_cons n
  refine bind_of_none (literal_of_not_isPrefix ?_)
  rw [h, List.cons_append]
  intro hprefix
  have htail := (List.cons_prefix_cons.1 hprefix).2
  cases t with
  | nil => exact hline (List.cons_prefix_cons.1 htail).1
  | cons d t => exact ne_of_digit (ht d (.head _)) hmark (List.cons_prefix_cons.1 htail).1.symm

/-- **A number that fits is read back as an integer.** -/
theorem integer_ofNat {n : Nat} (hfits : fitsInteger n = true) :
    integer (Text.ofNat n ++ '\n' :: rest) = some ((n : Int), '\n' :: rest) := by
  have hread : (markedInteger 'x' 16 <|> markedInteger 'o' 8 <|> markedInteger 'b' 2 <|>
      decimalInteger : Reader Int) (Text.ofNat n ++ '\n' :: rest) =
        some ((n : Int), '\n' :: rest) := by
    refine (orElse_of_none (markedInteger_ofNat n rfl (by decide) _)).trans ?_
    refine (orElse_of_none (markedInteger_ofNat n rfl (by decide) _)).trans ?_
    refine (orElse_of_none (markedInteger_ofNat n rfl (by decide) _)).trans ?_
    exact decimalInteger_ofNat n
  rw [integer, bind_of_some hread, if_pos hfits]
  rfl

/-! ### Digits are no date and no float -/

/-- What is left behind a number of some digits are the other digits. -/
theorem number_digits (ht : ∀ c ∈ t, isAsciiDigit c = true) (n low high : Nat) :
    number n low high (t ++ '\n' :: rest) = none ∨
    ∃ v, number n low high (t ++ '\n' :: rest) = some (v, t.drop n ++ '\n' :: rest) := by
  by_cases hn : n ≤ t.length
  · have hexactly : exactly n isAsciiDigit (t ++ '\n' :: rest) =
        some (t.take n, t.drop n ++ '\n' :: rest) := by
      have hall : (t.take n).all isAsciiDigit = true :=
        List.all_eq_true.2 fun c hc => ht c (List.mem_of_mem_take hc)
      rw [exactly, List.take_append_of_le_length hn, List.drop_append_of_le_length hn]
      simp [hall, hn]
    rw [number, bind_of_some hexactly]
    split
    · exact .inr ⟨_, rfl⟩
    · exact .inl rfl
  · have hexactly : exactly n isAsciiDigit (t ++ '\n' :: rest) = none := by
      have hline : '\n' ∈ (t ++ '\n' :: rest).take n := by
        obtain ⟨k, rfl⟩ := Nat.exists_eq_add_of_lt (Nat.lt_of_not_le hn)
        rw [Nat.add_assoc, List.take_append]
        simp [List.take_succ_cons]
      rw [exactly, if_neg]
      rw [Bool.and_eq_true, List.all_eq_true]
      rintro ⟨-, hall⟩
      cases hall _ hline
    exact .inl (bind_of_none hexactly)

/-- Behind some digits there is no hyphen and no colon. -/
theorem number_then_none {β : Type} (ht : ∀ c ∈ t, isAsciiDigit c = true) (n low high : Nat)
    {c : Char} (hc : isAsciiDigit c = false) (hline : c ≠ '\n') (more : Nat → Unit → Reader β) :
    (do let v ← number n low high
        let u ← char c
        more v u : Reader β) (t ++ '\n' :: rest) = none := by
  rcases number_digits ht n low high with h | ⟨v, h⟩
  · exact bind_of_none h
  · refine (bind_of_some h).trans (bind_of_none (char_digits ?_ hc hline))
    exact fun d hd => ht d (List.mem_of_mem_drop hd)

theorem moment_digits (ht : ∀ c ∈ t, isAsciiDigit c = true) :
    moment (t ++ '\n' :: rest) = none := by
  have hdate : date (t ++ '\n' :: rest) = none := number_then_none ht 4 0 9999 rfl (by decide) _
  have htime : timeOfDay (t ++ '\n' :: rest) = none := number_then_none ht 2 0 23 rfl (by decide) _
  exact (orElse_of_none (bind_of_none hdate)).trans htime

theorem float_ofNat (n : Nat) : float (Text.ofNat n ++ '\n' :: rest) = none := by
  have hparts : floatParts (Text.ofNat n ++ '\n' :: rest) = none := by
    rw [floatParts, bind_of_some (sign_ofNat n _), bind_of_some (decimalDigits_ofNat n)]
    rfl
  have hnamed : namedFloat (Text.ofNat n ++ '\n' :: rest) = none := by
    obtain ⟨c, t, h, hc, -⟩ := exists_ofNat_eq_cons n
    rw [namedFloat, bind_of_some (sign_ofNat n _), h]
    have hi : ¬ ['i', 'n', 'f'] <+: c :: t ++ '\n' :: rest := fun hp =>
      ne_of_digit hc rfl (List.cons_prefix_cons.1 hp).1.symm
    have hn : ¬ ['n', 'a', 'n'] <+: c :: t ++ '\n' :: rest := fun hp =>
      ne_of_digit hc rfl (List.cons_prefix_cons.1 hp).1.symm
    exact (orElse_of_none (literal_of_not_isPrefix hi)).trans (literal_of_not_isPrefix hn)
  exact (orElse_of_none (bind_of_none hparts)).trans hnamed

end

/-! ## Values -/

theorem string_eq_cons (t : Text) : ∃ q s, Printer.string t = q :: s ∧ (q = '"' ∨ q = '\'') := by
  unfold Printer.string
  simp only
  split_ifs <;> first | exact ⟨'"', _, rfl, .inl rfl⟩ | exact ⟨'\'', _, rfl, .inr rfl⟩

/-- A value that begins with no bracket and no brace holds no other. -/
theorem valueTo_of_ne {c : Char} (hbracket : c ≠ '[') (hbrace : c ≠ '\x7b') (depth : Nat)
    (s : Text) : valueTo depth (c :: s) = scalar (c :: s) := by
  cases depth with
  | zero => rfl
  | succ depth =>
    refine (orElse_of_none (bind_of_none (char_of_ne hbracket s))).trans ?_
    exact orElse_of_none (bind_of_none (char_of_ne hbrace s))

/-- A string is read at any depth. -/
theorem valueTo_string (depth : Nat) (t : Text) {rest : Text}
    (hrest : ∀ c ∈ rest.head?, c ≠ '"' ∧ c ≠ '\'') :
    valueTo depth (Printer.string t ++ rest) = some (.string t, rest) := by
  have hscalar : scalar (Printer.string t ++ rest) = some (.string t, rest) :=
    orElse_of_some (bind_of_some (anyString_string t hrest))
  obtain ⟨q, s, h, hq⟩ := string_eq_cons t
  rw [h, List.cons_append] at hscalar ⊢
  rw [← hscalar]
  exact valueTo_of_ne (by rcases hq with rfl | rfl <;> decide)
    (by rcases hq with rfl | rfl <;> decide) depth _

theorem anyString_digit {c : Char} (hc : isAsciiDigit c = true) (s : Text) :
    anyString (c :: s) = none := by
  have hdouble : c ≠ '"' := ne_of_digit hc rfl
  have hsingle : c ≠ '\'' := ne_of_digit hc rfl
  have htripled : ∀ q ≠ c, ¬ [q, q, q] <+: c :: s := fun q hq hp =>
    hq (List.cons_prefix_cons.1 hp).1
  refine (orElse_of_none (tripled_of_not_isPrefix (htripled _ hdouble.symm))).trans ?_
  refine (orElse_of_none (bind_of_none (char_of_ne hdouble s))).trans ?_
  refine (orElse_of_none (tripled_of_not_isPrefix (htripled _ hsingle.symm))).trans ?_
  exact bind_of_none (char_of_ne hsingle s)

/-- **A number that fits is read back** at the end of its line. -/
theorem value_ofNat {n : Nat} (hfits : fitsInteger n = true) (rest : Text) :
    value (Text.ofNat n ++ '\n' :: rest) = some (.integer n, '\n' :: rest) := by
  have hscalar : scalar (Text.ofNat n ++ '\n' :: rest) = some (.integer n, '\n' :: rest) := by
    have hstring : anyString (Text.ofNat n ++ '\n' :: rest) = none := by
      obtain ⟨c, t, h, hc, -⟩ := exists_ofNat_eq_cons n
      rw [h]
      exact anyString_digit hc _
    have hmoment : spelled moment (Text.ofNat n ++ '\n' :: rest) = none := by
      rw [spelled, moment_digits fun c => isAsciiDigit_of_mem_ofNat]
      rfl
    have hfloat : spelled float (Text.ofNat n ++ '\n' :: rest) = none := by
      rw [spelled, float_ofNat]
      rfl
    refine (orElse_of_none (bind_of_none hstring)).trans ?_
    refine (orElse_of_none (bind_of_none hmoment)).trans ?_
    refine (orElse_of_none (bind_of_none hfloat)).trans ?_
    exact orElse_of_some (bind_of_some (integer_ofNat hfits))
  obtain ⟨c, t, h, hc, -⟩ := exists_ofNat_eq_cons n
  rw [h, List.cons_append] at hscalar ⊢
  rw [← hscalar]
  exact valueTo_of_ne (ne_of_digit hc rfl) (ne_of_digit hc rfl) _ _

/-! ## Arrays -/

/-- Where a gap ends at once. -/
def EndsGap (t : Text) : Prop := ∀ c ∈ t.head?, c ∉ [' ', '\t', '#', '\n', '\r']

theorem blanks_spaces {k : Nat} {t : Text} (ht : ∀ c ∈ t.head?, isSpaceOrTab c = false) :
    blanks (List.replicate k ' ' ++ t) = some ((), t) := by
  have hspace : ∀ c ∈ List.replicate k ' ', isSpaceOrTab c = true := fun c hc => by
    rw [List.eq_of_mem_replicate hc]
    rfl
  have htake : takeWhile isSpaceOrTab (List.replicate k ' ' ++ t) =
      some (List.replicate k ' ', t) := by
    rw [takeWhile, takeWhile_append_eq_left hspace ht, dropWhile_append_eq_right hspace ht]
  exact bind_of_some htake

theorem EndsGap.not_blank {t : Text} (h : EndsGap t) : ∀ c ∈ t.head?, isSpaceOrTab c = false := by
  intro c hc
  have := h c hc
  simp only [List.mem_cons, not_or] at this
  simp [isSpaceOrTab, this]

/-- A gap is spaces, or spaces on a line of its own. -/
theorem gap_spaces {k : Nat} {t : Text} (ht : EndsGap t) :
    gap (List.replicate k ' ' ++ t) = some ((), t) := by
  have hline : (do blanks; let _ ← optionally comment; newline : Reader Unit)
      (List.replicate k ' ' ++ t) = none := by
    have hcomment : optionally comment t = some (none, t) := by
      refine optionally_of_none ?_
      cases t with
      | nil => rfl
      | cons c t => exact bind_of_none (char_of_ne (fun h => ht c rfl (by simp [h])) t)
    have hnewline : newline t = none :=
      newline_of_head? fun c hc => ⟨fun h => ht c hc (by simp [h]), fun h => ht c hc (by simp [h])⟩
    exact (bind_of_some (blanks_spaces ht.not_blank)).trans ((bind_of_some hcomment).trans hnewline)
  exact (bind_of_some (repeatedly_of_none hline)).trans (blanks_spaces ht.not_blank)

theorem gap_line {k : Nat} {t : Text} (ht : EndsGap t) :
    gap ('\n' :: (List.replicate k ' ' ++ t)) = some ((), t) := by
  have hgap := gap_spaces (k := k) ht
  unfold gap at hgap ⊢
  generalize hr : (do blanks; let _ ← optionally comment; newline : Reader Unit) = r at hgap ⊢
  have hline : r ('\n' :: (List.replicate k ' ' ++ t)) = some ((), List.replicate k ' ' ++ t) := by
    rw [← hr]
    rfl
  have hmore := repeatedly_of_some hline (by simp)
  rcases hrest : repeatedly r (List.replicate k ' ' ++ t) with _ | ⟨lines, tail⟩
  · rw [bind_of_none hrest] at hgap
    cases hgap
  · rw [bind_of_some hrest] at hgap
    rw [hrest] at hmore
    exact (bind_of_some hmore).trans hgap

/-- An item of an array with what stands around it. -/
def arrayItem (depth : Nat) : Reader Value := do
  gap
  let v ← valueTo depth
  gap
  return v

/-- What may stand behind an item. -/
def EndsItem (t : Text) : Prop := ∃ c s, t = c :: s ∧ (c = ',' ∨ c = ']')

theorem EndsItem.endsGap {t : Text} (h : EndsItem t) : EndsGap t := by
  obtain ⟨c, s, rfl, hc⟩ := h
  rintro d ⟨⟩
  rcases hc with rfl | rfl <;> decide

theorem EndsItem.not_quote {t : Text} (h : EndsItem t) : ∀ c ∈ t.head?, c ≠ '"' ∧ c ≠ '\'' := by
  obtain ⟨c, s, rfl, hc⟩ := h
  rintro d ⟨⟩
  rcases hc with rfl | rfl <;> decide

theorem endsGap_string (t rest : Text) : EndsGap (Printer.string t ++ rest) := by
  obtain ⟨q, s, h, hq⟩ := string_eq_cons t
  rw [h]
  rintro c ⟨⟩
  rcases hq with rfl | rfl <;> decide

theorem arrayItem_string (depth : Nat) (front : Text) {t rest : Text} (hrest : EndsItem rest)
    (hfront : gap (front ++ (Printer.string t ++ rest)) = some ((), Printer.string t ++ rest)) :
    arrayItem depth (front ++ (Printer.string t ++ rest)) = some (.string t, rest) := by
  have hgap : gap rest = some ((), rest) := gap_spaces (k := 0) hrest.endsGap
  rw [arrayItem, bind_of_some hfront, bind_of_some (valueTo_string depth t hrest.not_quote),
    bind_of_some hgap]
  rfl

theorem exactly_of_not {n : Nat} {p : Char → Bool} {c : Char} (hn : n ≠ 0) (hc : p c = false)
    (s : Text) : exactly n p (c :: s) = none := by
  obtain ⟨k, rfl⟩ := Nat.exists_eq_succ_of_ne_zero hn
  rw [exactly, if_neg]
  simp [hc]

theorem scalar_bracket (rest : Text) : scalar (']' :: rest) = none := by
  have hnumber : ∀ n low high, n ≠ 0 → number n low high (']' :: rest) = none :=
    fun n low high hn => bind_of_none (exactly_of_not hn rfl rest)
  have hmoment : spelled moment (']' :: rest) = none := by
    have hdate : date (']' :: rest) = none := bind_of_none (hnumber 4 0 9999 (by decide))
    have htime : timeOfDay (']' :: rest) = none := bind_of_none (hnumber 2 0 23 (by decide))
    rw [spelled, moment, orElse_of_none (bind_of_none hdate), htime]
    rfl
  refine (orElse_of_none (bind_of_none rfl)).trans ?_
  exact (orElse_of_none (bind_of_none hmoment)).trans rfl

/-- Behind the last item there is no other. -/
theorem arrayItem_end (depth : Nat) (front : Text) {rest : Text}
    (hfront : gap (front ++ ']' :: rest) = some ((), ']' :: rest)) :
    arrayItem depth (front ++ ']' :: rest) = none := by
  have hvalue : valueTo depth (']' :: rest) = none :=
    (valueTo_of_ne (by decide) (by decide) depth rest).trans (scalar_bracket rest)
  exact (bind_of_some hfront).trans (bind_of_none hvalue)

theorem endsGap_bracket (rest : Text) : EndsGap (']' :: rest) := by
  rintro c ⟨⟩
  decide

/-- Items on lines of their own, with a comma behind each, seen as the first of them
    and lines with a comma in front. -/
theorem flatMap_lines (line : Text → Text) (t : Text) (ts : List Text) (rest : Text) :
    (t :: ts).flatMap (fun t => line t ++ [',']) ++ rest =
      line t ++ (ts.flatMap (fun t => ',' :: line t) ++ ',' :: rest) := by
  induction ts generalizing t with
  | nil => simp
  | cons u ts ih =>
    rw [List.flatMap_cons, List.append_assoc, ih u]
    simp

theorem separated_of_some {α β : Type} {separator : Reader β} {r : Reader α} {a : α} {as : List α}
    {t s rest : Text} (hfirst : r t = some (a, s))
    (hmore : repeatedly (do let _ ← separator; r) s = some (as, rest)) :
    separated separator r t = some (a :: as, rest) :=
  (bind_of_some (optionally_of_some hfirst)).trans (bind_of_some hmore)

theorem separated_of_none {α β : Type} {separator : Reader β} {r : Reader α} {t : Text}
    (h : r t = none) : separated separator r t = some ([], t) :=
  bind_of_some (optionally_of_none h)

/-- Behind its items an array may have a comma, and it ends with a bracket. -/
theorem array_of_items {depth : Nat} {v : Value} {items : List Value} {t s s' rest : Text}
    {comma : Option Unit}
    (hitems : separated (Reader.char ',') (arrayItem depth) t = some (v :: items, s))
    (hcomma : optionally (Reader.char ',') s = some (comma, s'))
    (hgap : gap s' = some ((), ']' :: rest)) :
    array (valueTo depth) ('[' :: t) = some (.array (v :: items), rest) := by
  refine (bind_of_some (char_cons _ t)).trans ((bind_of_some hitems).trans ?_)
  refine (bind_of_some hcomma).trans ((bind_of_some hgap).trans ?_)
  exact bind_of_some (char_cons _ rest)

section

variable (depth : Nat) (rest : Text)

theorem array_nil : array (valueTo depth) ('[' :: ']' :: rest) = some (.array [], rest) := by
  have hbracket : gap (']' :: rest) = some ((), ']' :: rest) :=
    gap_spaces (k := 0) (endsGap_bracket rest)
  have hitems : separated (Reader.char ',') (arrayItem depth) (']' :: rest) =
      some ([], ']' :: rest) := separated_of_none (arrayItem_end depth [] hbracket)
  refine (bind_of_some (char_cons _ _)).trans ((bind_of_some hitems).trans ?_)
  exact (bind_of_some hbracket).trans (bind_of_some (char_cons _ rest))

theorem array_singleton (t : Text) :
    array (valueTo depth) ('[' :: (Printer.string t ++ ']' :: rest)) =
      some (.array [.string t], rest) := by
  have hfirst : arrayItem depth (Printer.string t ++ ']' :: rest) = some (.string t, ']' :: rest) :=
    arrayItem_string depth [] ⟨_, _, rfl, .inr rfl⟩ (gap_spaces (k := 0) (endsGap_string t _))
  have hitems : separated (Reader.char ',') (arrayItem depth) (Printer.string t ++ ']' :: rest) =
      some ([.string t], ']' :: rest) :=
    separated_of_some hfirst (repeatedly_of_none (bind_of_none (char_of_ne (by decide) rest)))
  exact array_of_items hitems (optionally_of_none (char_of_ne (by decide) rest))
    (gap_spaces (k := 0) (endsGap_bracket rest))

/-- A string on a line of its own. -/
def itemLine (t : Text) : Text := '\n' :: List.replicate 4 ' ' ++ Printer.string t

theorem arrayItem_itemLine (t : Text) {s : Text} (hs : EndsItem s) :
    arrayItem depth (itemLine t ++ s) = some (.string t, s) := by
  rw [itemLine, List.append_assoc]
  exact arrayItem_string depth _ hs (gap_line (k := 4) (endsGap_string t s))

/-- The comma behind the last item is left to the array. -/
theorem array_lines (t : Text) (ts : List Text) :
    array (valueTo depth)
        ('[' :: ((t :: ts).flatMap (fun t => itemLine t ++ [',']) ++ '\n' :: ']' :: rest)) =
      some (.array ((t :: ts).map .string), rest) := by
  have hline : gap ('\n' :: ']' :: rest) = some ((), ']' :: rest) :=
    gap_line (k := 0) (endsGap_bracket rest)
  have hmore : repeatedly (do let _ ← Reader.char ','; arrayItem depth)
      (ts.flatMap (fun t => ',' :: itemLine t) ++ ',' :: '\n' :: ']' :: rest) =
      some (ts.map .string, ',' :: '\n' :: ']' :: rest) := by
    refine repeatedly_items _ _ EndsItem (by simp) ?_ ?_ ⟨_, _, rfl, .inl rfl⟩ ?_
    · intro t _ s hs
      exact (bind_of_some (char_cons _ _)).trans (arrayItem_itemLine depth t hs)
    · exact fun t _ s => ⟨_, _, rfl, .inl rfl⟩
    · refine repeatedly_of_none ((bind_of_some (char_cons _ _)).trans ?_)
      exact arrayItem_end depth ['\n'] hline
  have hfollow :
      EndsItem (ts.flatMap (fun t => ',' :: itemLine t) ++ ',' :: '\n' :: ']' :: rest) := by
    cases ts with
    | nil => exact ⟨_, _, rfl, .inl rfl⟩
    | cons u ts => exact ⟨_, _, rfl, .inl rfl⟩
  rw [flatMap_lines]
  exact array_of_items (separated_of_some (arrayItem_itemLine depth t hfollow) hmore)
    (optionally_of_some (char_cons _ _)) hline

end

/-- **An array of strings is read back.** -/
theorem value_strings (ts : List Text) (rest : Text) :
    value (Printer.strings ts ++ rest) = some (.array (ts.map .string), rest) := by
  refine orElse_of_some ?_
  match ts with
  | [] => exact array_nil _ rest
  | [t] =>
    have hprinted : Printer.strings [t] ++ rest = '[' :: (Printer.string t ++ ']' :: rest) := by
      simp [Printer.strings]
    rw [hprinted]
    exact array_singleton _ rest t
  | t :: u :: ts =>
    have hprinted : Printer.strings (t :: u :: ts) ++ rest = '[' ::
        ((t :: u :: ts).flatMap (fun t => itemLine t ++ [',']) ++ '\n' :: ']' :: rest) := by
      simp [Printer.strings, itemLine]
    rw [hprinted]
    exact array_lines _ rest t (u :: ts)

end CodeSnippets.Toml

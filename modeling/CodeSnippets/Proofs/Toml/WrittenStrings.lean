/-
  Strings of a TOML document are read back as they were written.

  * `basicString_basic`, `literalString_literal`: a string on one line;
  * `multilineBasicString_multilineBasic`, `multilineLiteralString_multilineLiteral`: a
    string between tripled quotes.  What stands in front of the closing quotes is read
    part by part (`insideTripled`), and up to two quotes at the end belong to the string;
  * `anyString_string`: any string, in the form that the printer chooses.
-/
import CodeSnippets.Proofs.Text.LeadingRuns
import CodeSnippets.Proofs.Text.Readers
import CodeSnippets.Toml.Printer
import Mathlib.Tactic.SplitIfs

namespace CodeSnippets.Toml

open Reader

/-! ## Escapes -/

/-- A code of four digits, in capitals, is read as its character. -/
theorem codePoint_hexDigits {n : Nat} (h : n < 0x80) (rest : Text) :
    codePoint 4 ((Text.hexDigits 4 n).map Char.toUpper ++ rest) = some (Char.ofNat n, rest) := by
  have hdigits : ∀ n < 0x80, ((Text.hexDigits 4 n).map Char.toUpper).length = 4 ∧
      ((Text.hexDigits 4 n).map Char.toUpper).all (fun c => (hexValue? c).isSome) = true ∧
      valueIn 16 ((Text.hexDigits 4 n).map Char.toUpper) = n ∧ n.isValidChar := by
    decide +kernel
  obtain ⟨hlen, hall, hvalue, hvalid⟩ := hdigits n h
  generalize (Text.hexDigits 4 n).map Char.toUpper = digits at hlen hall hvalue ⊢
  have hread : Reader.exactly 4 (fun c => (hexValue? c).isSome) (digits ++ rest) =
      some (digits, rest) := by
    have htake : (digits ++ rest).take 4 = digits := List.take_left' hlen
    have hdrop : (digits ++ rest).drop 4 = rest := List.drop_left' hlen
    simp only [Reader.exactly, htake, hdrop, hlen, hall, decide_true, Bool.and_self, if_true]
  rw [codePoint, bind_of_some hread]
  simp only [hvalue, hvalid, if_true]
  rfl

theorem escapeSequence_letter {c d : Char} (h : escapeLetter? c = some d) (hu : c ≠ 'u')
    (hU : c ≠ 'U') (rest : Text) : escapeSequence ('\\' :: c :: rest) = some (d, rest) := by
  rw [escapeSequence, bind_of_some (char_cons _ _), bind_of_some (charIf_cons rfl _), if_neg hu,
    if_neg hU, h]
  rfl

/-- A control character or a backslash is read back from its escape. -/
theorem escapeSequence_escaped {c : Char} (h : c = '\\' ∨ c.toNat < 0x20 ∨ c.toNat = 0x7F)
    (rest : Text) : escapeSequence (Printer.escaped c ++ rest) = some (c, rest) := by
  unfold Printer.escaped
  split_ifs with hb ht hn hf hr hs
  · rw [hb]; exact escapeSequence_letter rfl (by decide) (by decide) rest
  · rw [ht]; exact escapeSequence_letter rfl (by decide) (by decide) rest
  · rw [hn]; exact escapeSequence_letter rfl (by decide) (by decide) rest
  · rw [hf]; exact escapeSequence_letter rfl (by decide) (by decide) rest
  · rw [hr]; exact escapeSequence_letter rfl (by decide) (by decide) rest
  · rw [hs]; exact escapeSequence_letter rfl (by decide) (by decide) rest
  · have hcode : c.toNat < 0x80 := by
      rcases h with h | h | h
      · exact absurd h hs
      · omega
      · omega
    have hread := codePoint_hexDigits hcode rest
    rw [Char.ofNat_toNat] at hread
    rw [List.append_assoc, escapeSequence, List.cons_append, bind_of_some (char_cons _ _)]
    rw [List.cons_append, bind_of_some (charIf_cons rfl _), if_pos rfl]
    exact hread

theorem not_isLineChar_iff {c : Char} :
    isLineChar c = false ↔ c ≠ '\t' ∧ (c.toNat < 0x20 ∨ c.toNat = 0x7F) := by
  simp only [isLineChar, Bool.or_eq_false_iff, beq_eq_false_iff_ne, Bool.and_eq_false_iff,
    decide_eq_false_iff_not]
  exact and_congr_right fun _ => by omega

/-- Inside double quotes a character stands for itself, or an escape stands for it. -/
theorem basicChar_cases (keepLines : Bool) {c : Char} (hquote : c ≠ '"') :
    (keepLines = true ∧ c = '\n' ∧ Printer.basicChar keepLines c = ['\n']) ∨
    (isBasicChar c = true ∧ Printer.basicChar keepLines c = [c]) ∨
    (Printer.basicChar keepLines c = Printer.escaped c ∧
      (c = '\\' ∨ c.toNat < 0x20 ∨ c.toNat = 0x7F)) := by
  by_cases hline : keepLines = true ∧ c = '\n'
  · obtain ⟨rfl, rfl⟩ := hline
    exact .inl ⟨rfl, rfl, rfl⟩
  by_cases hbasic : isBasicChar c = true ∧ c ≠ '\t'
  · refine .inr (.inl ⟨hbasic.1, ?_⟩)
    simp [Printer.basicChar, hbasic]
  refine .inr (.inr ⟨?_, ?_⟩)
  · simp only [Printer.basicChar]
    rw [if_neg]
    simp only [Bool.or_eq_true, Bool.and_eq_true, decide_eq_true_eq, bne_iff_ne]
    rintro (⟨hc, hkeep⟩ | hchar)
    · exact hline ⟨hkeep, hc⟩
    · exact hbasic hchar
  · by_cases htab : c = '\t'
    · exact .inr (.inl (by rw [htab]; decide))
    by_cases hback : c = '\\'
    · exact .inl hback
    have hline : isLineChar c = false := by
      simpa [isBasicChar, hquote, hback, htab] using hbasic
    exact .inr (not_isLineChar_iff.1 hline).2

theorem charIf_of_escaped {c : Char} (p : Char → Bool) (hp : p '\\' = false) (rest : Text) :
    charIf p (Printer.escaped c ++ rest) = none := by
  unfold Printer.escaped
  split_ifs <;> exact charIf_of_not hp _

/-! ## Strings on one line -/

/-- A character as it stands in a string on one line. -/
def basicSpelling (c : Char) : Text :=
  if c = '"' then ['\\', '"'] else Printer.basicChar false c

theorem basicChars_eq_flatMap (run : Nat) (t : Text) :
    Printer.basicChars false 0 run t = t.flatMap basicSpelling := by
  induction t generalizing run with
  | nil => rfl
  | cons c t ih =>
    rw [List.flatMap_cons, basicSpelling, Printer.basicChars, ih, ih]
    split_ifs <;> first | rfl | omega

theorem basicSpelling_ne_nil (c : Char) : basicSpelling c ≠ [] := by
  unfold basicSpelling
  split_ifs with hquote
  · simp
  · rcases basicChar_cases false hquote with ⟨h, -⟩ | ⟨-, h⟩ | ⟨h, -⟩
    · cases h
    · simp [h]
    · rw [h]
      unfold Printer.escaped
      split_ifs <;> simp

theorem charIf_or_escapeSequence (c : Char) (rest : Text) :
    (charIf isBasicChar <|> escapeSequence : Reader Char) (basicSpelling c ++ rest) =
      some (c, rest) := by
  unfold basicSpelling
  split_ifs with hquote
  · rw [hquote]
    exact (orElse_of_none (charIf_of_not (by decide) _)).trans
      (escapeSequence_letter rfl (by decide) (by decide) rest)
  · rcases basicChar_cases false hquote with ⟨h, -⟩ | ⟨hc, h⟩ | ⟨h, hc⟩
    · cases h
    · rw [h]
      exact orElse_of_some (charIf_cons hc rest)
    · rw [h, orElse_of_none (charIf_of_escaped _ (by decide) _)]
      exact escapeSequence_escaped hc rest

/-- **A string in double quotes is read back**, whatever it holds. -/
theorem basicString_basic (t rest : Text) :
    basicString (Printer.basic t ++ rest) = some (t, rest) := by
  have hend : (charIf isBasicChar <|> escapeSequence : Reader Char) ('"' :: rest) = none := rfl
  rw [Printer.basic, basicChars_eq_flatMap, List.append_assoc, List.cons_append, basicString,
    bind_of_some (char_cons _ _)]
  rw [List.singleton_append, bind_of_some (repeatedly_flatMap basicSpelling_ne_nil
    charIf_or_escapeSequence hend t), bind_of_some (char_cons _ _)]
  rfl

/-- **A string in single quotes is read back** if it has neither a line break nor a single
    quote nor a control character. -/
theorem literalString_literal {t : Text} (h : ∀ c ∈ t, isLiteralChar c = true) (rest : Text) :
    literalString (Printer.literal t ++ rest) = some (t, rest) := by
  have htake : Reader.takeWhile isLiteralChar (t ++ '\'' :: rest) = some (t, '\'' :: rest) := by
    have hquote : ∀ c ∈ ('\'' :: rest : Text).head?, isLiteralChar c = false := by
      rintro c ⟨⟩
      rfl
    rw [Reader.takeWhile, takeWhile_append_eq_left h hquote, dropWhile_append_eq_right h hquote]
  rw [Printer.literal, List.append_assoc, List.cons_append, literalString,
    bind_of_some (char_cons _ _), List.singleton_append, bind_of_some htake,
    bind_of_some (char_cons _ _)]
  rfl

/-! ## Strings over several lines -/

/-- What stands between tripled quotes, with the quotes that close it. -/
def insideTripled (q : Char) (part : Reader Text) : Reader Text := do
  let parts ← Reader.repeatedly (part <|> quotesWithin q)
  let last ← closingQuotes q
  return parts.flatten ++ last

theorem tripled_eq (q : Char) (part : Reader Text) : tripled q part = (do
    Reader.literal [q, q, q]
    let _ ← Reader.optionally newline
    insideTripled q part) := rfl

section

variable {q : Char} {part : Reader Text} {s t u rest : Text}

theorem insideTripled_of_some (h : (part <|> quotesWithin q) s = some (u, rest))
    (hlt : rest.length < s.length) : insideTripled q part s =
      (insideTripled q part rest).map fun (w, tail) => (u ++ w, tail) := by
  unfold insideTripled
  rcases hmore : Reader.repeatedly (part <|> quotesWithin q) rest with _ | ⟨parts, tail⟩
  · have hall : Reader.repeatedly (part <|> quotesWithin q) s = none := by
      rw [repeatedly_of_some h hlt, hmore]
      rfl
    rw [bind_of_none hmore, bind_of_none hall]
    rfl
  · have hall : Reader.repeatedly (part <|> quotesWithin q) s = some (u :: parts, tail) := by
      rw [repeatedly_of_some h hlt, hmore]
      rfl
    rw [bind_of_some hmore, bind_of_some hall]
    rcases hlast : closingQuotes q tail with _ | ⟨last, end_⟩
    · rw [bind_of_none hlast, bind_of_none hlast]
      rfl
    · rw [bind_of_some hlast, bind_of_some hlast, List.flatten_cons, List.append_assoc]
      rfl

theorem insideTripled_of_none (h : (part <|> quotesWithin q) s = none) :
    insideTripled q part s = closingQuotes q s := by
  unfold insideTripled
  rw [bind_of_some (repeatedly_of_none h)]
  rcases hlast : closingQuotes q s with _ | ⟨last, tail⟩
  · rw [bind_of_none hlast]
  · rw [bind_of_some hlast]
    rfl

theorem takeWhile_quotes (k : Nat) (hs : ∀ c ∈ s.head?, c ≠ q) :
    (List.replicate k q ++ s).takeWhile (· == q) = List.replicate k q ∧
      (List.replicate k q ++ s).dropWhile (· == q) = s := by
  have hall : ∀ c ∈ List.replicate k q, (c == q) = true := fun c hc =>
    beq_iff_eq.2 (List.eq_of_mem_replicate hc)
  have hhead : ∀ c ∈ s.head?, (c == q) = false := fun c hc => beq_false_of_ne (hs c hc)
  exact ⟨takeWhile_append_eq_left hall hhead, dropWhile_append_eq_right hall hhead⟩

/-- One quote or two stand inside the string if something else is behind them. -/
theorem quotesWithin_quotes {k : Nat} (hk : 1 ≤ k ∧ k ≤ 2) (hne : s ≠ [])
    (hs : ∀ c ∈ s.head?, c ≠ q) :
    quotesWithin q (List.replicate k q ++ s) = some (List.replicate k q, s) := by
  obtain ⟨htake, hdrop⟩ := takeWhile_quotes k hs
  simp only [quotesWithin, htake, hdrop]
  rw [if_pos]
  simp [hne]
  omega

/-- Up to two quotes in front of the closing ones belong to the string. -/
theorem insideTripled_quotes (hpart : ∀ s, part (q :: s) = none) {k : Nat} (hk : k ≤ 2)
    (hrest : ∀ c ∈ rest.head?, c ≠ q) :
    insideTripled q part (List.replicate k q ++ ([q, q, q] ++ rest)) =
      some (List.replicate k q, rest) := by
  have hrun : List.replicate k q ++ ([q, q, q] ++ rest) = List.replicate (k + 3) q ++ rest := by
    rw [← List.append_assoc]
    exact congrArg (· ++ rest) (List.replicate_append_replicate (n := k) (m := 3))
  obtain ⟨htake, hdrop⟩ := takeWhile_quotes (s := rest) (k + 3) hrest
  have hnone : (part <|> quotesWithin q) (List.replicate (k + 3) q ++ rest) = none := by
    have hwithin : quotesWithin q (List.replicate (k + 3) q ++ rest) = none := by
      have hlong : decide (k + 3 < 3) = false := decide_eq_false (by omega)
      rw [quotesWithin, htake, hdrop, List.length_replicate]
      simp only [hlong, Bool.and_false, Bool.false_and, Bool.false_eq_true, if_false]
    exact (orElse_of_none (hpart _)).trans hwithin
  rw [hrun, insideTripled_of_none hnone, closingQuotes, htake, List.length_replicate,
    if_neg (by omega), Nat.add_sub_cancel, Nat.min_eq_left hk]
  exact congrArg (fun tail => some (List.replicate k q, tail))
    (List.drop_left' List.length_replicate)

/-- Quotes inside a string are read with what is behind them. -/
theorem insideTripled_within (hpart : ∀ s, part (q :: s) = none) {k : Nat} (hk : k ≤ 2)
    (hne : s ≠ []) (hs : ∀ c ∈ s.head?, c ≠ q)
    (hread : insideTripled q part s = some (u, rest)) :
    insideTripled q part (List.replicate k q ++ s) = some (List.replicate k q ++ u, rest) := by
  cases k with
  | zero => exact hread
  | succ k =>
    have hsome : (part <|> quotesWithin q) (List.replicate (k + 1) q ++ s) =
        some (List.replicate (k + 1) q, s) :=
      (orElse_of_none (hpart _)).trans (quotesWithin_quotes ⟨by omega, hk⟩ hne hs)
    rw [insideTripled_of_some hsome (by simp), hread]
    rfl

end

/-- A part of a string between tripled double quotes. -/
def basicPart : Reader Text :=
  single (Reader.charIf isBasicChar) <|> foldedLine <|> single escapeSequence <|> lineFeed

/-- A part of a string between tripled single quotes. -/
def literalPart : Reader Text := single (Reader.charIf isLiteralChar) <|> lineFeed

theorem single_of_some {r : Reader Char} {c : Char} {t rest : Text} (h : r t = some (c, rest)) :
    single r t = some ([c], rest) := by
  rw [single, bind_of_some h]
  rfl

theorem single_of_none {r : Reader Char} {t : Text} (h : r t = none) : single r t = none := by
  rw [single, bind_of_none h]

theorem foldedLine_escaped (c : Char) (rest : Text) :
    foldedLine (Printer.escaped c ++ rest) = none := by
  unfold Printer.escaped
  split_ifs <;> rfl

/-- A character other than a quote is read from its spelling. -/
theorem basicPart_basicChar {c : Char} (hquote : c ≠ '"') (rest : Text) :
    basicPart (Printer.basicChar true c ++ rest) = some ([c], rest) := by
  rcases basicChar_cases true hquote with ⟨-, rfl, h⟩ | ⟨hc, h⟩ | ⟨h, hc⟩
  · rfl
  · rw [h]
    exact orElse_of_some (single_of_some (charIf_cons hc rest))
  · rw [h]
    refine (orElse_of_none (single_of_none (charIf_of_escaped _ (by decide) _))).trans ?_
    refine (orElse_of_none (foldedLine_escaped c rest)).trans ?_
    exact orElse_of_some (single_of_some (escapeSequence_escaped hc rest))

theorem basicPart_quote (rest : Text) : basicPart ('"' :: rest) = none := rfl

theorem basicPart_escapedQuote (rest : Text) :
    basicPart ('\\' :: '"' :: rest) = some (['"'], rest) := rfl

/-- The spelling of a character begins with no quote, and with a line break only if the
    character is one. -/
theorem basicChar_eq_cons (keepLines : Bool) {c : Char} (hquote : c ≠ '"') :
    ∃ d s, Printer.basicChar keepLines c = d :: s ∧ d ≠ '"' ∧ d ≠ '\r' ∧
      (d = '\n' → c = '\n') := by
  rcases basicChar_cases keepLines hquote with ⟨-, rfl, h⟩ | ⟨hc, h⟩ | ⟨h, -⟩
  · exact ⟨_, _, h, by decide, by decide, fun _ => rfl⟩
  · refine ⟨_, _, h, hquote, ?_, id⟩
    rintro rfl
    cases hc
  · rw [h]
    unfold Printer.escaped
    split_ifs <;> exact ⟨_, _, rfl, by decide, by decide, fun h => by cases h⟩

/-- In front of a text stand up to two quotes, or three and perhaps more. -/
theorem quotes_cases (q : Char) (t : Text) :
    (∃ k s, k ≤ 2 ∧ t = List.replicate k q ++ s ∧ ∀ c ∈ s.head?, c ≠ q) ∨
    ∃ s, t = q :: q :: q :: s := by
  have hsplit := (List.takeWhile_append_dropWhile (p := (· == q)) (l := t)).symm
  have hrun : t.takeWhile (· == q) = List.replicate (t.takeWhile (· == q)).length q :=
    List.eq_replicate_iff.2 ⟨rfl, fun c hc => by simpa using List.mem_takeWhile_imp hc⟩
  have hhead : ∀ c ∈ (t.dropWhile (· == q)).head?, c ≠ q :=
    fun c hc => by simpa using head?_dropWhile_neg hc
  generalize (t.takeWhile (· == q)).length = k at hrun
  rw [hrun] at hsplit
  by_cases hk : k ≤ 2
  · exact .inl ⟨k, _, hk, hsplit, hhead⟩
  · obtain ⟨n, rfl⟩ := Nat.exists_eq_add_of_le' (Nat.lt_of_not_le hk)
    exact .inr ⟨_, hsplit⟩

theorem basicChars_of_head? {t : Text} (ht : ∀ c ∈ t.head?, c ≠ '"') (run : Nat) :
    Printer.basicChars true 2 run t = Printer.basicChars true 2 0 t := by
  cases t with
  | nil => rfl
  | cons c t => rw [Printer.basicChars, Printer.basicChars, if_neg (ht c rfl), if_neg (ht c rfl)]

theorem basicChars_quotes {k : Nat} (hk : k ≤ 2) {t : Text} (ht : ∀ c ∈ t.head?, c ≠ '"') :
    Printer.basicChars true 2 0 (List.replicate k '"' ++ t) =
      List.replicate k '"' ++ Printer.basicChars true 2 0 t := by
  obtain rfl | rfl | rfl : k = 0 ∨ k = 1 ∨ k = 2 := by omega
  · rfl
  · exact congrArg ('"' :: ·) (basicChars_of_head? ht 1)
  · exact congrArg (fun s => '"' :: '"' :: s) (basicChars_of_head? ht 2)

/-- **What is written between tripled double quotes is read back**: a third quote in a row is
    escaped, so that no quote inside closes the string. -/
theorem insideTripled_basicChars {rest : Text} (hrest : ∀ c ∈ rest.head?, c ≠ '"') (t : Text) :
    insideTripled '"' basicPart (Printer.basicChars true 2 0 t ++ (['"', '"', '"'] ++ rest)) =
      some (t, rest) := by
  induction hn : t.length using Nat.strongRecOn generalizing t with
  | _ n ih =>
    subst hn
    rcases quotes_cases '"' t with ⟨k, s, hk, rfl, hs⟩ | ⟨s, rfl⟩
    · rw [basicChars_quotes hk hs, List.append_assoc]
      cases s with
      | nil =>
        rw [List.append_nil]
        exact insideTripled_quotes basicPart_quote hk hrest
      | cons c s =>
        have hc : c ≠ '"' := hs c rfl
        obtain ⟨d, spelling, hd, hquote, -⟩ := basicChar_eq_cons true hc
        have hspelled : Printer.basicChars true 2 0 (c :: s) =
            Printer.basicChar true c ++ Printer.basicChars true 2 0 s := if_neg hc
        have hpart : (basicPart <|> quotesWithin '"') (Printer.basicChar true c ++
            (Printer.basicChars true 2 0 s ++ (['"', '"', '"'] ++ rest))) =
            some ([c], Printer.basicChars true 2 0 s ++ (['"', '"', '"'] ++ rest)) :=
          orElse_of_some (basicPart_basicChar hc _)
        rw [hspelled, List.append_assoc]
        refine insideTripled_within basicPart_quote hk (by simp [hd]) ?_ ?_
        · rw [hd]
          rintro x ⟨⟩
          exact hquote
        · have hread : ∀ more : Text, more.length < (Printer.basicChar true c ++ more).length := by
            intro more
            rw [hd, List.length_append, List.length_cons]
            omega
          have hshort : s.length < (List.replicate k '"' ++ c :: s).length := by
            rw [List.length_append, List.length_cons]
            omega
          rw [insideTripled_of_some hpart (hread _), ih s.length hshort s rfl]
          rfl
    · -- the third quote in a row is escaped
      have hspelled : Printer.basicChars true 2 0 ('"' :: '"' :: '"' :: s) =
          List.replicate 2 '"' ++ '\\' :: '"' :: Printer.basicChars true 2 0 s := rfl
      have hpart : (basicPart <|> quotesWithin '"')
          ('\\' :: '"' :: (Printer.basicChars true 2 0 s ++ (['"', '"', '"'] ++ rest))) =
          some (['"'], Printer.basicChars true 2 0 s ++ (['"', '"', '"'] ++ rest)) :=
        orElse_of_some (basicPart_escapedQuote _)
      rw [hspelled, List.append_assoc, List.cons_append, List.cons_append]
      refine insideTripled_within basicPart_quote (by omega) (by simp) ?_ ?_
      · rintro x ⟨⟩
        decide
      · have hshort : s.length < ('"' :: '"' :: '"' :: s).length := by
          simp only [List.length_cons]
          omega
        refine (insideTripled_of_some hpart ?_).trans ?_
        · simp only [List.length_cons]
          omega
        · rw [ih s.length hshort s rfl]
          rfl

/-! ### Strings that stand as they are -/

theorem le_longestRun (q : Char) (run : Nat) (t : Text) : run ≤ Printer.longestRun q run t := by
  induction t generalizing run with
  | nil => exact Nat.le_refl run
  | cons c t ih =>
    rw [Printer.longestRun]
    split
    · exact Nat.le_trans (Nat.le_succ run) (ih (run + 1))
    · exact Nat.le_max_left _ _

theorem three_le_longestRun {q : Char} {t : Text} (h : [q, q, q] <:+: t) :
    3 ≤ Printer.longestRun q 0 t := by
  obtain ⟨a, b, rfl⟩ := h
  generalize 0 = run
  induction a generalizing run with
  | nil =>
    have hrun : Printer.longestRun q run ([] ++ [q, q, q] ++ b) =
        Printer.longestRun q (run + 1 + 1 + 1) b := by simp [Printer.longestRun]
    have hle := le_longestRun q (run + 1 + 1 + 1) b
    omega
  | cons c a ih =>
    rw [List.cons_append, List.cons_append, Printer.longestRun]
    split
    · exact ih (run + 1)
    · exact Nat.le_trans (ih 0) (Nat.le_max_right _ _)

theorem isLiteralChar_of_plain {c : Char} (h : Printer.needsEscape c = false) (hquote : c ≠ '\'')
    (hline : c ≠ '\n') : isLiteralChar c = true := by
  simpa [Printer.needsEscape, isLiteralChar, hline, hquote] using h

theorem literalPart_plain {c : Char} (h : Printer.needsEscape c = false) (hquote : c ≠ '\'')
    (rest : Text) : literalPart (c :: rest) = some ([c], rest) := by
  by_cases hline : c = '\n'
  · rw [hline]
    rfl
  · exact orElse_of_some (single_of_some (charIf_cons (isLiteralChar_of_plain h hquote hline) rest))

/-- **A text between tripled single quotes is read back** if no three single quotes stand
    next to each other in it and no character needs an escape. -/
theorem insideTripled_literal {rest : Text} (hrest : ∀ c ∈ rest.head?, c ≠ '\'') {t : Text}
    (hplain : ∀ c ∈ t, Printer.needsEscape c = false) (hrun : ¬ ['\'', '\'', '\''] <:+: t) :
    insideTripled '\'' literalPart (t ++ (['\'', '\'', '\''] ++ rest)) = some (t, rest) := by
  induction hn : t.length using Nat.strongRecOn generalizing t with
  | _ n ih =>
    subst hn
    rcases quotes_cases '\'' t with ⟨k, s, hk, rfl, hs⟩ | ⟨s, rfl⟩
    · rw [List.append_assoc]
      cases s with
      | nil =>
        rw [List.append_nil]
        exact insideTripled_quotes (fun _ => rfl) hk hrest
      | cons c s =>
        have hc : c ≠ '\'' := hs c rfl
        have hpart : (literalPart <|> quotesWithin '\'')
            (c :: (s ++ (['\'', '\'', '\''] ++ rest))) =
            some ([c], s ++ (['\'', '\'', '\''] ++ rest)) :=
          orElse_of_some (literalPart_plain (hplain c (by simp)) hc _)
        refine insideTripled_within (fun _ => rfl) hk (by simp) (by simpa using hc) ?_
        rw [List.cons_append, insideTripled_of_some hpart (by simp),
          ih s.length (by simp; omega) ?_ ?_ rfl]
        · rfl
        · exact fun x hx => hplain x (by simp [hx])
        · exact fun h => hrun (h.trans ⟨List.replicate k '\'' ++ [c], [], by simp⟩)
    · exact absurd ⟨[], s, rfl⟩ hrun

theorem newline_of_head? {s : Text} (h : ∀ c ∈ s.head?, c ≠ '\n' ∧ c ≠ '\r') :
    newline s = none := by
  cases s with
  | nil => rfl
  | cons c s =>
    obtain ⟨hn, hr⟩ := h c rfl
    refine (orElse_of_none (char_of_ne hn s)).trans ?_
    simp [Reader.literal, Ne.symm hr]

/-- The line break behind the opening quotes is dropped, and only if there is one in the
    string; then it stands there. -/
theorem tripled_tripled {q : Char} {part : Reader Text} {several : Bool} {content t rest : Text}
    (hread : insideTripled q part (content ++ ([q, q, q] ++ rest)) = some (t, rest))
    (hhead : several = false → ∀ c ∈ (content ++ [q]).head?, c ≠ '\n' ∧ c ≠ '\r') :
    tripled q part (Printer.tripled q several content ++ rest) = some (t, rest) := by
  have hcontent : Printer.tripled q several content ++ rest = [q, q, q] ++
      ((if several then ['\n'] else []) ++ (content ++ ([q, q, q] ++ rest))) := by
    simp [Printer.tripled]
  rw [hcontent, tripled_eq, bind_of_some (literal_append _ _)]
  cases several with
  | true => exact (bind_of_some (optionally_of_some rfl)).trans hread
  | false =>
    have hnone : newline (content ++ ([q, q, q] ++ rest)) = none := by
      refine newline_of_head? fun c hc => hhead rfl c ?_
      cases content <;> exact hc
    exact (bind_of_some (optionally_of_none hnone)).trans hread

theorem multilineBasicString_multilineBasic (t : Text) {rest : Text}
    (hrest : ∀ c ∈ rest.head?, c ≠ '"') :
    multilineBasicString (Printer.multilineBasic t ++ rest) = some (t, rest) := by
  refine tripled_tripled (insideTripled_basicChars hrest t) fun hone c hc => ?_
  cases t with
  | nil =>
    cases hc
    decide
  | cons d t =>
    have hline : d ≠ '\n' := by
      rintro rfl
      simp at hone
    by_cases hquote : d = '"'
    · subst hquote
      cases hc
      decide
    · obtain ⟨x, s, hx, -, hr, hn⟩ := basicChar_eq_cons true hquote
      rw [Printer.basicChars, if_neg hquote, hx] at hc
      cases hc
      exact ⟨fun h => hline (hn h), hr⟩

theorem multilineLiteralString_multilineLiteral {t rest : Text}
    (hplain : ∀ c ∈ t, Printer.needsEscape c = false) (hrun : Printer.longestRun '\'' 0 t ≤ 2)
    (hrest : ∀ c ∈ rest.head?, c ≠ '\'') :
    multilineLiteralString (Printer.multilineLiteral t ++ rest) = some (t, rest) := by
  have hthree : ¬ ['\'', '\'', '\''] <:+: t := fun h => by
    have := three_le_longestRun h
    omega
  refine tripled_tripled (insideTripled_literal hrest hplain hthree) fun hone c hc => ?_
  cases t with
  | nil =>
    cases hc
    decide
  | cons d t =>
    cases hc
    constructor
    · rintro rfl
      simp at hone
    · rintro rfl
      have := hplain '\r' (by simp)
      cases this

/-! ## Any string -/

theorem tripled_of_not_isPrefix {q : Char} {part : Reader Text} {t : Text} (h : ¬ [q, q, q] <+: t) :
    tripled q part t = none := bind_of_none (literal_of_not_isPrefix h)

theorem anyString_basic (t : Text) {rest : Text} (hrest : ∀ c ∈ rest.head?, c ≠ '"') :
    anyString (Printer.basic t ++ rest) = some (t, rest) := by
  have hsingle : ¬ ['"', '"', '"'] <+: Printer.basic t ++ rest := by
    rw [Printer.basic, basicChars_eq_flatMap]
    cases t with
    | nil =>
      intro h
      cases rest with
      | nil => simp at h
      | cons c rest => exact hrest c rfl (by simpa [Printer.basicChars, eq_comm] using h)
    | cons c t =>
      intro h
      rw [List.flatMap_cons, basicSpelling] at h
      split_ifs at h with hquote
      · simp at h
      · obtain ⟨d, s, hd, hne, -⟩ := basicChar_eq_cons false hquote
        rw [hd] at h
        exact hne (by simpa using (List.cons_prefix_cons.1 (List.cons_prefix_cons.1 h).2).1.symm)
  exact (orElse_of_none (tripled_of_not_isPrefix hsingle)).trans
    (orElse_of_some (basicString_basic t rest))

theorem anyString_literal {t : Text} (ht : ∀ c ∈ t, isLiteralChar c = true) (hne : t ≠ [])
    (rest : Text) : anyString (Printer.literal t ++ rest) = some (t, rest) := by
  have hsingle : ¬ ['\'', '\'', '\''] <+: Printer.literal t ++ rest := by
    obtain ⟨c, s, rfl⟩ := List.exists_cons_of_ne_nil hne
    intro h
    have hc : c = '\'' := by
      simpa using (List.cons_prefix_cons.1 (List.cons_prefix_cons.1 h).2).1.symm
    have := ht c (by simp)
    rw [hc] at this
    cases this
  refine (orElse_of_none (tripled_of_not_isPrefix (by simp [Printer.literal]))).trans ?_
  refine (orElse_of_none (bind_of_none (char_of_ne (by decide) _))).trans ?_
  exact (orElse_of_none (tripled_of_not_isPrefix hsingle)).trans
    (literalString_literal ht rest)

theorem anyString_multilineLiteral {t rest : Text}
    (hplain : ∀ c ∈ t, Printer.needsEscape c = false) (hrun : Printer.longestRun '\'' 0 t ≤ 2)
    (hrest : ∀ c ∈ rest.head?, c ≠ '\'') :
    anyString (Printer.multilineLiteral t ++ rest) = some (t, rest) := by
  have hdouble : ¬ ['"', '"', '"'] <+: Printer.multilineLiteral t ++ rest := by
    simp [Printer.multilineLiteral, Printer.tripled]
  refine (orElse_of_none (tripled_of_not_isPrefix hdouble)).trans ?_
  refine (orElse_of_none (bind_of_none (char_of_ne (by decide) _))).trans ?_
  exact orElse_of_some (multilineLiteralString_multilineLiteral hplain hrun hrest)

/-- **Every string is read back from the form in which it is written.** -/
theorem anyString_string (t : Text) {rest : Text}
    (hrest : ∀ c ∈ rest.head?, c ≠ '"' ∧ c ≠ '\'') :
    anyString (Printer.string t ++ rest) = some (t, rest) := by
  have hdouble : ∀ c ∈ rest.head?, c ≠ '"' := fun c hc => (hrest c hc).1
  have hsingle : ∀ c ∈ rest.head?, c ≠ '\'' := fun c hc => (hrest c hc).2
  have hmulti : anyString (Printer.multilineBasic t ++ rest) = some (t, rest) :=
    orElse_of_some (multilineBasicString_multilineBasic t hdouble)
  have hplain : (!t.any Printer.needsEscape) = true → ∀ c ∈ t, Printer.needsEscape c = false := by
    intro h c hc
    simp at h
    simpa using h c hc
  unfold Printer.string
  simp only
  split_ifs with hbasic hliteral hmultiBasic hmultiLiteral hseveral
  · exact anyString_basic t hdouble
  · simp only [Bool.and_eq_true] at hliteral
    have hchars : ∀ c ∈ t, isLiteralChar c = true := by
      refine fun c hc => isLiteralChar_of_plain (hplain hliteral.1.1 c hc) ?_ ?_
      · rintro rfl
        simp [hc] at hliteral
      · rintro rfl
        simp [hc] at hliteral
    refine anyString_literal hchars ?_ rest
    · rintro rfl
      exact hbasic rfl
  · exact hmulti
  · simp only [Bool.and_eq_true, decide_eq_true_eq] at hmultiLiteral
    exact anyString_multilineLiteral (hplain hmultiLiteral.1) hmultiLiteral.2 hsingle
  · exact hmulti
  · exact anyString_basic t hdouble

end CodeSnippets.Toml

/-
  Form fields in queries.

  * `Spells`: a field spells a text if every character stands for itself or as the
    two hexadecimal digits of its code behind a percent sign;
  * `decodeField_of_spells`: a field that spells an ASCII text is decoded to it;
  * `queryPairs_join`: the pairs of a query that is made of parts between `&` signs;
  * `queryValue?_of_spells`: a value is found behind pairs of other keys.
-/
import CodeSnippets.Proofs.Text.Pieces
import CodeSnippets.Web.Query

namespace CodeSnippets

/-! ## Fields that spell a text -/

/-- A field spells a text: every character stands for itself, if it has no other
    meaning in a query, or as the digits of its code behind a percent sign. -/
inductive Spells : Text → Text → Prop where
  | nil : Spells [] []
  | plain {c : Char} {t u : Text} (hc : c ∉ ['%', '+', '&']) (h : Spells t u) :
    Spells (c :: t) (c :: u)
  | escaped {c high low : Char} {m n : Nat} {t u : Text} (hhigh : hexValue? high = some m)
    (hlow : hexValue? low = some n) (hcode : 16 * m + n = c.toNat) (h : Spells t u) :
    Spells (c :: t) ('%' :: high :: low :: u)

theorem hexValue?_ne_ampersand {c : Char} {n : Nat} (h : hexValue? c = some n) : '&' ≠ c := by
  rintro rfl
  have hnone : hexValue? '&' = none := by decide
  rw [hnone] at h
  cases h

theorem Spells.not_mem {t u : Text} (h : Spells t u) : '&' ∉ u := by
  induction h with
  | nil => exact List.not_mem_nil
  | plain hc _ ih =>
    refine List.not_mem_cons_of_ne_of_not_mem ?_ ih
    rintro rfl
    exact hc (by decide)
  | escaped hhigh hlow _ _ ih =>
    have hlow := List.not_mem_cons_of_ne_of_not_mem (hexValue?_ne_ampersand hlow) ih
    have hhigh := List.not_mem_cons_of_ne_of_not_mem (hexValue?_ne_ampersand hhigh) hlow
    exact List.not_mem_cons_of_ne_of_not_mem (by decide) hhigh

theorem fieldBytes_plain {c : Char} (hpercent : c ≠ '%') (hplus : c ≠ '+') (u : Text) :
    fieldBytes (c :: u) = String.utf8EncodeChar c ++ fieldBytes u := by
  rw [fieldBytes]
  · exact hplus
  · exact fun _ _ _ h => absurd h hpercent

theorem fieldBytes_escaped {high low : Char} {m n : Nat} (hhigh : hexValue? high = some m)
    (hlow : hexValue? low = some n) (u : Text) :
    fieldBytes ('%' :: high :: low :: u) = UInt8.ofNat (16 * m + n) :: fieldBytes u := by
  rw [fieldBytes, hhigh, hlow]

theorem ascii_of_all {t : Text} (h : t.all (fun c => decide (c.toNat < 0x80)) = true) :
    ∀ c ∈ t, c.toNat < 0x80 :=
  fun c hc => of_decide_eq_true (List.all_eq_true.1 h c hc)

theorem utf8EncodeChar_of_ascii {c : Char} (h : c.toNat < 0x80) :
    String.utf8EncodeChar c = [UInt8.ofNat c.toNat] := if_pos (Nat.le_of_lt_succ h)

/-- A field that spells an ASCII text has the codes of its characters as bytes. -/
theorem fieldBytes_of_spells {t u : Text} (h : Spells t u) (hascii : ∀ c ∈ t, c.toNat < 0x80) :
    fieldBytes u = t.map fun c => UInt8.ofNat c.toNat := by
  induction h with
  | nil => rw [fieldBytes, List.map_nil]
  | @plain c t u hc _ ih =>
    obtain ⟨hc', ht⟩ := List.forall_mem_cons.1 hascii
    simp only [List.mem_cons, List.not_mem_nil, or_false, not_or] at hc
    rw [fieldBytes_plain hc.1 hc.2.1, utf8EncodeChar_of_ascii hc', ih ht]
    rfl
  | escaped hhigh hlow hcode _ ih =>
    obtain ⟨-, ht⟩ := List.forall_mem_cons.1 hascii
    rw [fieldBytes_escaped hhigh hlow, hcode, ih ht]
    rfl

theorem ofUtf8Lossy_ascii {t : Text} (h : ∀ c ∈ t, c.toNat < 0x80) :
    Text.ofUtf8Lossy (t.map fun c => UInt8.ofNat c.toNat) = t := by
  induction t with
  | nil => rw [List.map_nil, Text.ofUtf8Lossy]
  | cons c t ih =>
    obtain ⟨hc, ht⟩ := List.forall_mem_cons.1 h
    have hbyte : (UInt8.ofNat c.toNat).toNat = c.toNat := by
      rw [UInt8.toNat_ofNat']
      omega
    rw [List.map_cons, Text.ofUtf8Lossy, hbyte, leadByte?, if_pos hc]
    simp [readTail, ih ht]

/-- **A field that spells an ASCII text is decoded to it.** -/
theorem decodeField_of_spells {t u : Text} (h : Spells t u) (hascii : ∀ c ∈ t, c.toNat < 0x80) :
    decodeField u = t := by
  rw [decodeField, fieldBytes_of_spells h hascii, ofUtf8Lossy_ascii hascii]

theorem decodePair_of_spells {key k t u : Text} (hk : Spells key k) (hequals : '=' ∉ k)
    (hkey : ∀ c ∈ key, c.toNat < 0x80) (hu : Spells t u) (hascii : ∀ c ∈ t, c.toNat < 0x80) :
    decodePair (k ++ '=' :: u) = (key, t) := by
  rw [decodePair, Text.splitAtFirst_append hequals]
  simp only [Option.getD_some]
  rw [decodeField_of_spells hk hkey, decodeField_of_spells hu hascii]

/-! ## Queries -/

theorem queryPairs_join {part : Text} {parts : List Text} (h : ∀ p ∈ part :: parts, '&' ∉ p) :
    queryPairs (Text.join ['&'] (part :: parts)) =
      ((part :: parts).filter fun p => !p.isEmpty).map decodePair := by
  rw [queryPairs, Text.splitOn_join h]

/-- **A value is found behind pairs of other keys.** -/
theorem queryValue?_of_spells {key k t u : Text} {before after : List Text}
    (hbefore : ∀ p ∈ before, '&' ∉ p ∧ (decodePair p).1 ≠ key) (hafter : ∀ p ∈ after, '&' ∉ p)
    (hk : Spells key k) (hequals : '=' ∉ k) (hkey : ∀ c ∈ key, c.toNat < 0x80)
    (hu : Spells t u) (hascii : ∀ c ∈ t, c.toNat < 0x80) :
    queryValue? key (Text.join ['&'] (before ++ (k ++ '=' :: u) :: after)) = some t := by
  have hfield : '&' ∉ k ++ '=' :: u := by
    simp only [List.mem_append, List.mem_cons, not_or]
    exact ⟨hk.not_mem, by decide, hu.not_mem⟩
  have hparts : ∀ p ∈ before ++ (k ++ '=' :: u) :: after, '&' ∉ p := by
    intro p hp
    rcases List.mem_append.1 hp with hp | hp
    · exact (hbefore p hp).1
    · rcases List.mem_cons.1 hp with rfl | hp
      · exact hfield
      · exact hafter p hp
  have hpairs : queryPairs (Text.join ['&'] (before ++ (k ++ '=' :: u) :: after)) =
      ((before ++ (k ++ '=' :: u) :: after).filter fun p => !p.isEmpty).map decodePair := by
    cases before with
    | nil => exact queryPairs_join hparts
    | cons part parts => exact queryPairs_join hparts
  have hothers : ((before.filter fun p => !p.isEmpty).map decodePair).find?
      (fun p => p.1 == key) = none := by
    rw [List.find?_eq_none]
    intro pair hpair
    obtain ⟨p, hp, rfl⟩ := List.mem_map.1 hpair
    simpa using (hbefore p (List.mem_filter.1 hp).1).2
  rw [queryValue?, hpairs, List.filter_append, List.map_append, List.find?_append, hothers,
    List.filter_cons_of_pos (by simp), List.map_cons,
    decodePair_of_spells hk hequals hkey hu hascii]
  simp

end CodeSnippets

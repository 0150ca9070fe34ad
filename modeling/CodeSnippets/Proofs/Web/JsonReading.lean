/-
  Reading back of JSON objects whose members are strings.

  * `Json.character`, `Json.string`: a character as it stands in a string, and a
    string.  An escape is a letter or a code of four hexadecimal digits; a character
    beyond the first 65536 has two codes, its surrogates;
  * `Json.stringMembers?`: the members of an object of strings, if the text is one.
    White space may stand between any two parts;
  * `stringMembers?_compact`: an object that is written without space is read back
    as it was.
-/
import CodeSnippets.Proofs.Text.Readers
import CodeSnippets.Web.Json
import Mathlib.Tactic.SplitIfs

namespace CodeSnippets

/-! ## The form of an object of strings -/

namespace Json

/-- White space between the parts of a text. -/
def isSpace (c : Char) : Bool := c = ' ' || c = '\t' || c = '\n' || c = '\r'

/-- A part with the white space in front of it. -/
def spaced {α : Type} (r : Reader α) : Reader α := do
  let _ ← Reader.takeWhile isSpace
  r

/-- A code of four hexadecimal digits. -/
def codeUnit : Reader Nat := do
  return valueIn 16 (← Reader.exactly 4 fun c => (hexValue? c).isSome)

/-- The second code of a character that has two. -/
def lowSurrogate (high : Nat) : Reader Char := do
  Reader.literal ['\\', 'u']
  let low ← codeUnit
  if 0xDC00 ≤ low ∧ low ≤ 0xDFFF then
    return Char.ofNat (0x10000 + (high - 0xD800) * 0x400 + (low - 0xDC00))
  else Reader.fail

/-- The character of a code, or of two. -/
def coded : Reader Char := do
  let code ← codeUnit
  if code < 0xD800 ∨ 0xDFFF < code then return Char.ofNat code
  else if code < 0xDC00 then lowSurrogate code
  else Reader.fail

/-- The character that a letter behind a backslash stands for. -/
def letter? (c : Char) : Option Char :=
  match c with
  | '"' => some '"'
  | '\\' => some '\\'
  | '/' => some '/'
  | 'b' => some '\x08'
  | 'f' => some '\x0c'
  | 'n' => some '\n'
  | 'r' => some '\r'
  | 't' => some '\t'
  | _ => none

/-- What stands behind a backslash. -/
def escape : Reader Char := do
  let c ← Reader.charIf fun _ => true
  match letter? c with
  | some d => return d
  | none => if c = 'u' then coded else Reader.fail

/-- A character of a string; a control character does not stand for itself. -/
def character : Reader Char := do
  let c ← Reader.charIf fun c => c != '"' && 0x20 ≤ c.toNat
  if c = '\\' then escape else return c

/-- A string between its quotes. -/
def string : Reader Text := do
  Reader.char '"'
  let content ← Reader.repeatedly character
  Reader.char '"'
  return content

/-- A key with the string behind its colon. -/
def stringMember : Reader (Text × Text) := do
  let key ← spaced string
  spaced (Reader.char ':')
  let value ← spaced string
  return (key, value)

/-- The members of an object of strings. -/
def stringObject : Reader (List (Text × Text)) := do
  spaced (Reader.char '\x7b')
  let members ← Reader.separated (spaced (Reader.char ',')) stringMember
  spaced (Reader.char '\x7d')
  return members

/-- The members of the object of strings that a text is. -/
def stringMembers? (t : Text) : Option (List (Text × Text)) :=
  ((do
    let members ← stringObject
    spaced Reader.atEnd
    return members : Reader (List (Text × Text))) t).map Prod.fst

/-! ## Characters and strings -/

theorem spaced_of_not_space {α : Type} {r : Reader α} {c : Char} {t : Text}
    (h : isSpace c = false) : spaced r (c :: t) = r (c :: t) :=
  Reader.bind_of_some (a := []) (by simp [Reader.takeWhile, h])

/-- The code of a control character is read as this character. -/
theorem codeUnit_hexDigits {n : Nat} (h : n < 0x20) (rest : Text) :
    codeUnit (Text.hexDigits 4 n ++ rest) = some (n, rest) := by
  have hdigits : ∀ n < 0x20, (Text.hexDigits 4 n).length = 4 ∧
      (Text.hexDigits 4 n).all (fun c => (hexValue? c).isSome) = true ∧
      valueIn 16 (Text.hexDigits 4 n) = n := by decide +kernel
  obtain ⟨hlen, hall, hvalue⟩ := hdigits n h
  have hread : Reader.exactly 4 (fun c => (hexValue? c).isSome) (Text.hexDigits 4 n ++ rest) =
      some (Text.hexDigits 4 n, rest) := by
    have htake : (Text.hexDigits 4 n ++ rest).take 4 = Text.hexDigits 4 n :=
      List.take_left' hlen
    have hdrop : (Text.hexDigits 4 n ++ rest).drop 4 = rest := List.drop_left' hlen
    simp only [Reader.exactly, htake, hdrop, hlen, hall, decide_true, Bool.and_self, if_true]
  rw [codeUnit, Reader.bind_of_some hread, hvalue]
  rfl

theorem coded_hexDigits {c : Char} (h : c.toNat < 0x20) (rest : Text) :
    coded (Text.hexDigits 4 c.toNat ++ rest) = some (c, rest) := by
  rw [coded, Reader.bind_of_some (codeUnit_hexDigits h rest), if_pos (.inl (by omega)),
    Char.ofNat_toNat]
  rfl

theorem character_backslash (rest : Text) : character ('\\' :: rest) = escape rest := by
  rw [character, Reader.bind_of_some (Reader.charIf_cons (by decide) rest), if_pos rfl]

theorem character_letter {c d : Char} (h : letter? c = some d) (rest : Text) :
    character ('\\' :: c :: rest) = some (d, rest) := by
  rw [character_backslash, escape, Reader.bind_of_some (Reader.charIf_cons rfl rest), h]
  rfl

theorem character_coded {c : Char} (h : c.toNat < 0x20) (rest : Text) :
    character ('\\' :: 'u' :: (Text.hexDigits 4 c.toNat ++ rest)) = some (c, rest) := by
  rw [character_backslash, escape, Reader.bind_of_some (Reader.charIf_cons rfl _)]
  exact coded_hexDigits h rest

/-- A character is read back from its spelling. -/
theorem character_escapeJsonChar (c : Char) (rest : Text) :
    character (escapeJsonChar c ++ rest) = some (c, rest) := by
  unfold escapeJsonChar
  split_ifs with hquote hbackslash hb ht hn hf hr hcontrol
  · rw [hquote]
    exact character_letter rfl rest
  · rw [hbackslash]
    exact character_letter rfl rest
  · rw [hb]
    exact character_letter rfl rest
  · rw [ht]
    exact character_letter rfl rest
  · rw [hn]
    exact character_letter rfl rest
  · rw [hf]
    exact character_letter rfl rest
  · rw [hr]
    exact character_letter rfl rest
  · rw [List.append_assoc]
    exact character_coded hcontrol rest
  · have hplain : (c != '"' && 0x20 ≤ c.toNat) = true := by
      simp only [Bool.and_eq_true, bne_iff_ne, decide_eq_true_eq]
      exact ⟨hquote, Nat.le_of_not_lt hcontrol⟩
    rw [List.singleton_append, character, Reader.bind_of_some (Reader.charIf_cons hplain rest),
      if_neg hbackslash]
    rfl

theorem string_jsonString (t rest : Text) :
    string (jsonString t ++ rest) = some (t, rest) := by
  have hne : ∀ c, escapeJsonChar c ≠ [] := by
    intro c
    unfold escapeJsonChar
    split_ifs <;> simp
  have hcontent : Reader.repeatedly character (t.flatMap escapeJsonChar ++ '"' :: rest) =
      some (t, '"' :: rest) :=
    Reader.repeatedly_flatMap hne character_escapeJsonChar rfl t
  rw [jsonString, List.cons_append, List.cons_append, List.append_assoc, List.singleton_append,
    string, Reader.bind_of_some (Reader.char_cons _ _), Reader.bind_of_some hcontent,
    Reader.bind_of_some (Reader.char_cons _ _)]
  rfl

/-! ## Objects -/

/-- The spelling of a member whose value is a string. -/
def memberText (m : Text × Text) : Text := jsonString m.1 ++ ':' :: jsonString m.2

theorem spaced_string (t rest : Text) :
    spaced string (jsonString t ++ rest) = some (t, rest) :=
  (spaced_of_not_space rfl).trans (string_jsonString t rest)

theorem stringMember_memberText (m : Text × Text) (rest : Text) :
    stringMember (memberText m ++ rest) = some (m, rest) := by
  have hcolon : spaced (Reader.char ':') (':' :: (jsonString m.2 ++ rest)) =
      some ((), jsonString m.2 ++ rest) := (spaced_of_not_space rfl).trans (Reader.char_cons _ _)
  rw [memberText, List.append_assoc, List.cons_append, stringMember,
    Reader.bind_of_some (spaced_string _ _), Reader.bind_of_some hcolon,
    Reader.bind_of_some (spaced_string _ _)]
  rfl

theorem compactMembers_strings (members : List (Text × Text)) :
    JsonValue.compactMembers (members.map fun m => (m.1, .string m.2)) =
      members.map memberText := by
  induction members with
  | nil => rfl
  | cons m members ih =>
    rw [List.map_cons, List.map_cons, JsonValue.compactMembers, ih]
    rfl

theorem join_cons_map {α : Type} (separator : Text) (spell : α → Text) (a : α) (as : List α) :
    Text.join separator ((a :: as).map spell) =
      spell a ++ as.flatMap fun b => separator ++ spell b := by
  induction as generalizing a with
  | nil => simp [Text.join]
  | cons b as ih =>
    rw [List.map_cons, List.map_cons, Text.join, ← List.map_cons, ih]
    · simp
    · simp

/-- Members between commas are read back, in front of the closing brace. -/
theorem separated_members (members : List (Text × Text)) (rest : Text) :
    Reader.separated (spaced (Reader.char ',')) stringMember
        (Text.join [','] (members.map memberText) ++ '\x7d' :: rest) =
      some (members, '\x7d' :: rest) := by
  cases members with
  | nil => rfl
  | cons m members =>
    rw [join_cons_map, List.append_assoc]
    have hfirst : Reader.optionally stringMember (memberText m ++
        ((members.flatMap fun m => [','] ++ memberText m) ++ '\x7d' :: rest)) =
        some (some m, (members.flatMap fun m => [','] ++ memberText m) ++ '\x7d' :: rest) := by
      rw [Reader.optionally, stringMember_memberText]
    have hmore : ∀ m rest, (do let _ ← spaced (Reader.char ','); stringMember : Reader _)
        ([','] ++ memberText m ++ rest) = some (m, rest) := by
      intro m rest
      have hcomma : spaced (Reader.char ',') (',' :: (memberText m ++ rest)) =
          some ((), memberText m ++ rest) :=
        (spaced_of_not_space rfl).trans (Reader.char_cons _ _)
      exact (Reader.bind_of_some hcomma).trans (stringMember_memberText m rest)
    rw [Reader.separated, Reader.bind_of_some hfirst]
    refine (Reader.bind_of_some (Reader.repeatedly_flatMap (by simp) hmore rfl members)).trans ?_
    rfl

/-- **An object of strings is read back as it was written.** -/
theorem stringMembers?_compact (members : List (Text × Text)) :
    stringMembers? (JsonValue.object (members.map fun m => (m.1, .string m.2))).compact =
      some members := by
  have hopen : ∀ t, spaced (Reader.char '\x7b') ('\x7b' :: t) = some ((), t) :=
    fun t => (spaced_of_not_space rfl).trans (Reader.char_cons _ _)
  have hobject : stringObject ('\x7b' ::
      (Text.join [','] (members.map memberText) ++ ['\x7d'])) = some (members, []) := by
    rw [stringObject, Reader.bind_of_some (hopen _),
      Reader.bind_of_some (separated_members members [])]
    rfl
  rw [JsonValue.compact, compactMembers_strings, List.cons_append, stringMembers?,
    Reader.bind_of_some hobject]
  rfl

end Json

end CodeSnippets

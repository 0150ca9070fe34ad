/-
  Settings are loaded as they were saved.

  * `Settings.parse_document`: the document with all settings is read as these settings,
    whatever their words and their title hold;
  * `Settings.saveTo_eq`: what saving comes to on a machine;
  * `Settings.loaded_as_saved`: settings whose numbers are integers of a document are saved
    wherever a file can be put, and loaded from there; others are not saved, and leave the
    file that was there.
-/
import CodeSnippets.Proofs.Files.WrittenFiles
import CodeSnippets.Proofs.Toml.WrittenDocuments
import CodeSnippets.Settings.Storage

namespace CodeSnippets

open Toml (Line Value Entries)
open Toml.Printer (entry table strings string integer?)

/-! ## What a document says -/

theorem setting_find {entries : Entries} {name : String} {v : Value}
    (h : entries.find? name.toList = some v) {α : Type} (i : Nat) (read : Value → Option α)
    (default : α) : setting (fun _ name => entries.find? name) i name read default = read v := by
  rw [setting, h]

theorem textsValue?_strings (ts : List Text) : textsValue? (.array (ts.map .string)) = some ts := by
  rw [textsValue?, List.mapM_map]
  exact (List.mapM_pure (f := id)).trans (congrArg some (List.map_id ts))

theorem naturalValue?_integer (n : Nat) : naturalValue? (.integer n) = some n := by
  rw [naturalValue?, if_pos (Int.natCast_nonneg n), Int.toNat_natCast]

/-- The section that says the settings of the highlighting. -/
def HighlightSettings.value (h : HighlightSettings) : Value := .table .header [
  ("extra_keywords".toList, .array (h.extraKeywords.map .string)),
  ("extra_globals".toList, .array (h.extraGlobals.map .string)),
  ("debounce_ms".toList, .integer h.debounceMs)]

theorem HighlightSettings.ofValue?_value (h : HighlightSettings) : ofValue? h.value = some h := by
  simp [ofValue?, value, sectionValues?, setting, Entries.find?, naturalValue?_integer,
    textsValue?_strings]

/-- The section that says the settings of the store. -/
def StoreSection.value (s : StoreSection) : Value := .table .header [
  ("ttl_secs".toList, .integer s.ttlSecs),
  ("list_limit".toList, .integer s.listLimit),
  ("id_length".toList, .integer s.idLength)]

theorem StoreSection.ofValue?_value (s : StoreSection) : ofValue? s.value = some s := by
  simp [ofValue?, value, sectionValues?, setting, Entries.find?, naturalValue?_integer]

/-- The section that says the settings of pages. -/
def RenderSettings.value (r : RenderSettings) : Value := .table .header [
  ("title".toList, .string r.title)]

theorem RenderSettings.ofValue?_value (r : RenderSettings) : ofValue? r.value = some r := rfl

namespace Settings

/-! ## The document -/

/-- The numbers of settings. -/
def numbers (s : Settings) : List Nat :=
  [s.highlight.debounceMs, s.store.ttlSecs, s.store.listLimit, s.store.idLength]

/-- The largest integer of a document. -/
def maxInteger : Nat := 0x7FFFFFFFFFFFFFFF

theorem fitsInteger_iff (n : Nat) : Toml.fitsInteger n = true ↔ n ≤ maxInteger := by
  simp only [Toml.fitsInteger, maxInteger, Bool.and_eq_true, decide_eq_true_eq]
  omega

/-- The lines of the document with all settings, and what each says. -/
def lines (s : Settings) : List (Option Line × Text) := [
  (some (.table [] "highlight".toList), table "highlight".toList []),
  (some (.entry [] "extra_keywords".toList (.array (s.highlight.extraKeywords.map .string))),
    entry "extra_keywords".toList (strings s.highlight.extraKeywords)),
  (some (.entry [] "extra_globals".toList (.array (s.highlight.extraGlobals.map .string))),
    entry "extra_globals".toList (strings s.highlight.extraGlobals)),
  (some (.entry [] "debounce_ms".toList (.integer s.highlight.debounceMs)),
    entry "debounce_ms".toList (Text.ofNat s.highlight.debounceMs)),
  (none, ['\n']),
  (some (.table [] "store".toList), table "store".toList []),
  (some (.entry [] "ttl_secs".toList (.integer s.store.ttlSecs)),
    entry "ttl_secs".toList (Text.ofNat s.store.ttlSecs)),
  (some (.entry [] "list_limit".toList (.integer s.store.listLimit)),
    entry "list_limit".toList (Text.ofNat s.store.listLimit)),
  (some (.entry [] "id_length".toList (.integer s.store.idLength)),
    entry "id_length".toList (Text.ofNat s.store.idLength)),
  (none, ['\n']),
  (some (.table [] "render".toList), table "render".toList []),
  (some (.entry [] "title".toList (.string s.render.title)),
    entry "title".toList (string s.render.title))]

/-- The document with all settings. -/
def document (s : Settings) : Text := s.lines.flatMap Prod.snd

theorem text?_of_le {s : Settings} (h : ∀ n ∈ s.numbers, n ≤ maxInteger) :
    s.text? = some s.document := by
  simp only [numbers, List.forall_mem_cons, ← fitsInteger_iff] at h
  obtain ⟨hdebounce, httl, hlimit, hlength, -⟩ := h
  simp only [text?, integer?, hdebounce, httl, hlimit, hlength, if_true]
  simp [document, lines, Toml.Printer.document, table, Text.join]

theorem le_of_integer? {n : Nat} {t : Text} (h : integer? n = some t) : n ≤ maxInteger := by
  rw [integer?] at h
  split at h
  · rename_i hfits
    exact (fitsInteger_iff n).1 hfits
  · cases h

theorem text?_of_lt {s : Settings} (h : ∃ n ∈ s.numbers, maxInteger < n) : s.text? = none := by
  by_contra hsome
  obtain ⟨t, ht⟩ := Option.ne_none_iff_exists'.1 hsome
  simp only [text?, bind, Option.bind_eq_some_iff] at ht
  obtain ⟨a, ha, b, hb, c, hc, d, hd, -⟩ := ht
  have hall : ∀ n ∈ s.numbers, n ≤ maxInteger := by
    simp only [numbers, List.forall_mem_cons]
    exact ⟨le_of_integer? ha, le_of_integer? hb, le_of_integer? hc, le_of_integer? hd, nofun⟩
  obtain ⟨n, hn, hlt⟩ := h
  exact absurd (hall n hn) (Nat.not_le.2 hlt)

theorem not_blank_ofNat (n : Nat) : ∀ c ∈ (Text.ofNat n).head?, Toml.isSpaceOrTab c = false := by
  obtain ⟨c, t, h, hc, -⟩ := Toml.exists_ofNat_eq_cons n
  rw [h]
  rintro d ⟨⟩
  simp [Toml.isSpaceOrTab, Toml.ne_of_digit hc (d := ' ') rfl, Toml.ne_of_digit hc (d := '\t') rfl]

theorem not_blank_string (t : Text) : ∀ c ∈ (string t).head?, Toml.isSpaceOrTab c = false := by
  obtain ⟨q, u, h, hq⟩ := Toml.string_eq_cons t
  rw [h]
  rintro d ⟨⟩
  rcases hq with rfl | rfl <;> rfl

theorem not_blank_strings (ts : List Text) :
    ∀ c ∈ (strings ts).head?, Toml.isSpaceOrTab c = false := by
  match ts with
  | [] | [_] | _ :: _ :: _ =>
    rintro d ⟨⟩
    rfl

/-- Every line of the document is read back. -/
theorem line_lines {s : Settings} (h : ∀ n ∈ s.numbers, n ≤ maxInteger) :
    ∀ x ∈ s.lines, ∀ rest, Toml.line (x.2 ++ rest) = some (x.1, rest) := by
  simp only [numbers, List.forall_mem_cons, ← fitsInteger_iff] at h
  obtain ⟨hdebounce, httl, hlimit, hlength, -⟩ := h
  have htable : ∀ name, Toml.IsBareKey name → ∀ rest,
      Toml.line (table name [] ++ rest) = some (some (.table [] name), rest) := by
    intro name hname rest
    have hprinted : table name [] ++ rest = '[' :: name ++ ']' :: '\n' :: rest := by simp [table]
    rw [hprinted]
    exact Toml.line_header hname rest
  have hstrings : ∀ name ts, Toml.IsBareKey name → ∀ rest,
      Toml.line (entry name (strings ts) ++ rest) =
        some (some (.entry [] name (.array (ts.map .string))), rest) := fun name ts hname =>
    Toml.line_entry hname (not_blank_strings ts) fun rest => Toml.value_strings ts _
  have hnumber : ∀ name (n : Nat), Toml.IsBareKey name → Toml.fitsInteger n = true → ∀ rest,
      Toml.line (entry name (Text.ofNat n) ++ rest) =
        some (some (.entry [] name (.integer n)), rest) := fun name n hname hfits =>
    Toml.line_entry hname (not_blank_ofNat n) fun rest => Toml.value_ofNat hfits rest
  have hstring : ∀ name t, Toml.IsBareKey name → ∀ rest,
      Toml.line (entry name (string t) ++ rest) =
        some (some (.entry [] name (.string t)), rest) := fun name t hname =>
    Toml.line_entry hname (not_blank_string t) fun rest =>
      Toml.valueTo_string _ t (by rintro c ⟨⟩; decide)
  simp only [lines, List.forall_mem_cons]
  refine ⟨htable _ ?_, hstrings _ _ ?_, hstrings _ _ ?_, hnumber _ _ ?_ hdebounce, Toml.line_empty,
    htable _ ?_, hnumber _ _ ?_ httl, hnumber _ _ ?_ hlimit, hnumber _ _ ?_ hlength,
    Toml.line_empty, htable _ ?_, hstring _ _ ?_, fun x hx => nomatch hx⟩ <;> decide +kernel

/-- What the document says, table by table. -/
def entries (s : Settings) : Entries := [
  ("highlight".toList, s.highlight.value),
  ("store".toList, s.store.value),
  ("render".toList, s.render.value)]

theorem assemble_lines (s : Settings) :
    Toml.assemble (s.lines.filterMap Prod.fst) = some s.entries := by
  simp [lines, entries, HighlightSettings.value, StoreSection.value, RenderSettings.value,
    Toml.assemble, Toml.addLine, Toml.openTable, Toml.define, Toml.changeAt, Entries.find?,
    Entries.replace]

/-- What the document says is read as the settings. -/
theorem ofEntries?_entries (s : Settings) : ofEntries? s.entries = some s := by
  have hhighlight : s.entries.find? "highlight".toList = some s.highlight.value := rfl
  have hstore : s.entries.find? "store".toList = some s.store.value := rfl
  have hrender : s.entries.find? "render".toList = some s.render.value := rfl
  simp only [ofEntries?, setting_find hhighlight, setting_find hstore, setting_find hrender,
    HighlightSettings.ofValue?_value, StoreSection.ofValue?_value, RenderSettings.ofValue?_value]
  rfl

/-- **The text of settings is parsed to these settings.** -/
theorem parse_document {s : Settings} (h : ∀ n ∈ s.numbers, n ≤ maxInteger) :
    parse s.document = .ok s := by
  have hne : ∀ x ∈ s.lines, x.2 ≠ [] := by
    simp [lines, table, entry]
  have hread : Toml.read? s.document = some s.entries := by
    have hlines := Toml.documentLines_flatMap hne (line_lines h) (by simp [lines, table])
    rw [document, Toml.read?, hlines]
    exact assemble_lines s
  rw [parse, hread]
  simp only [ofEntries?_entries]

end Settings

/-! ## Files -/

namespace Machine

/-- Makes the directories that lead to a file, unless the path is a single name. -/
def makeParents (path : Text) (w : Machine) : Except FileError Unit × Machine :=
  if (parentPath path).isEmpty then (.ok (), w) else w.makeDirectories (parentPath path)

/-- A file can be put under a path once the directories that lead to it are made. -/
def TakesFile (w : Machine) (path : Text) : Prop :=
  ∃ w' files, w.makeParents path = (.ok (), w') ∧ w'.files.write path ByteArray.empty = .ok files

theorem makeParents_of_read {path : Text} {w : Machine} {content : ByteArray}
    (h : w.files.read path = .ok content) : w.makeParents path = (.ok (), w) := by
  rw [makeParents]
  split_ifs with hparent
  · rfl
  · rcases FileTree.makeDirectories_parentPath_of_read h with hnil | hmade
    · rw [hnil] at hparent
      exact absurd rfl hparent
    · rw [makeDirectories, hmade]

theorem node_makeParents {path : Text} {w : Machine} {place : Place} {content : ByteArray}
    (h : (w.makeParents path).2.files.node place = some (.file content)) :
    w.files.node place = some (.file content) := by
  rw [makeParents] at h
  split_ifs at h
  · exact h
  · exact FileTree.node_makeDirectories h

end Machine

namespace Settings

/-- What saving comes to: directories first, then the text, if there is one. -/
theorem saveTo_eq (s : Settings) (path : Text) (w : Machine) :
    (s.saveTo path : StateM Machine _) w =
      match w.makeParents path with
      | (.error e, w) => (.error (.io e), w)
      | (.ok (), w) => match s.text? with
        | none => (.error .serialize, w)
        | some t => ((w.write path t.toUtf8).1.mapError .io, (w.write path t.toUtf8).2) := by
  unfold saveTo Machine.makeParents
  generalize s.text? = text
  split_ifs
  · cases text <;> rfl
  · have hmade : (Host.makeDirectories (parentPath path) : StateM Machine _) w =
        w.makeDirectories (parentPath path) := rfl
    rw [stateM_bind, hmade]
    rcases w.makeDirectories (parentPath path) with ⟨_ | _, w'⟩
    · rfl
    · cases text <;> rfl

theorem loadFrom_of_read {path : Text} {w : Machine} {t : Text}
    (h : w.files.read path = .ok t.toUtf8) :
    (loadFrom path : StateM Machine _) w = ((parse t).mapError .parse, w) := by
  have hread : (Host.readText path : StateM Machine _) w = (.ok t, w) := by
    change ((w.files.read path).bind decodeContent, w) = _
    rw [h]
    change (decodeContent t.toUtf8, w) = _
    rw [decodeContent, Text.ofUtf8?_toUtf8]
  unfold loadFrom
  rw [stateM_bind, hread]
  rfl

/-- Settings whose numbers fit are saved wherever a file can be put, and loaded from there. -/
theorem saveTo_of_le {s : Settings} (h : ∀ n ∈ s.numbers, n ≤ maxInteger) {path : Text}
    {w : Machine} (hfile : w.TakesFile path) :
    ∃ w', (s.saveTo path : StateM Machine _) w = (.ok (), w') ∧
      (loadFrom path : StateM Machine _) w' = (.ok s, w') := by
  obtain ⟨made, files, hmade, hwrite⟩ := hfile
  obtain ⟨files', hwritten⟩ := FileTree.exists_write_of_write hwrite s.document.toUtf8
  refine ⟨{ made with files := files' }, ?_, ?_⟩
  · rw [saveTo_eq, hmade, text?_of_le h]
    simp only [Machine.write_of_ok hwritten]
    rfl
  · rw [loadFrom_of_read (FileTree.read_of_write hwritten), parse_document h]
    rfl

theorem saveTo_of_not_takesFile {s : Settings} (h : ∀ n ∈ s.numbers, n ≤ maxInteger) {path : Text}
    {w : Machine} (hfile : ¬ w.TakesFile path) :
    ∃ e w', (s.saveTo path : StateM Machine _) w = (.error (.io e), w') := by
  rw [saveTo_eq, text?_of_le h]
  rcases hmade : w.makeParents path with ⟨e | _, made⟩
  · exact ⟨e, made, rfl⟩
  · rcases hwrite : made.files.write path s.document.toUtf8 with e | files
    · refine ⟨e, made, ?_⟩
      simp only [Machine.write_of_error hwrite]
      rfl
    · obtain ⟨files', hwritten⟩ := FileTree.exists_write_of_write hwrite ByteArray.empty
      exact absurd ⟨made, files', hmade, hwritten⟩ hfile

/-- A number that is too large keeps settings from being written. -/
theorem saveTo_of_lt {s : Settings} (h : ∃ n ∈ s.numbers, maxInteger < n) (path : Text)
    (w : Machine) :
    (s.saveTo path : StateM Machine _) w = match w.makeParents path with
      | (.error e, made) => (.error (.io e), made)
      | (.ok (), made) => (.error .serialize, made) := by
  rw [saveTo_eq, text?_of_lt h]

/-- **Settings are loaded as they were saved.**  If their numbers are integers of a document,
    they are saved wherever a file can be put, and loaded from there.  Otherwise they are not
    saved: a file that was there is as it was, and no file comes about. -/
theorem loaded_as_saved (s : Settings) (path : Text) (w : Machine) :
    ((∀ n ∈ s.numbers, n ≤ maxInteger) →
      (w.TakesFile path → ∃ w', (s.saveTo path : StateM Machine _) w = (.ok (), w') ∧
        (loadFrom path : StateM Machine _) w' = (.ok s, w')) ∧
      (¬ w.TakesFile path → ∃ e w', (s.saveTo path : StateM Machine _) w = (.error (.io e), w'))) ∧
    ((∃ n ∈ s.numbers, maxInteger < n) →
      (w.TakesFile path → ((s.saveTo path : StateM Machine _) w).1 = .error .serialize) ∧
      (∀ content, w.files.read path = .ok content →
        (s.saveTo path : StateM Machine _) w = (.error .serialize, w)) ∧
      ∀ place content, ((s.saveTo path : StateM Machine _) w).2.files.node place =
          some (.file content) → w.files.node place = some (.file content)) := by
  refine ⟨fun h => ⟨saveTo_of_le h, saveTo_of_not_takesFile h⟩, fun h => ?_⟩
  rw [saveTo_of_lt h]
  refine ⟨?_, ?_, ?_⟩
  · rintro ⟨made, files, hmade, -⟩
    rw [hmade]
  · intro content hread
    rw [Machine.makeParents_of_read hread]
  · intro place content hafter
    have hmade : (w.makeParents path).2.files.node place = some (.file content) := by
      split at hafter
      · rename_i hmade
        rwa [hmade]
      · rename_i hmade
        rwa [hmade]
    exact Machine.node_makeParents hmade

/-- Settings with quotes of both kinds, line breaks and control characters in their texts. -/
def quoted : Settings :=
  ⟨⟨["a\"b".toList, "it's".toList, "\"\"\"'''".toList, "\n".toList], ["\x00\r\\".toList],
    maxInteger⟩, ⟨0, 1, 2⟩, ⟨"\"'''\n\"\"\"\x7f".toList⟩⟩

/-- Such settings with a number that is too large. -/
def oversized : Settings := { quoted with store := ⟨0, 1, maxInteger + 1⟩ }

theorem loaded_as_saved_of_quoted :
    (∃ w', (quoted.saveTo "conf/app.toml".toList : StateM Machine _) ⟨.empty, .empty, []⟩ =
        (.ok (), w') ∧
      (loadFrom "conf/app.toml".toList : StateM Machine _) w' = (.ok quoted, w')) ∧
    (oversized.saveTo "app.toml".toList : StateM Machine _)
        ⟨FileTree.empty.put ["app.toml".toList] (.file ⟨#[0]⟩), .empty, []⟩ =
      (.error .serialize, ⟨FileTree.empty.put ["app.toml".toList] (.file ⟨#[0]⟩), .empty, []⟩) := by
  constructor
  · exact ((loaded_as_saved quoted _ _).1 (by decide)).1 ⟨_, _, rfl, rfl⟩
  · exact ((loaded_as_saved oversized _ _).2 ⟨maxInteger + 1, by decide, by decide⟩).2.1 ⟨#[0]⟩ rfl

end Settings

end CodeSnippets

/-
  Settings as a TOML document.

  * `Settings.parse`: the settings in a text.  What is missing has its default, and
    keys without a meaning are passed over.  A section is a table of its values by
    name, or an array of them in their order, which may stop early.
  * `Settings.text?`: the document with all settings, if the numbers in it are
    integers of a document.
-/
import CodeSnippets.Settings.Basic
import CodeSnippets.Settings.Error
import CodeSnippets.Toml.Printer
import CodeSnippets.Toml.Reader

namespace CodeSnippets

/-! ## Values -/

/-- A string. -/
def textValue? : Toml.Value → Option Text
  | .string t => some t
  | _ => none

/-- An integer that is not negative. -/
def naturalValue? : Toml.Value → Option Nat
  | .integer n => if 0 ≤ n then some n.toNat else none
  | _ => none

/-- An array of strings. -/
def textsValue? : Toml.Value → Option (List Text)
  | .array items => items.mapM textValue?
  | _ => none

/-! ## Sections -/

/-- The value at a place in a section, which has a position and a name. -/
abbrev SectionValues := Nat → Text → Option Toml.Value

/-- The values of a section.  A date or time has none that has a meaning. -/
def sectionValues? : Toml.Value → Option SectionValues
  | .table _ entries => some fun _ name => Toml.Entries.find? entries name
  | .array items => some fun i _ => items[i]?
  | .elements tables => some fun i _ => (tables[i]?).map (.table .header)
  | .moment _ => some fun _ _ => none
  | _ => none

/-- A setting of a section: what its value reads as, or its default. -/
def setting {α : Type} (values : SectionValues) (position : Nat) (name : String)
    (read : Toml.Value → Option α) (default : α) : Option α :=
  match values position name.toList with
  | none => some default
  | some v => read v

/-- The settings of the highlighting in a section. -/
def HighlightSettings.ofValue? (v : Toml.Value) : Option HighlightSettings := do
  let values ← sectionValues? v
  let extraKeywords ← setting values 0 "extra_keywords" textsValue? default.extraKeywords
  let extraGlobals ← setting values 1 "extra_globals" textsValue? default.extraGlobals
  let debounceMs ← setting values 2 "debounce_ms" naturalValue? default.debounceMs
  return ⟨extraKeywords, extraGlobals, debounceMs⟩

/-- The settings of the store in a section. -/
def StoreSection.ofValue? (v : Toml.Value) : Option StoreSection := do
  let values ← sectionValues? v
  let ttlSecs ← setting values 0 "ttl_secs" naturalValue? default.ttlSecs
  let listLimit ← setting values 1 "list_limit" naturalValue? default.listLimit
  let idLength ← setting values 2 "id_length" naturalValue? default.idLength
  return ⟨ttlSecs, listLimit, idLength⟩

/-- The settings of pages in a section. -/
def RenderSettings.ofValue? (v : Toml.Value) : Option RenderSettings := do
  let values ← sectionValues? v
  let title ← setting values 0 "title" textValue? default.title
  return ⟨title⟩

namespace Settings

/-! ## Documents -/

/-- The settings in a document. -/
def ofEntries? (entries : Toml.Entries) : Option Settings := do
  let values : SectionValues := fun _ name => entries.find? name
  let highlight ← setting values 0 "highlight" HighlightSettings.ofValue? .default
  let store ← setting values 1 "store" StoreSection.ofValue? .default
  let render ← setting values 2 "render" RenderSettings.ofValue? .default
  return ⟨highlight, store, render⟩

/-- The settings in a text. -/
def parse (t : Text) : Except SettingsFault Settings :=
  match Toml.read? t with
  | none => .error .syntaxError
  | some entries =>
    match ofEntries? entries with
    | none => .error .typeError
    | some s => .ok s

open Toml.Printer in
/-- The document with all settings. -/
def text? (s : Settings) : Option Text := do
  let line := fun (name : String) (value : Text) => entry name.toList value
  return document [
    table "highlight".toList [
      line "extra_keywords" (strings s.highlight.extraKeywords),
      line "extra_globals" (strings s.highlight.extraGlobals),
      line "debounce_ms" (← integer? s.highlight.debounceMs)],
    table "store".toList [
      line "ttl_secs" (← integer? s.store.ttlSecs),
      line "list_limit" (← integer? s.store.listLimit),
      line "id_length" (← integer? s.store.idLength)],
    table "render".toList [
      line "title" (string s.render.title)]]

end Settings

end CodeSnippets

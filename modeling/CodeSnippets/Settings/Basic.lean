/-
  Settings of the application, in three sections.

  Each section has defaults.  `Settings.vocabulary` is the vocabulary with the
  words that the settings add, and `Settings.store` is how the store is to work.
-/
import CodeSnippets.Highlight.Vocabulary
import CodeSnippets.Snippets.Store

namespace CodeSnippets

/-- Settings of the highlighting. -/
structure HighlightSettings where
  /-- words that are keywords besides the built-in ones -/
  extraKeywords : List Text
  /-- words that are platform globals besides the built-in ones -/
  extraGlobals : List Text
  /-- how long the text stays as it is before it is highlighted, in milliseconds -/
  debounceMs : Nat
  deriving DecidableEq, Repr

/-- Settings of the snippet store. -/
structure StoreSection where
  /-- how long a snippet lives, in seconds -/
  ttlSecs : Nat
  /-- how many ids a listing has at most -/
  listLimit : Nat
  /-- how long the ids are -/
  idLength : Nat
  deriving DecidableEq, Repr

/-- Settings of pages. -/
structure RenderSettings where
  title : Text
  deriving DecidableEq, Repr

/-- All settings. -/
structure Settings where
  highlight : HighlightSettings
  store : StoreSection
  render : RenderSettings
  deriving DecidableEq, Repr

/-- No words are added, and half a second goes by. -/
def HighlightSettings.default : HighlightSettings := ⟨[], [], 500⟩

/-- The store works as it does by itself. -/
def StoreSection.default : StoreSection :=
  ⟨StoreSettings.default.ttl / 1000, StoreSettings.default.listLimit, StoreSettings.default.idLength⟩

/-- Pages have the name of the program as their title. -/
def RenderSettings.default : RenderSettings := ⟨"snipmark".toList⟩

namespace Settings

/-- The defaults of all sections. -/
def default : Settings := ⟨.default, .default, .default⟩

/-- The built-in vocabulary with the words that are added. -/
def vocabulary (s : Settings) : Except VocabularyError Vocabulary :=
  Vocabulary.extended s.highlight.extraKeywords s.highlight.extraGlobals

/-- How the store is to work. -/
def storeSettings (s : Settings) : StoreSettings :=
  ⟨s.store.ttlSecs * 1000, s.store.listLimit, s.store.idLength⟩

end Settings

end CodeSnippets

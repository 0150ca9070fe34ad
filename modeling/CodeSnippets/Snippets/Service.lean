/-
  Requests about snippets, checked before they reach a store.

  A service may have no store.  Then it refuses to save, delete and list, and has
  no snippet to get.  Otherwise it refuses blank texts and blank ids: saving a
  blank text is an empty input, getting a blank id finds nothing, and deleting one
  misses an id.
-/
import CodeSnippets.Snippets.Store

namespace CodeSnippets

/-- A store, or none. -/
structure Service where
  store? : Option Store

namespace Service

/-- Whether there is a store. -/
def isConfigured (s : Service) : Bool := s.store?.isSome

/-- An operation on the store, if there is one. -/
def withStore {α : Type} (s : Service) (f : Store → Answer StoreError α × Store) :
    Answer StoreError α × Service :=
  match s.store? with
  | none => (.error (.error .storeUnavailable), s)
  | some store =>
    let (answer, store) := f store
    (answer, ⟨some store⟩)

/-- Saves a text that is more than white space. -/
def save (s : Service) (text : Text) : Answer StoreError SnippetId × Service :=
  s.withStore fun store =>
    if (Text.trim text).isEmpty then (.error (.error .emptyInput), store) else store.save text

/-- The text under the id that a text names. -/
def get (s : Service) (id : Text) : Answer StoreError Text × Service :=
  match SnippetId.ofText? id with
  | none => (.error (.error .notFound), s)
  | some id =>
    if s.isConfigured then s.withStore fun store => store.get id
    else (.error (.error .notFound), s)

/-- Takes out the id that a text names, and gives it back. -/
def delete (s : Service) (id : Text) : Answer StoreError SnippetId × Service :=
  match SnippetId.ofText? id with
  | none => (.error (.error .missingId), s)
  | some id =>
    let (answer, s) := s.withStore fun store => store.delete id
    (answer.map fun _ => id, s)

/-- The first ids of the store. -/
def list (s : Service) : Answer StoreError Listing × Service := s.withStore Store.list

/-- A service for inspection. -/
def describe (s : Service) : Text :=
  "SnippetService \x7b configured: ".toList ++
    (if s.isConfigured then "true" else "false").toList ++ " \x7d".toList

end Service

end CodeSnippets

/-
  An editing session over shared snippets.

  A session holds a text, the result of its last highlighting and the id of the
  snippet that the text came from or went to.  The service with the snippets is
  shared with others, so every operation on it takes the service and gives it
  back.

  * `setText` changes the text alone, and `highlight` brings the result up to it;
  * `save` shares the text; the new id becomes the loaded one;
  * `load` replaces the text by a snippet and highlights it, and on failure
    clears the session;
  * `deleteLoaded` takes the loaded snippet out and clears the session;
  * `shareUrl?` is a link to the loaded snippet.
-/
import CodeSnippets.Error
import CodeSnippets.Highlight.Highlighter
import CodeSnippets.Snippets.Service

namespace CodeSnippets

/-- The state of an editing session. -/
structure Session where
  vocabulary : Vocabulary
  text : Text
  loaded : Option SnippetId
  last : Highlighted

namespace Session

/-- A session without text. -/
def new (v : Vocabulary) : Session := ⟨v, [], none, .blank⟩

/-- The session with another text; the result stays. -/
def setText (s : Session) (text : Text) : Session := { s with text }

/-- The size of the text. -/
def size (s : Session) : InputSize := .ofText s.text

/-- The session with the result for its text. -/
def highlight (s : Session) : Session :=
  { s with last := CodeSnippets.highlight s.vocabulary s.text }

/-- Whether there is a snippet to delete. -/
def canDelete (s : Session) : Bool := s.loaded.isSome

/-- The session without text, result and loaded snippet. -/
def clear (s : Session) : Session := new s.vocabulary

/-- Shares the text. -/
def save (s : Session) (service : Service) :
    Answer AppError SnippetId × Session × Service :=
  match service.save s.text with
  | (.ok id, service) => (.ok id, { s with loaded := some id }, service)
  | (.error e, service) => (.error (e.mapError .store), s, service)

/-- Replaces the text by the snippet that a text names. -/
def load (s : Session) (service : Service) (id : Text) :
    Answer AppError Highlighted × Session × Service :=
  match service.get id with
  | (.ok text, service) =>
    let s := { s with text, loaded := SnippetId.ofText? id }.highlight
    (.ok s.last, s, service)
  | (.error e, service) => (.error (e.mapError .store), s.clear, service)

/-- Takes the loaded snippet out. -/
def deleteLoaded (s : Session) (service : Service) :
    Answer AppError SnippetId × Session × Service :=
  match s.loaded with
  | none => (.error (.error .nothingLoaded), s, service)
  | some id =>
    match service.delete id.text with
    | (.ok id, service) => (.ok id, s.clear, service)
    | (.error e, service) => (.error (e.mapError .store), s, service)

/-- A link to the loaded snippet under an address. -/
def shareUrl? (s : Session) (base : Text) : Option Text :=
  s.loaded.map fun id => Text.dropEndWhile (· == '/') base ++ "/?id=".toList ++ id.text

end Session

end CodeSnippets

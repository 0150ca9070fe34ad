/-
  A store of snippets that expire.

  A store has a clock, a source of random numbers and a shelf of entries.  Each
  operation is a change of the store with an answer:

  * `save` drops what has expired and puts the text under the first of at most 16
    random ids that is not in use;
  * `get` gives the text of a live entry, and drops an entry that it finds expired;
  * `delete` takes an id out, whether it is there or not;
  * `list` drops what has expired and gives the first ids, up to a limit;
  * `size` counts the live entries.

  If the expiry of a text lies beyond the last instant of the clock, `save` breaks
  off in the middle of its change, and from then on the store refuses everything
  (`poisoned`).
-/
import CodeSnippets.Snippets.Error
import CodeSnippets.Snippets.Shelf

namespace CodeSnippets

/-- How a store works; times are in milliseconds. -/
structure StoreSettings where
  /-- how long a text lives after it is saved -/
  ttl : Nat
  /-- how many ids a listing has at most -/
  listLimit : Nat
  /-- how long the ids are -/
  idLength : Nat
  deriving DecidableEq, Repr

/-- Thirty days to live, a thousand ids a listing, eight digits an id. -/
def StoreSettings.default : StoreSettings := ⟨60 * 60 * 24 * 30 * 1000, 1000, 8⟩

/-- A page of ids, and whether these are all. -/
structure Listing where
  ids : List SnippetId
  complete : Bool
  deriving DecidableEq, Repr

/-- A store with its surroundings. -/
structure Store where
  settings : StoreSettings
  /-- the reading of the clock -/
  now : Nat
  /-- the random numbers, of 128 bits each -/
  source : Nat → Nat
  /-- how many random numbers have been used -/
  drawn : Nat
  shelf : Shelf
  /-- whether a change has broken off -/
  poisoned : Bool

namespace Store

/-- A store without entries. -/
def new (settings : StoreSettings) (now : Nat) (source : Nat → Nat) : Store :=
  ⟨settings, now, source, 0, .empty, false⟩

/-- The store at a later time. -/
def advance (s : Store) (ms : Nat) : Store := { s with now := s.now + ms }

/-- How often an id is drawn before a save gives up. -/
def maxAttempts : Nat := 16

/-- The last instant of the clock: its seconds are a signed number of 64 bits. -/
def lastInstant : Nat := Nat.pow 2 63 * 1000 - 1

/-- The first id not in use among the next few drawn, and the count of numbers
    used by then. -/
def pickId (shelf : Shelf) (length : Nat) (source : Nat → Nat) :
    (attempts drawn : Nat) → Option SnippetId × Nat
  | 0, drawn => (none, drawn)
  | attempts + 1, drawn =>
    let id := SnippetId.ofDraw length (source drawn)
    if shelf.holds id then pickId shelf length source attempts (drawn + 1)
    else (some id, drawn + 1)

/-- Saves a text under a new id. -/
def save (s : Store) (text : Text) : Answer StoreError SnippetId × Store :=
  if s.poisoned then (.error (.error .lockPoisoned), s)
  else
    let shelf := s.shelf.purge s.now
    match pickId shelf s.settings.idLength s.source maxAttempts s.drawn with
    | (none, drawn) => (.error (.error .noUnusedId), { s with shelf, drawn })
    | (some id, drawn) =>
      let expiry := s.now + s.settings.ttl
      if expiry ≤ lastInstant then
        (.ok id, { s with shelf := shelf.insert ⟨id, text, expiry⟩, drawn })
      else (.error (.abort .expiryOverflow), { s with shelf, drawn, poisoned := true })

/-- The text under an id. -/
def get (s : Store) (id : SnippetId) : Answer StoreError Text × Store :=
  if s.poisoned then (.error (.error .lockPoisoned), s)
  else
    match s.shelf.lookup s.now id with
    | .live text => (.ok text, s)
    | .absent => (.error (.error .notFound), s)
    | .expired => (.error (.error .notFound), { s with shelf := s.shelf.erase id })

/-- Takes an id out; it need not be there. -/
def delete (s : Store) (id : SnippetId) : Answer StoreError Unit × Store :=
  if s.poisoned then (.error (.error .lockPoisoned), s)
  else (.ok (), { s with shelf := s.shelf.erase id })

/-- The first ids, up to the limit. -/
def list (s : Store) : Answer StoreError Listing × Store :=
  if s.poisoned then (.error (.error .lockPoisoned), s)
  else
    let shelf := s.shelf.purge s.now
    let ids := shelf.entries.map Entry.id
    (.ok ⟨ids.take s.settings.listLimit, ids.length ≤ s.settings.listLimit⟩, { s with shelf })

/-- The number of live entries. -/
def size (s : Store) : Answer StoreError Nat :=
  if s.poisoned then .error (.error .lockPoisoned)
  else .ok (s.shelf.liveEntries s.now).length

/-- Whether there is no live entry. -/
def isEmpty (s : Store) : Answer StoreError Bool := s.size.map (· == 0)

end Store

end CodeSnippets
